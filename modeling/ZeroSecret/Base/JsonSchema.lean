import ZeroSecret.Base.JsonOrder

/-!
# JSON Schema

The assertions of a schema over float-free values. A keyword binds the values
of the type it is about and admits every other; annotations (`format`, titles
and descriptions) assert nothing and have no field. Validation descends in the
value, so the order of its members plays no part.
-/

namespace Json

inductive JsonType
  | null
  | boolean
  | integer
  | string
  | array
  | object
deriving DecidableEq

def typeOf : Json → JsonType
  | null => .null
  | bool _ => .boolean
  | num _ => .integer
  | str _ => .string
  | arr _ => .array
  | obj _ => .object

/-- `^[digits]{least,most}$` -/
structure Pattern where
  digit : Char → Bool
  least : Nat
  most : Option Nat

def Pattern.accepts (p : Pattern) (s : String) : Bool :=
  s.toList.all p.digit && p.least ≤ s.toList.length && p.most.all (s.toList.length ≤ ·)

/-- Equality with a constant; the constants here are scalars. -/
def sameScalar : Json → Json → Bool
  | null, null => true
  | bool a, bool b => a == b
  | num m, num n => m == n
  | str s, str t => s == t
  | _, _ => false

@[simp] theorem sameScalar_arr (xs : List Json) : sameScalar (arr xs) = fun _ => false := rfl

@[simp] theorem sameScalar_obj (kvs : List (String × Json)) :
    sameScalar (obj kvs) = fun _ => false := rfl

structure Schema where
  type : Option JsonType := none
  const : Option Json := none
  enum : Option (List Json) := none
  minimum : Option Int := none
  maxLength : Option Nat := none
  pattern : Option Pattern := none
  minItems : Option Nat := none
  items : Option Schema := none
  required : List String := []
  properties : List (String × Schema) := []
  additionalProperties : Bool := true

namespace Schema

/-- The keywords that look no deeper than the value itself. -/
def admits (s : Schema) (v : Json) : Bool :=
  s.type.all (· = v.typeOf) && s.const.all (sameScalar v) && s.enum.all (·.any (sameScalar v)) &&
  match v with
  | num n => s.minimum.all (· ≤ n)
  | str t => s.maxLength.all (t.toList.length ≤ ·) && s.pattern.all (·.accepts t)
  | arr xs => s.minItems.all (· ≤ xs.length)
  | obj kvs => decide (∀ k ∈ s.required, k ∈ kvs.map Prod.fst)
  | _ => true

mutual

def validates (s : Schema) : Json → Bool
  | arr xs => s.admits (arr xs) && itemsValidate s xs
  | obj kvs => s.admits (obj kvs) && membersValidate s kvs
  | v => s.admits v

def itemsValidate (s : Schema) : List Json → Bool
  | [] => true
  | x :: xs =>
      (match s.items with
        | some p => p.validates x
        | none => true) && itemsValidate s xs

/-- A member is known and validates, or additional. -/
def membersValidate (s : Schema) : List (String × Json) → Bool
  | [] => true
  | (k, v) :: kvs =>
      (match s.properties.lookup k with
        | some p => p.validates v
        | none => s.additionalProperties) && membersValidate s kvs

end

def validatesItem (s : Schema) (x : Json) : Prop := ∀ p ∈ s.items, p.validates x = true

def validatesMember (s : Schema) (m : String × Json) : Prop :=
  match s.properties.lookup m.1 with
  | some p => p.validates m.2 = true
  | none => s.additionalProperties = true

theorem itemsValidate_iff {s : Schema} :
    ∀ {xs : List Json}, s.itemsValidate xs = true ↔ ∀ x ∈ xs, s.validatesItem x
  | [] => by simp [itemsValidate]
  | x :: xs => by
      rw [itemsValidate, Bool.and_eq_true, itemsValidate_iff, List.forall_mem_cons, validatesItem]
      cases s.items with
      | none => simp
      | some p => simp

theorem membersValidate_iff {s : Schema} :
    ∀ {kvs : List (String × Json)}, s.membersValidate kvs = true ↔ ∀ m ∈ kvs, s.validatesMember m
  | [] => by simp [membersValidate]
  | (k, v) :: kvs => by
      rw [membersValidate, Bool.and_eq_true, membersValidate_iff, List.forall_mem_cons,
        validatesMember]
      cases s.properties.lookup k with
      | none => exact Iff.rfl
      | some p => exact Iff.rfl

theorem validates_arr_iff {s : Schema} {xs : List Json} :
    s.validates (arr xs) = true ↔ s.admits (arr xs) = true ∧ ∀ x ∈ xs, s.validatesItem x := by
  rw [validates, Bool.and_eq_true, itemsValidate_iff]

theorem validates_obj_iff {s : Schema} {kvs : List (String × Json)} :
    s.validates (obj kvs) = true ↔ s.admits (obj kvs) = true ∧ ∀ m ∈ kvs, s.validatesMember m := by
  rw [validates, Bool.and_eq_true, membersValidate_iff]

/-- An object against a schema of objects: what is required is there, and what is there
validates. -/
theorem validates_object {s : Schema} {kvs : List (String × Json)} (htype : s.type = some .object)
    (hconst : s.const = none) (henum : s.enum = none) : s.validates (obj kvs) = true ↔
      (∀ k ∈ s.required, k ∈ kvs.map Prod.fst) ∧ ∀ m ∈ kvs, s.validatesMember m := by
  have hadmits : s.admits (obj kvs) = true ↔ ∀ k ∈ s.required, k ∈ kvs.map Prod.fst := by
    rw [admits, htype, hconst, henum]
    exact decide_eq_true_iff
  rw [validates_obj_iff, hadmits]

/-! ## The order of members -/

/-- Only the keys of an object are looked at. -/
theorem admits_obj_congr {s : Schema} {kvs kvs' : List (String × Json)}
    (h : ∀ k, k ∈ kvs.map Prod.fst ↔ k ∈ kvs'.map Prod.fst) :
    s.admits (obj kvs) = s.admits (obj kvs') := by
  have hrequired : (∀ k ∈ s.required, k ∈ kvs.map Prod.fst) ↔
      ∀ k ∈ s.required, k ∈ kvs'.map Prod.fst := forall₂_congr fun k _ => h k
  rw [admits, admits]
  rw [decide_eq_decide.mpr hrequired, sameScalar_obj, sameScalar_obj, typeOf, typeOf]

/-- Only the number of items is looked at. -/
theorem admits_arr_congr {s : Schema} {xs ys : List Json} (h : xs.length = ys.length) :
    s.admits (arr xs) = s.admits (arr ys) := by
  rw [admits, admits]
  rw [h, sameScalar_arr, sameScalar_arr, typeOf, typeOf]

/-- **Rearranging a value keeps what it validates against.** -/
theorem validates_iff_of_rearranged {v w : Json} (h : Rearranged v w) :
    ∀ s : Schema, s.validates v = true ↔ s.validates w = true := by
  induction h with
  | refl v => exact fun s => Iff.rfl
  | symm h ih => exact fun s => (ih s).symm
  | trans h h' ih ih' => exact fun s => (ih s).trans (ih' s)
  | members hp =>
      intro s
      rw [validates_obj_iff, validates_obj_iff,
        admits_obj_congr fun k => (hp.map Prod.fst).mem_iff]
      exact and_congr_right fun _ => forall_congr' fun m => imp_congr_left hp.mem_iff
  | @member before after k v w h ih =>
      intro s
      have hkeys : s.admits (obj (before ++ (k, v) :: after)) =
          s.admits (obj (before ++ (k, w) :: after)) := admits_obj_congr fun _ => by simp
      have hmember : s.validatesMember (k, v) ↔ s.validatesMember (k, w) := by
        rw [validatesMember, validatesMember]
        cases s.properties.lookup k with
        | none => exact Iff.rfl
        | some p => exact ih p
      rw [validates_obj_iff, validates_obj_iff, hkeys]
      simp only [List.forall_mem_append, List.forall_mem_cons, hmember]
  | @item before after v w h ih =>
      intro s
      have hlength : s.admits (arr (before ++ v :: after)) =
          s.admits (arr (before ++ w :: after)) := admits_arr_congr (by simp)
      have hitem : s.validatesItem v ↔ s.validatesItem w :=
        forall₂_congr fun p _ => ih p
      rw [validates_arr_iff, validates_arr_iff, hlength]
      simp only [List.forall_mem_append, List.forall_mem_cons, hitem]

end Schema

end Json
