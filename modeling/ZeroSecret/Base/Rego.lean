import Mathlib.Data.List.DropRight
import ZeroSecret.Base.Gregorian
import ZeroSecret.Base.Regex

/-!
# Values and built-in functions of Rego

What is undefined is `none`; a rule whose body meets it yields nothing, and
its negation holds only where the undefined part is a rule without arguments.
Strings are taken apart by characters. Case mapping and the text of a value
under `%v` are left to the interpreter.
-/

namespace Rego

/-- A number is kept as it was written. -/
inductive Value where
  | null
  | bool (b : Bool)
  | num (literal : String)
  | str (s : String)
  | arr (xs : List Value)
  | obj (kvs : List (String × Value))

/-- What is used of the interpreter as it stands. -/
structure Builtins where
  lower : String → String
  upper : String → String
  format : Value → String

namespace Value

def isString : Value → Bool
  | str _ => true
  | _ => false

def isArray : Value → Bool
  | arr _ => true
  | _ => false

def isObject : Value → Bool
  | obj _ => true
  | _ => false

def isBoolean : Value → Bool
  | bool _ => true
  | _ => false

def string? : Value → Option String
  | str s => some s
  | _ => none

def array? : Value → Option (List Value)
  | arr xs => some xs
  | _ => none

def object? : Value → Option (List (String × Value))
  | obj kvs => some kvs
  | _ => none

/-- `v[k]` -/
def get : Value → String → Option Value
  | obj kvs, k => kvs.lookup k
  | _, _ => none

/-- `v[k]` is a string, an array, an object. -/
def getString (v : Value) (k : String) : Option String := (v.get k).bind string?

def getArray (v : Value) (k : String) : Option (List Value) := (v.get k).bind array?

def getObject (v : Value) (k : String) : Option (List (String × Value)) := (v.get k).bind object?

/-! ## Writing a member -/

def setIn (k : String) (v : Value) : List (String × Value) → List (String × Value)
  | [] => [(k, v)]
  | kv :: kvs => if kv.1 = k then (k, v) :: kvs else kv :: setIn k v kvs

def eraseIn (k : String) (kvs : List (String × Value)) : List (String × Value) :=
  kvs.filter fun kv => kv.1 ≠ k

def modifyIn (k : String) (f : Value → Value) (kvs : List (String × Value)) :
    List (String × Value) :=
  kvs.map fun kv => if kv.1 = k then (kv.1, f kv.2) else kv

def set (o : Value) (k : String) (v : Value) : Value :=
  match o with
  | obj kvs => obj (setIn k v kvs)
  | _ => o

def erase (o : Value) (k : String) : Value :=
  match o with
  | obj kvs => obj (eraseIn k kvs)
  | _ => o

def modify (o : Value) (k : String) (f : Value → Value) : Value :=
  match o with
  | obj kvs => obj (modifyIn k f kvs)
  | _ => o

theorem lookup_setIn_self (k : String) (v : Value) (kvs : List (String × Value)) :
    (setIn k v kvs).lookup k = some v := by
  induction kvs with
  | nil => simp [setIn]
  | cons kv kvs ih =>
      rw [setIn]
      split
      · simp
      · rename_i hne
        rw [List.lookup_cons, beq_eq_false_iff_ne.mpr (Ne.symm hne)]
        exact ih

theorem lookup_setIn_of_ne {k k' : String} (h : k' ≠ k) (v : Value)
    (kvs : List (String × Value)) : (setIn k v kvs).lookup k' = kvs.lookup k' := by
  induction kvs with
  | nil => simp [setIn, h]
  | cons kv kvs ih =>
      rw [setIn]
      split
      · rename_i heq
        rw [List.lookup_cons, List.lookup_cons, heq, beq_eq_false_iff_ne.mpr h]
      · rw [List.lookup_cons, List.lookup_cons, ih]

theorem lookup_eraseIn_self (k : String) (kvs : List (String × Value)) :
    (eraseIn k kvs).lookup k = none := by
  rw [List.lookup_eq_none_iff]
  intro kv hkv
  have hne := of_decide_eq_true (List.mem_filter.mp hkv).2
  exact bne_iff_ne.mpr (Ne.symm hne)

theorem lookup_eraseIn_of_ne {k k' : String} (h : k' ≠ k) (kvs : List (String × Value)) :
    (eraseIn k kvs).lookup k' = kvs.lookup k' := by
  induction kvs with
  | nil => rfl
  | cons kv kvs ih =>
      by_cases hk : kv.1 = k
      · have herase : eraseIn k (kv :: kvs) = eraseIn k kvs :=
          List.filter_cons_of_neg (by simp [hk])
        rw [herase, ih, List.lookup_cons, hk, beq_eq_false_iff_ne.mpr h]
      · have hkeep : eraseIn k (kv :: kvs) = kv :: eraseIn k kvs :=
          List.filter_cons_of_pos (by simp [hk])
        rw [hkeep, List.lookup_cons, List.lookup_cons, ih]

theorem lookup_modifyIn_self (k : String) (f : Value → Value) (kvs : List (String × Value)) :
    (modifyIn k f kvs).lookup k = (kvs.lookup k).map f := by
  induction kvs with
  | nil => rfl
  | cons kv kvs ih =>
      change ((if kv.1 = k then (kv.1, f kv.2) else kv) :: modifyIn k f kvs).lookup k = _
      by_cases hk : kv.1 = k
      · rw [if_pos hk, List.lookup_cons, List.lookup_cons, hk, beq_self_eq_true]
        rfl
      · rw [if_neg hk, List.lookup_cons, List.lookup_cons, beq_eq_false_iff_ne.mpr (Ne.symm hk)]
        exact ih

theorem lookup_modifyIn_of_ne {k k' : String} (h : k' ≠ k) (f : Value → Value)
    (kvs : List (String × Value)) : (modifyIn k f kvs).lookup k' = kvs.lookup k' := by
  induction kvs with
  | nil => rfl
  | cons kv kvs ih =>
      change ((if kv.1 = k then (kv.1, f kv.2) else kv) :: modifyIn k f kvs).lookup k' = _
      by_cases hk : kv.1 = k
      · rw [if_pos hk, List.lookup_cons, List.lookup_cons, ih, hk, beq_eq_false_iff_ne.mpr h]
      · rw [if_neg hk, List.lookup_cons, List.lookup_cons, ih]

@[simp] theorem isObject_set (o : Value) (k : String) (v : Value) :
    (o.set k v).isObject = o.isObject := by
  cases o <;> rfl

theorem get_set_of_ne {k k' : String} (h : k' ≠ k) (o v : Value) :
    (o.set k v).get k' = o.get k' := by
  cases o with
  | obj kvs => exact lookup_setIn_of_ne h v kvs
  | _ => rfl

theorem get_set_self {o : Value} (h : o.isObject = true) (k : String) (v : Value) :
    (o.set k v).get k = some v := by
  cases o with
  | obj kvs => exact lookup_setIn_self k v kvs
  | _ => cases h

@[simp] theorem isObject_erase (o : Value) (k : String) : (o.erase k).isObject = o.isObject := by
  cases o <;> rfl

@[simp] theorem isObject_modify (o : Value) (k : String) (f : Value → Value) :
    (o.modify k f).isObject = o.isObject := by
  cases o <;> rfl

theorem get_modify_self (o : Value) (k : String) (f : Value → Value) :
    (o.modify k f).get k = (o.get k).map f := by
  cases o with
  | obj kvs => exact lookup_modifyIn_self k f kvs
  | _ => rfl

theorem get_modify_of_ne {k k' : String} (h : k' ≠ k) (o : Value) (f : Value → Value) :
    (o.modify k f).get k' = o.get k' := by
  cases o with
  | obj kvs => exact lookup_modifyIn_of_ne h f kvs
  | _ => rfl

theorem get_obj_eq_none {kvs : List (String × Value)} {k : String}
    (h : k ∉ kvs.map Prod.fst) : (obj kvs).get k = none := by
  rw [get, List.lookup_eq_none_iff]
  intro kv hkv
  refine bne_iff_ne.mpr ?_
  rintro rfl
  exact h (List.mem_map.mpr ⟨kv, hkv, rfl⟩)

theorem get_eq_none_of_not_isObject {o : Value} (h : o.isObject = false) (k : String) :
    o.get k = none := by
  cases o with
  | obj kvs => cases h
  | _ => rfl

end Value

/-! ## Texts -/

/-- White space of Unicode. -/
def isSpace (c : Char) : Bool :=
  c ∈ ['\t', '\n', '\x0B', '\x0C', '\r', ' ', '\u0085', '\u00A0', '\u1680', '\u2028', '\u2029',
    '\u202F', '\u205F', '\u3000'] || ('\u2000' ≤ c && c ≤ '\u200A')

/-- `trim_space` -/
def trimSpace (s : List Char) : List Char := (s.dropWhile isSpace).rdropWhile isSpace

theorem eq_trimSpace (s : List Char) :
    s = s.takeWhile isSpace ++ trimSpace s ++ (s.dropWhile isSpace).rtakeWhile isSpace := by
  rw [trimSpace, List.append_assoc, List.rdropWhile_append_rtakeWhile,
    List.takeWhile_append_dropWhile]

/-- What has no white space in it is in the trimmed text when it is in the text. -/
theorem infix_trimSpace {s before core after : List Char} (hs : s = before ++ core ++ after)
    (hne : core ≠ []) (hcore : ∀ c ∈ core, isSpace c = false) :
    ∃ before' after', trimSpace s = before' ++ core ++ after' ∧
      before = s.takeWhile isSpace ++ before' := by
  have hlead : ∀ c ∈ s.takeWhile isSpace, isSpace c = true := fun c hc => List.mem_takeWhile_imp hc
  have htrail : ∀ c ∈ (s.dropWhile isSpace).rtakeWhile isSpace, isSpace c = true :=
    fun c hc => List.mem_rtakeWhile_imp hc
  have heq := eq_trimSpace s
  generalize s.takeWhile isSpace = lead at *
  generalize (s.dropWhile isSpace).rtakeWhile isSpace = trail at *
  generalize trimSpace s = t at *
  obtain ⟨skipped, rfl, hrest⟩ : ∃ skipped, before = lead ++ skipped ∧
      t ++ trail = skipped ++ (core ++ after) := by
    rw [heq, List.append_assoc, List.append_assoc] at hs
    rcases List.append_eq_append_iff.mp hs with ⟨skipped, hbefore, hrest⟩ | ⟨extra, hextra, hrest⟩
    · exact ⟨skipped, hbefore, hrest⟩
    · cases extra with
      | nil =>
          rw [List.append_nil] at hextra
          exact ⟨[], by rw [hextra, List.append_nil], hrest.symm⟩
      | cons c extra =>
          -- the text would start in the white space before it
          obtain ⟨d, core, rfl⟩ := List.exists_cons_of_ne_nil hne
          obtain ⟨rfl, -⟩ := List.cons.inj hrest
          have hspace := hlead d (by simp [hextra])
          rw [hcore d List.mem_cons_self] at hspace
          cases hspace
  rw [← List.append_assoc] at hrest
  rcases List.append_eq_append_iff.mp hrest with ⟨extra, hextra, htail⟩ | ⟨left, ht, -⟩
  · rcases List.eq_nil_or_concat extra with rfl | ⟨extra, c, rfl⟩
    · rw [List.append_nil] at hextra
      exact ⟨skipped, [], by rw [List.append_nil, hextra], rfl⟩
    · -- or end in the white space after it
      rcases List.eq_nil_or_concat core with rfl | ⟨core, d, rfl⟩
      · exact absurd rfl hne
      · rw [List.concat_eq_append, List.concat_eq_append, ← List.append_assoc,
          ← List.append_assoc] at hextra
        obtain rfl : d = c := (List.append_inj' hextra rfl).2 |> List.singleton_inj.mp
        have hspace := htrail d (by simp [htail])
        rw [hcore d (by simp)] at hspace
        cases hspace
  · exact ⟨skipped, left, ht, rfl⟩

/-- `indexof`; `none` is `-1`. -/
def indexOf (needle : List Char) : List Char → Option Nat
  | [] => if needle.isEmpty then some 0 else none
  | c :: s => if needle.isPrefixOf (c :: s) then some 0 else (indexOf needle s).map (· + 1)

/-- `split(s, sep)` -/
def split (sep : Char) (s : List Char) : List (List Char) := s.splitOn sep

/-! ## Dates -/

def digitValue (c : Char) : Int := c.toNat - 48

def twoDigits (a b : Char) : Int := 10 * digitValue a + digitValue b

/-- The date a text writes as `2006-01-02`. -/
def parseDate : List Char → Option Calendar.Date
  | [y₁, y₂, y₃, y₄, '-', m₁, m₂, '-', d₁, d₂] =>
      let date : Calendar.Date := ⟨100 * twoDigits y₁ y₂ + twoDigits y₃ y₄, twoDigits m₁ m₂, twoDigits d₁ d₂⟩
      if [y₁, y₂, y₃, y₄, m₁, m₂, d₁, d₂].all Char.isDigit && 1 ≤ date.month && date.month ≤ 12 &&
          1 ≤ date.day && date.day ≤ Calendar.monthLength date.year date.month then
        some date
      else none
  | _ => none

/-- `time.parse_ns("2006-01-02", s)` -/
def parseNs (s : List Char) : Option Int :=
  (parseDate s).map fun date => date.days * 86400 * 1000000000

def digits : List Char := ['0', '1', '2', '3', '4', '5', '6', '7', '8', '9']

theorem isDigit_iff_mem {c : Char} : c.isDigit = true ↔ c ∈ digits := by
  constructor
  · intro h
    have hbounds : 48 ≤ c.toNat ∧ c.toNat ≤ 57 := by
      simpa [Char.isDigit, UInt32.le_iff_toNat_le] using h
    have hall : ∀ n ∈ List.range' 48 10, Char.ofNat n ∈ digits := by decide
    rw [← Char.ofNat_toNat c]
    exact hall _ (List.mem_range'_1.mpr ⟨hbounds.1, by omega⟩)
  · intro h
    have hall : ∀ d ∈ digits, d.isDigit = true := by decide
    exact hall c h

/-- What a text that is a date looks like. -/
theorem parseDate_eq_some {word : List Char} {date : Calendar.Date} (h : parseDate word = some date) :
    ∃ y₁ y₂ y₃ y₄ m₁ m₂ d₁ d₂, word = [y₁, y₂, y₃, y₄, '-', m₁, m₂, '-', d₁, d₂] ∧
      (∀ c ∈ [y₁, y₂, y₃, y₄, m₁, m₂, d₁, d₂], c ∈ digits) ∧ date.Valid ∧
      date = ⟨100 * twoDigits y₁ y₂ + twoDigits y₃ y₄, twoDigits m₁ m₂, twoDigits d₁ d₂⟩ := by
  unfold parseDate at h
  split at h
  · rename_i y₁ y₂ y₃ y₄ m₁ m₂ d₁ d₂
    dsimp only at h
    split at h
    · rename_i hvalid
      simp only [Bool.and_eq_true, decide_eq_true_eq, List.all_eq_true] at hvalid
      obtain ⟨⟨⟨⟨hdigits, hmonth⟩, hmonth'⟩, hday⟩, hday'⟩ := hvalid
      obtain rfl := Option.some.inj h
      exact ⟨y₁, y₂, y₃, y₄, m₁, m₂, d₁, d₂, rfl, fun c hc => isDigit_iff_mem.mp (hdigits c hc),
        ⟨hmonth, hmonth', hday, hday'⟩, rfl⟩
    · cases h
  · cases h

/-! ## The interpreter on ASCII texts -/

/-- Case mapping of ASCII letters, the text of scalars. -/
def Builtins.ascii : Builtins where
  lower s := String.ofList ((Json.chars s).map Char.toLower)
  upper s := String.ofList ((Json.chars s).map Char.toUpper)
  format
    | .null => "null"
    | .bool b => if b then "true" else "false"
    | .num literal => literal
    | .str s => s
    | .arr _ => "[…]"
    | .obj _ => "…"

end Rego
