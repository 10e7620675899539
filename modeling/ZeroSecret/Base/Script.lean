import Mathlib.Algebra.Order.Ring.Rat
import Mathlib.Data.List.Nodup
import Mathlib.Order.WithBot

/-!
# Values of a script

Strings, numbers and maps as the scripting language has them: a string is any
sequence of 16-bit code units, a number an exact value, an infinity or `NaN`,
and a map keeps its entries in the order of their insertion.
-/

/-- Units in any order, unpaired surrogates included. -/
abbrev CodeUnits := List UInt16

/-- The units of characters that take one each. -/
def CodeUnits.ofChars (cs : List Char) : CodeUnits := cs.map fun c => UInt16.ofNat c.toNat

/-- UTF-16: a character beyond the first plane is a pair of surrogates. -/
def CodeUnits.ofChar (c : Char) : CodeUnits :=
  if c.toNat < 0x10000 then [UInt16.ofNat c.toNat]
  else [UInt16.ofNat (0xD800 + (c.toNat - 0x10000) / 0x400),
    UInt16.ofNat (0xDC00 + (c.toNat - 0x10000) % 0x400)]

def CodeUnits.ofString (s : String) : CodeUnits := s.toList.flatMap CodeUnits.ofChar

theorem CodeUnits.ofString_ofList {cs : List Char} (h : ∀ c ∈ cs, c.toNat < 0x10000) :
    CodeUnits.ofString (String.ofList cs) = CodeUnits.ofChars cs := by
  rw [CodeUnits.ofString, String.toList_ofList, CodeUnits.ofChars, List.map_eq_flatMap]
  exact List.flatMap_congr fun c hc => if_pos (h c hc)

/-! ## Numbers -/

inductive Number
  | nan
  | value (x : WithBot (WithTop ℚ))
deriving DecidableEq

namespace Number

def exact (x : ℚ) : Number := value ((x : WithTop ℚ) : WithBot (WithTop ℚ))

/-- No comparison holds of `NaN`. -/
def Compared (R : WithBot (WithTop ℚ) → WithBot (WithTop ℚ) → Prop) : Number → Number → Prop
  | value x, value y => R x y
  | _, _ => False

instance {R : WithBot (WithTop ℚ) → WithBot (WithTop ℚ) → Prop} [DecidableRel R] (x y : Number) :
    Decidable (Compared R x y) :=
  match x, y with
  | value x, value y => inferInstanceAs (Decidable (R x y))
  | nan, nan => isFalse id
  | nan, value _ => isFalse id
  | value _, nan => isFalse id

instance : LE Number := ⟨Compared (· ≤ ·)⟩

instance : LT Number := ⟨Compared (· < ·)⟩

instance (x y : Number) : Decidable (x ≤ y) := inferInstanceAs (Decidable (Compared (· ≤ ·) x y))

instance (x y : Number) : Decidable (x < y) := inferInstanceAs (Decidable (Compared (· < ·) x y))

theorem value_le_value {x y : WithBot (WithTop ℚ)} : value x ≤ value y ↔ x ≤ y := Iff.rfl

theorem value_lt_value {x y : WithBot (WithTop ℚ)} : value x < value y ↔ x < y := Iff.rfl

theorem exact_le_exact {x y : ℚ} : exact x ≤ exact y ↔ x ≤ y := by
  rw [exact, exact, value_le_value, WithBot.coe_le_coe, WithTop.coe_le_coe]

theorem exact_lt_exact {x y : ℚ} : exact x < exact y ↔ x < y := by
  rw [exact, exact, value_lt_value, WithBot.coe_lt_coe, WithTop.coe_lt_coe]

theorem lt_of_not_le {x y : Number} (hx : x ≠ nan) (hy : y ≠ nan) (h : ¬ x ≤ y) : y < x := by
  cases x with
  | nan => exact absurd rfl hx
  | value x =>
      cases y with
      | nan => exact absurd rfl hy
      | value y => exact value_lt_value.mpr (not_le.mp (mt value_le_value.mpr h))

theorem not_le_of_lt {x y : Number} (h : y < x) : ¬ x ≤ y := by
  cases x with
  | nan => exact id
  | value x =>
      cases y with
      | nan => exact id
      | value y => exact mt value_le_value.mp (not_le.mpr (value_lt_value.mp h))

/-- Away from `NaN` the two tests are opposite. -/
theorem not_le_iff_lt {x y : Number} (hx : x ≠ nan) (hy : y ≠ nan) : ¬ x ≤ y ↔ y < x :=
  ⟨lt_of_not_le hx hy, not_le_of_lt⟩

end Number

/-! ## Maps -/

structure ScriptMap (κ α : Type) where
  entries : List (κ × α)
  distinct : (entries.map Prod.fst).Nodup

namespace ScriptMap

variable {κ α : Type}

def empty : ScriptMap κ α := ⟨[], List.nodup_nil⟩

def values (m : ScriptMap κ α) : List α := m.entries.map Prod.snd

theorem not_mem_empty (e : κ × α) : e ∉ (empty : ScriptMap κ α).entries :=
  List.not_mem_nil

variable [DecidableEq κ]

def delete (m : ScriptMap κ α) (k : κ) : ScriptMap κ α where
  entries := m.entries.filter fun e => e.1 ≠ k
  distinct := m.distinct.sublist (List.filter_sublist.map _)

/-- A key that is there keeps its place. -/
def setEntries (entries : List (κ × α)) (k : κ) (v : α) : List (κ × α) :=
  if k ∈ entries.map Prod.fst then entries.map fun e => if e.1 = k then (k, v) else e
  else entries ++ [(k, v)]

theorem setEntries_keys (entries : List (κ × α)) (k : κ) (v : α) :
    (setEntries entries k v).map Prod.fst =
      if k ∈ entries.map Prod.fst then entries.map Prod.fst else entries.map Prod.fst ++ [k] := by
  unfold setEntries
  split
  · rw [List.map_map]
    refine List.map_congr_left fun e _ => ?_
    by_cases h : e.1 = k
    · rw [Function.comp_apply, if_pos h, h]
    · rw [Function.comp_apply, if_neg h]
  · rw [List.map_append, List.map_singleton]

def set (m : ScriptMap κ α) (k : κ) (v : α) : ScriptMap κ α where
  entries := setEntries m.entries k v
  distinct := by
    rw [setEntries_keys]
    split
    · exact m.distinct
    · rename_i hfresh
      rw [List.nodup_append']
      exact ⟨m.distinct, List.nodup_singleton k, List.disjoint_singleton.mpr hfresh⟩

@[simp] theorem mem_delete {m : ScriptMap κ α} {k : κ} {e : κ × α} :
    e ∈ (m.delete k).entries ↔ e ∈ m.entries ∧ e.1 ≠ k := by
  rw [delete, List.mem_filter, decide_eq_true_eq]

@[simp] theorem mem_set {m : ScriptMap κ α} {k : κ} {v : α} {e : κ × α} :
    e ∈ (m.set k v).entries ↔ e = (k, v) ∨ e ∈ m.entries ∧ e.1 ≠ k := by
  show e ∈ setEntries m.entries k v ↔ _
  unfold setEntries
  split
  · rename_i hthere
    rw [List.mem_map]
    constructor
    · rintro ⟨d, hd, rfl⟩
      by_cases h : d.1 = k
      · exact Or.inl (if_pos h)
      · rw [if_neg h]
        exact Or.inr ⟨hd, h⟩
    · rintro (rfl | ⟨he, hk⟩)
      · obtain ⟨d, hd, hdk⟩ := List.mem_map.mp hthere
        exact ⟨d, hd, if_pos hdk⟩
      · exact ⟨e, he, if_neg hk⟩
  · rename_i hfresh
    rw [List.mem_append, List.mem_singleton, or_comm]
    refine or_congr_right ⟨fun he => ⟨he, ?_⟩, And.left⟩
    rintro rfl
    exact hfresh (List.mem_map_of_mem he)

/-! ### Values one by one -/

omit [DecidableEq κ] in
theorem ext_entries {m n : ScriptMap κ α} (h : m.entries = n.entries) : m = n := by
  cases m
  cases n
  cases h
  rfl

section
variable {β : Type} (g : α → β)

/-- The map with every value replaced. -/
def mapValues (m : ScriptMap κ α) : ScriptMap κ β where
  entries := m.entries.map fun e => (e.1, g e.2)
  distinct := by
    rw [List.map_map]
    exact m.distinct

omit [DecidableEq κ] in
theorem values_mapValues (m : ScriptMap κ α) : (m.mapValues g).values = m.values.map g := by
  rw [values, values, mapValues, List.map_map, List.map_map]
  rfl

theorem delete_mapValues (m : ScriptMap κ α) (k : κ) :
    (m.mapValues g).delete k = (m.delete k).mapValues g := by
  apply ext_entries
  change (m.entries.map _).filter _ = (m.entries.filter _).map _
  rw [List.filter_map]
  rfl

theorem set_mapValues (m : ScriptMap κ α) (k : κ) (v : α) :
    (m.mapValues g).set k (g v) = (m.set k v).mapValues g := by
  apply ext_entries
  change setEntries (m.entries.map _) k (g v) = (setEntries m.entries k v).map _
  unfold setEntries
  have hkeys : (m.entries.map fun e => (e.1, g e.2)).map Prod.fst = m.entries.map Prod.fst := by
    rw [List.map_map]
    rfl
  rw [hkeys]
  split
  · rw [List.map_map, List.map_map]
    apply List.map_congr_left
    intro e _
    by_cases he : e.1 = k
    · simp only [Function.comp_apply, if_pos he]
    · simp only [Function.comp_apply, if_neg he]
  · rw [List.map_append, List.map_singleton]

end

end ScriptMap
