import Mathlib.Data.List.Nodup

/-!
# Tables with a primary key

A list of rows with pairwise distinct keys, each satisfying a row invariant.
Inserting a fresh row and updating rows in place keep both.
-/

/-- Distinct keys, and `R` of every row. -/
structure KeyedTable {α κ : Type} (key : α → κ) (R : α → Prop) (rows : List α) : Prop where
  distinct : (rows.map key).Nodup
  each : ∀ row ∈ rows, R row

namespace KeyedTable

variable {α κ : Type} {key : α → κ} {R : α → Prop} {rows : List α}

theorem empty (key : α → κ) (R : α → Prop) : KeyedTable key R [] :=
  ⟨List.nodup_nil, fun _ h => (by cases h)⟩

/-- `INSERT` of a row whose key is fresh. -/
theorem insert (h : KeyedTable key R rows) {x : α} (hfresh : ∀ row ∈ rows, key row ≠ key x)
    (hx : R x) : KeyedTable key R (rows ++ [x]) := by
  constructor
  · rw [List.map_append, List.nodup_append']
    refine ⟨h.distinct, List.nodup_singleton _, ?_⟩
    rw [List.map_singleton, List.disjoint_singleton]
    intro hmem
    obtain ⟨row, hrow, hkey⟩ := List.mem_map.mp hmem
    exact hfresh row hrow hkey
  · intro row hrow
    rcases List.mem_append.mp hrow with hrow | hrow
    · exact h.each row hrow
    · rw [List.mem_singleton.mp hrow]
      exact hx

/-- `UPDATE` of the rows that match, leaving the key alone. -/
theorem update (h : KeyedTable key R rows) {p : α → Bool} {f : α → α}
    (hkey : ∀ row, key (f row) = key row) (hf : ∀ row, R row → p row = true → R (f row)) :
    KeyedTable key R (rows.map fun row => if p row then f row else row) := by
  constructor
  · have hcomp : (key ∘ fun row => if p row then f row else row) = key := by
      funext row
      by_cases hp : p row = true
      · rw [Function.comp_apply, if_pos hp, hkey]
      · rw [Function.comp_apply, if_neg hp]
    rw [List.map_map, hcomp]
    exact h.distinct
  · intro row hrow
    obtain ⟨old, hold, rfl⟩ := List.mem_map.mp hrow
    by_cases hp : p old = true
    · rw [if_pos hp]
      exact hf old (h.each old hold) hp
    · rw [if_neg hp]
      exact h.each old hold

/-- A key names one row. -/
theorem eq_of_key (h : KeyedTable key R rows) {x y : α} (hx : x ∈ rows) (hy : y ∈ rows)
    (hkey : key x = key y) : x = y :=
  List.inj_on_of_nodup_map h.distinct hx hy hkey

/-- Looking a key up gives its row and no other. -/
theorem filter_eq [DecidableEq κ] (h : KeyedTable key R rows) {x : α} (hx : x ∈ rows) :
    (rows.filter fun row => key row = key x) = [x] := by
  have hnodup : (rows.filter fun row => key row = key x).Nodup := h.distinct.of_map.filter _
  refine List.perm_singleton.mp ((List.perm_ext_iff_of_nodup hnodup (List.nodup_singleton x)).mpr ?_)
  intro row
  rw [List.mem_filter, List.mem_singleton, decide_eq_true_eq]
  constructor
  · rintro ⟨hrow, hkey⟩
    exact h.eq_of_key hrow hx hkey
  · rintro rfl
    exact ⟨hx, rfl⟩

end KeyedTable
