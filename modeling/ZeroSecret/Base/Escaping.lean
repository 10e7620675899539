import Mathlib.Data.List.Infix

/-!
# Escaping with entities

Some characters are written as entities, which all start with one mark; the
mark is such a character itself and stands nowhere else in an entity. No entity
is the start of another. A text escaped in this way is read back, and each mark
in it starts an entity.
-/

/-- Entities that can be told apart. -/
structure Entities (α : Type) where
  mark : α
  table : List (α × List α)
  marked : ∀ e ∈ table, ∃ rest, e.2 = mark :: rest ∧ mark ∉ rest
  covers : mark ∈ table.map Prod.fst
  prefixFree : ∀ d ∈ table, ∀ e ∈ table, d.2 <+: e.2 → d = e

namespace Entities

variable {α : Type} [DecidableEq α] (k : Entities α)

def code (c : α) : List α := (k.table.lookup c).getD [c]

def escape (s : List α) : List α := s.flatMap k.code

/-- An entity is read as its character, any other character as itself. -/
def unescape : List α → List α
  | [] => []
  | c :: rest =>
      match k.table.find? fun e => e.2 <+: c :: rest with
      | some e => e.1 :: unescape (rest.drop (e.2.length - 1))
      | none => c :: unescape rest
termination_by s => s.length
decreasing_by
  · rw [List.length_drop, List.length_cons]
    omega
  · exact Nat.lt_succ_self _

/-- A character has an entity or stands for itself, and the mark does not. -/
theorem code_cases (c : α) :
    (∃ w, (c, w) ∈ k.table ∧ k.code c = w) ∨
      c ∉ k.table.map Prod.fst ∧ k.code c = [c] ∧ c ≠ k.mark := by
  cases hlookup : k.table.lookup c with
  | some w =>
      left
      obtain ⟨before, after, htable, -⟩ := List.lookup_eq_some_iff.mp hlookup
      refine ⟨w, ?_, by rw [code, hlookup, Option.getD_some]⟩
      rw [htable]
      simp
  | none =>
      right
      have hfresh : c ∉ k.table.map Prod.fst := by
        intro hmem
        obtain ⟨e, he, rfl⟩ := List.mem_map.mp hmem
        have hne := List.lookup_eq_none_iff.mp hlookup e he
        simp at hne
      refine ⟨hfresh, by rw [code, hlookup, Option.getD_none], ?_⟩
      rintro rfl
      exact hfresh k.covers

theorem escape_cons (c : α) (s : List α) : k.escape (c :: s) = k.code c ++ k.escape s :=
  List.flatMap_cons

/-- Of the entities only the right one starts a text that starts with it. -/
theorem find?_entity {e : α × List α} (he : e ∈ k.table) (rest : List α) :
    (k.table.find? fun d => d.2 <+: e.2 ++ rest) = some e := by
  cases hfind : k.table.find? fun d => d.2 <+: e.2 ++ rest with
  | none =>
      have hno := List.find?_eq_none.mp hfind e he
      exact absurd (decide_eq_true (List.prefix_append e.2 rest)) hno
  | some d =>
      have hd := List.mem_of_find?_eq_some hfind
      have hmatch := List.find?_some hfind
      have hstarts : d.2 <+: e.2 ++ rest := of_decide_eq_true hmatch
      rcases List.prefix_or_prefix_of_prefix hstarts (List.prefix_append e.2 rest) with h | h
      · rw [k.prefixFree d hd e he h]
      · rw [k.prefixFree e he d hd h]

theorem find?_none {c : α} (hc : c ≠ k.mark) (rest : List α) :
    (k.table.find? fun e => e.2 <+: c :: rest) = none := by
  rw [List.find?_eq_none]
  intro e he hstarts
  obtain ⟨w, hw, -⟩ := k.marked e he
  have h : e.2 <+: c :: rest := of_decide_eq_true hstarts
  rw [hw, List.cons_prefix_cons] at h
  exact hc h.1.symm

theorem unescape_code_append (c : α) (rest : List α) :
    k.unescape (k.code c ++ rest) = c :: k.unescape rest := by
  rcases k.code_cases c with ⟨w, hw, hcode⟩ | ⟨-, hcode, hmark⟩
  · have hfind := k.find?_entity hw rest
    obtain ⟨w', rfl, -⟩ := k.marked _ hw
    rw [hcode, List.cons_append, unescape]
    rw [List.cons_append] at hfind
    rw [hfind]
    show c :: k.unescape ((w' ++ rest).drop ((k.mark :: w').length - 1)) = _
    rw [List.length_cons, Nat.add_sub_cancel, List.drop_left]
  · rw [hcode, List.singleton_append, unescape, k.find?_none hmark]

/-- **What is escaped is read back.** -/
theorem unescape_escape (s : List α) : k.unescape (k.escape s) = s := by
  induction s with
  | nil =>
      show k.unescape [] = []
      rw [unescape]
  | cons c s ih => rw [escape_cons, unescape_code_append, ih]

/-- A character with an entity, in which it does not stand, is gone. -/
theorem not_mem_escape {c : α} (hc : c ∈ k.table.map Prod.fst) (hout : ∀ e ∈ k.table, c ∉ e.2)
    (s : List α) : c ∉ k.escape s := by
  intro hmem
  obtain ⟨d, -, hd⟩ := List.mem_flatMap.mp hmem
  rcases k.code_cases d with ⟨w, hw, hcode⟩ | ⟨hfresh, hcode, -⟩
  · rw [hcode] at hd
    exact hout _ hw hd
  · rw [hcode, List.mem_singleton] at hd
    rw [hd] at hc
    exact hfresh hc

/-- A mark in what one character is written as starts an entity. -/
theorem code_eq_append {c : α} {before after : List α}
    (h : k.code c = before ++ k.mark :: after) :
    before = [] ∧ ∃ e ∈ k.table, e.2 = k.mark :: after := by
  rcases k.code_cases c with ⟨w, hw, hcode⟩ | ⟨-, hcode, hmark⟩
  · obtain ⟨w', hw', hout⟩ := k.marked _ hw
    simp only at hw'
    rw [hcode, hw'] at h
    cases before with
    | nil => exact ⟨rfl, _, hw, hw'.trans h⟩
    | cons b before =>
        obtain ⟨-, hrest⟩ := List.cons.inj h
        rw [hrest] at hout
        exact absurd (List.mem_append_right before (List.mem_cons_self ..)) hout
  · rw [hcode] at h
    cases before with
    | nil => exact absurd (List.cons.inj h).1 hmark
    | cons b before =>
        obtain ⟨-, hrest⟩ := List.cons.inj h
        cases before <;> cases hrest

/-- **Each mark in an escaped text starts an entity.** -/
theorem entity_of_mark {s before after : List α} (h : k.escape s = before ++ k.mark :: after) :
    ∃ e ∈ k.table, e.2 <+: k.mark :: after := by
  induction s generalizing before with
  | nil => cases before <;> cases h
  | cons c s ih =>
      rw [escape_cons, List.append_eq_append_iff] at h
      rcases h with ⟨before', -, hs⟩ | ⟨rest, hcode, hrest⟩
      · exact ih hs
      · cases rest with
        | nil =>
            have hs : k.escape s = [] ++ k.mark :: after := hrest.symm
            exact ih hs
        | cons m rest =>
            obtain ⟨rfl, hafter⟩ := List.cons.inj hrest
            obtain ⟨-, e, he, hentity⟩ := k.code_eq_append hcode
            refine ⟨e, he, ?_⟩
            rw [hentity, hafter]
            exact List.cons_prefix_cons.mpr ⟨rfl, List.prefix_append ..⟩

end Entities
