import ZeroSecret.Base.JsonFields

/-!
# JSON values up to the order of members

An object is a set of members, an array a sequence. Two values that differ by
the order of members only, at any depth, are rearrangements of each other: the
least congruence in which the members of an object may be permuted.
-/

namespace Json

/-- Induction with one case per kind of value. -/
@[elab_as_elim]
theorem induction_values {motive : Json → Prop} (null : motive .null)
    (bool : ∀ b, motive (.bool b)) (num : ∀ n, motive (.num n)) (str : ∀ s, motive (.str s))
    (arr : ∀ xs, (∀ x ∈ xs, motive x) → motive (.arr xs))
    (obj : ∀ kvs, (∀ m ∈ kvs, motive m.2) → motive (.obj kvs)) (v : Json) : motive v := by
  refine @Json.rec motive (fun xs => ∀ x ∈ xs, motive x) (fun kvs => ∀ m ∈ kvs, motive m.2)
    (fun m => motive m.2) null bool num str arr obj ?_ ?_ ?_ ?_ ?_ v
  · intro x hx
    cases hx
  · intro x xs hx hxs y hy
    rcases List.mem_cons.mp hy with rfl | hy
    · exact hx
    · exact hxs y hy
  · intro m hm
    cases hm
  · intro m kvs hm hkvs m' hm'
    rcases List.mem_cons.mp hm' with rfl | hm'
    · exact hm
    · exact hkvs m' hm'
  · intro k v hv
    exact hv

/-- What a value in memory can be: no object repeats a key, and an integer is
one of 64 bits, with or without sign. -/
inductive WellFormed : Json → Prop where
  | null : WellFormed .null
  | bool (b : Bool) : WellFormed (.bool b)
  | num {n : Int} : -(2 ^ 63) ≤ n → n < 2 ^ 64 → WellFormed (.num n)
  | str (s : String) : WellFormed (.str s)
  | arr {xs : List Json} : (∀ x ∈ xs, WellFormed x) → WellFormed (.arr xs)
  | obj {kvs : List (String × Json)} : (kvs.map Prod.fst).Nodup →
      (∀ m ∈ kvs, WellFormed m.2) → WellFormed (.obj kvs)

/-- Float-free values, as they are in memory. -/
abbrev Value : Type := { v : Json // v.WellFormed }

/-- Equal up to the order of members, at every depth. -/
inductive Rearranged : Json → Json → Prop where
  | refl (v : Json) : Rearranged v v
  | symm {v w : Json} : Rearranged v w → Rearranged w v
  | trans {u v w : Json} : Rearranged u v → Rearranged v w → Rearranged u w
  | members {kvs kvs' : List (String × Json)} : kvs.Perm kvs' →
      Rearranged (.obj kvs) (.obj kvs')
  | member (before after : List (String × Json)) (k : String) {v w : Json} : Rearranged v w →
      Rearranged (.obj (before ++ (k, v) :: after)) (.obj (before ++ (k, w) :: after))
  | item (before after : List Json) {v w : Json} : Rearranged v w →
      Rearranged (.arr (before ++ v :: after)) (.arr (before ++ w :: after))

/-- Rearranging every member of an object. -/
theorem rearranged_map_members {f : Json → Json} {kvs : List (String × Json)}
    (h : ∀ m ∈ kvs, Rearranged m.2 (f m.2)) (before : List (String × Json)) :
    Rearranged (.obj (before ++ kvs)) (.obj (before ++ kvs.map fun m => (m.1, f m.2))) := by
  induction kvs generalizing before with
  | nil => exact .refl _
  | cons m kvs ih =>
      have hfirst := Rearranged.member before kvs m.1 (h m List.mem_cons_self)
      have hrest := ih (fun m' hm' => h m' (List.mem_cons_of_mem m hm'))
        (before ++ [(m.1, f m.2)])
      rw [List.append_assoc, List.append_assoc] at hrest
      exact hfirst.trans hrest

/-- Rearranging every item of an array. -/
theorem rearranged_map_items {f : Json → Json} {xs : List Json}
    (h : ∀ x ∈ xs, Rearranged x (f x)) (before : List Json) :
    Rearranged (.arr (before ++ xs)) (.arr (before ++ xs.map f)) := by
  induction xs generalizing before with
  | nil => exact .refl _
  | cons x xs ih =>
      have hfirst := Rearranged.item before xs (h x List.mem_cons_self)
      have hrest := ih (fun y hy => h y (List.mem_cons_of_mem x hy)) (before ++ [f x])
      rw [List.append_assoc, List.append_assoc] at hrest
      exact hfirst.trans hrest

/-- Replacing one member by a rearrangement keeps the keys and the rest. -/
theorem wellFormed_member_iff {before after : List (String × Json)} {k : String} {v w : Json}
    (h : v.WellFormed ↔ w.WellFormed) :
    (obj (before ++ (k, v) :: after)).WellFormed ↔
      (obj (before ++ (k, w) :: after)).WellFormed := by
  have hone : ∀ {v w : Json}, (v.WellFormed → w.WellFormed) →
      (obj (before ++ (k, v) :: after)).WellFormed →
      (obj (before ++ (k, w) :: after)).WellFormed := by
    intro v w h hv
    cases hv with
    | obj hn hm =>
        refine .obj ?_ ?_
        · rwa [List.map_append, List.map_cons] at hn ⊢
        · intro m hm'
          rcases List.mem_append.mp hm' with hm' | hm'
          · exact hm m (List.mem_append_left _ hm')
          · rcases List.mem_cons.mp hm' with rfl | hm'
            · exact h (hm (k, v) (List.mem_append_right _ List.mem_cons_self))
            · exact hm m (List.mem_append_right _ (List.mem_cons_of_mem _ hm'))
  exact ⟨hone h.mp, hone h.mpr⟩

theorem wellFormed_item_iff {before after : List Json} {v w : Json}
    (h : v.WellFormed ↔ w.WellFormed) :
    (arr (before ++ v :: after)).WellFormed ↔ (arr (before ++ w :: after)).WellFormed := by
  have hone : ∀ {v w : Json}, (v.WellFormed → w.WellFormed) →
      (arr (before ++ v :: after)).WellFormed → (arr (before ++ w :: after)).WellFormed := by
    intro v w h hv
    cases hv with
    | arr hx =>
        refine .arr fun x hx' => ?_
        rcases List.mem_append.mp hx' with hx' | hx'
        · exact hx x (List.mem_append_left _ hx')
        · rcases List.mem_cons.mp hx' with rfl | hx'
          · exact h (hx v (List.mem_append_right _ List.mem_cons_self))
          · exact hx x (List.mem_append_right _ (List.mem_cons_of_mem _ hx'))
  exact ⟨hone h.mp, hone h.mpr⟩

theorem wellFormed_perm {kvs kvs' : List (String × Json)} (hp : kvs.Perm kvs')
    (h : (obj kvs).WellFormed) : (obj kvs').WellFormed := by
  cases h with
  | obj hn hm =>
      exact .obj ((hp.map Prod.fst).nodup_iff.mp hn) fun m hm' => hm m (hp.mem_iff.mpr hm')

/-- A rearrangement of a value in memory is one. -/
theorem Rearranged.wellFormed_iff {v w : Json} (h : Rearranged v w) :
    v.WellFormed ↔ w.WellFormed := by
  induction h with
  | refl v => exact Iff.rfl
  | symm h ih => exact ih.symm
  | trans h h' ih ih' => exact ih.trans ih'
  | members hp => exact ⟨wellFormed_perm hp, wellFormed_perm hp.symm⟩
  | member before after k h ih => exact wellFormed_member_iff ih
  | item before after h ih => exact wellFormed_item_iff ih

end Json
