import ZeroSecret.Base.JsonFields

/-!
# Lists with distinct keys, in and out of order

A sort that compares keys leaves nothing of the order it was given, as long as
no two entries share a key. A list of key/value pairs with distinct keys is
its lookup function, up to the order, and building one by insertions in a
given order keeps that order.
-/

namespace KeyOrder

section Sorting

variable {α κ : Type} {key : α → κ} {r : α → α → Prop}

/-- Two sorted arrangements of the same entries are one. -/
theorem eq_of_perm_of_sorted {l l' : List α} (hkey : ∀ a b, r a b → r b a → key a = key b)
    (hn : (l.map key).Nodup) (hp : l.Perm l') (hs : l.Pairwise r) (hs' : l'.Pairwise r) :
    l = l' := by
  refine List.Perm.eq_of_pairwise ?_ hs hs' hp
  intro a b ha hb hab hba
  exact List.inj_on_of_nodup_map hn ha (hp.mem_iff.mpr hb) (hkey a b hab hba)

variable [DecidableRel r] [Std.Total r] [IsTrans α r]

theorem eq_insertionSort {l l' : List α} (hkey : ∀ a b, r a b → r b a → key a = key b)
    (hn : (l.map key).Nodup) (hp : l'.Perm l) (hs : l'.Pairwise r) :
    l' = l.insertionSort r := by
  refine eq_of_perm_of_sorted hkey ?_ (hp.trans (List.perm_insertionSort r l).symm) hs
    (List.pairwise_insertionSort r l)
  exact (hp.map key).nodup_iff.mpr hn

/-- **Sorting by distinct keys forgets the order, and nothing else.** -/
theorem insertionSort_eq_iff_perm {l l' : List α}
    (hkey : ∀ a b, r a b → r b a → key a = key b) (hn : (l.map key).Nodup) :
    l.insertionSort r = l'.insertionSort r ↔ l.Perm l' := by
  constructor
  · intro h
    exact ((List.perm_insertionSort r l).symm.trans (List.Perm.of_eq h)).trans
      (List.perm_insertionSort r l')
  · intro hp
    have hn' : (l'.map key).Nodup := (hp.map key).nodup_iff.mp hn
    exact eq_insertionSort hkey hn' ((List.perm_insertionSort r l).trans hp)
      (List.pairwise_insertionSort r l)

end Sorting

section Lookup

variable {κ β : Type} [DecidableEq κ]

/-- Lists with distinct keys are the same up to order exactly when they give
every key the same value. -/
theorem perm_iff_lookup {l l' : List (κ × β)} (hn : (l.map Prod.fst).Nodup)
    (hn' : (l'.map Prod.fst).Nodup) : l.Perm l' ↔ ∀ k, l.lookup k = l'.lookup k := by
  constructor
  · intro hp k
    exact Json.lookup_perm hp hn k
  · intro h
    refine (List.perm_ext_iff_of_nodup hn.of_map hn'.of_map).mpr ?_
    rintro ⟨k, v⟩
    rw [← Json.lookup_eq_some_iff_mem hn, ← Json.lookup_eq_some_iff_mem hn', h]

/-- Insertion in a map that remembers the order of insertion: a known key
keeps its place and takes the new value. -/
def insertKey (map : List (κ × β)) (k : κ) (v : β) : List (κ × β) :=
  if k ∈ map.map Prod.fst then map.map fun m => if m.1 = k then (k, v) else m
  else map ++ [(k, v)]

theorem insertKey_new {map : List (κ × β)} {k : κ} (h : k ∉ map.map Prod.fst) (v : β) :
    insertKey map k v = map ++ [(k, v)] := if_neg h

/-- New distinct keys end up in the order they were inserted in. -/
theorem foldl_insertKey {map new : List (κ × β)} (h : ((map ++ new).map Prod.fst).Nodup) :
    new.foldl (fun map m => insertKey map m.1 m.2) map = map ++ new := by
  induction new generalizing map with
  | nil => rw [List.foldl_nil, List.append_nil]
  | cons m new ih =>
      have hnew : m.1 ∉ map.map Prod.fst := by
        rw [List.map_append, List.map_cons] at h
        intro hm
        exact (List.disjoint_of_nodup_append h) hm List.mem_cons_self
      have happ : map ++ m :: new = map ++ [m] ++ new := by
        rw [List.append_assoc, List.singleton_append]
      rw [List.foldl_cons, insertKey_new hnew, ih (by rwa [← happ]), happ]

end Lookup

end KeyOrder
