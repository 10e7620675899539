import ZeroSecret.Base.JsonOrder
import ZeroSecret.Base.KeyOrder
import ZeroSecret.Crypto.Common

/-!
# `canonical_bytes` is a canonical form

`serde_json::Map` is a `BTreeMap`, or an `IndexMap` once a crate of the graph
turns `preserve_order` on. Here the function is written over either backing,
with the keys collected, sorted and inserted as the source does it; on values
in memory both give the octets of `canonicalBytes`. Those octets are the value
up to the order of members, and nothing less.
-/

namespace ZeroSecret.Crypto

open Json (WellFormed Rearranged)

/-! ## Over either map -/

/-- What a `serde_json::Map` is backed by. A map is written as its members in
the order they were inserted in. -/
inductive MapBacking where
  | btreeMap
  | indexMap
deriving DecidableEq

/-- The order a map iterates in. -/
def MapBacking.iter (b : MapBacking) (map : List (String × Json)) : List (String × Json) :=
  match b with
  | .btreeMap => map.insertionSort keyLe
  | .indexMap => map

/-- `a.as_bytes().cmp(b.as_bytes())`. -/
def bytesLe (a b : String) : Prop := octets a ≤ octets b

instance : DecidableRel bytesLe := fun a b =>
  inferInstanceAs (Decidable (octets a ≤ octets b))

/-- The loop over the sorted keys. `values` has the members of the map already
canonical; every key is one of the map's, so `map[k]` finds it. -/
def insertSorted (keys : List String) (values : List (String × Json)) : List (String × Json) :=
  keys.foldl (fun sorted k => KeyOrder.insertKey sorted k ((values.lookup k).getD .null)) []

mutual
def MapBacking.sortKeysRecursively (b : MapBacking) : Json → Json
  | .obj map => .obj (insertSorted (((b.iter map).map Prod.fst).insertionSort bytesLe)
      (b.sortMembers map))
  | .arr items => .arr (b.sortItems items)
  | .str s => .str s
  | .num n => .num n
  | .bool v => .bool v
  | .null => .null
def MapBacking.sortItems (b : MapBacking) : List Json → List Json
  | [] => []
  | x :: xs => b.sortKeysRecursively x :: b.sortItems xs
def MapBacking.sortMembers (b : MapBacking) : List (String × Json) → List (String × Json)
  | [] => []
  | (k, v) :: kvs => (k, b.sortKeysRecursively v) :: b.sortMembers kvs
end

mutual
/-- The order a value is written in: its maps as they iterate. -/
def MapBacking.iterated (b : MapBacking) : Json → Json
  | .obj map => .obj (b.iter (b.iteratedMembers map))
  | .arr items => .arr (b.iteratedItems items)
  | .str s => .str s
  | .num n => .num n
  | .bool v => .bool v
  | .null => .null
def MapBacking.iteratedItems (b : MapBacking) : List Json → List Json
  | [] => []
  | x :: xs => b.iterated x :: b.iteratedItems xs
def MapBacking.iteratedMembers (b : MapBacking) : List (String × Json) → List (String × Json)
  | [] => []
  | (k, v) :: kvs => (k, b.iterated v) :: b.iteratedMembers kvs
end

/-- `serde_json::to_vec`. -/
def MapBacking.toVec (b : MapBacking) (value : Json) : Bytes := (b.iterated value).toVec

def MapBacking.canonicalBytes (b : MapBacking) (value : Json) : Bytes :=
  b.toVec (b.sortKeysRecursively value)

/-! ## Both maps give the same octets -/

instance : Std.Total keyLe := ⟨fun a b => List.le_total (octets a.1) (octets b.1)⟩

instance : IsTrans (String × Json) keyLe := ⟨fun _ _ _ h h' => List.le_trans h h'⟩

instance : Std.Total bytesLe := ⟨fun a b => List.le_total (octets a) (octets b)⟩

instance : IsTrans String bytesLe := ⟨fun _ _ _ h h' => List.le_trans h h'⟩

theorem octets_injective : Function.Injective octets := by
  intro a b h
  rw [octets_eq_utf8, octets_eq_utf8] at h
  exact String.toList_inj.mp (Json.utf8_injective h)

theorem keyLe_antisymm (a b : String × Json) (h : keyLe a b) (h' : keyLe b a) : a.1 = b.1 :=
  octets_injective (List.le_antisymm h h')

namespace MapBacking

variable (b : MapBacking)

theorem sortItems_eq_map (xs : List Json) : b.sortItems xs = xs.map b.sortKeysRecursively := by
  induction xs with
  | nil => rw [sortItems, List.map_nil]
  | cons x xs ih => rw [sortItems, ih, List.map_cons]

theorem sortMembers_eq_map (kvs : List (String × Json)) :
    b.sortMembers kvs = kvs.map fun m => (m.1, b.sortKeysRecursively m.2) := by
  induction kvs with
  | nil => rw [sortMembers, List.map_nil]
  | cons m kvs ih => rw [sortMembers, ih, List.map_cons]

theorem iteratedItems_eq_map (xs : List Json) : b.iteratedItems xs = xs.map b.iterated := by
  induction xs with
  | nil => rw [iteratedItems, List.map_nil]
  | cons x xs ih => rw [iteratedItems, ih, List.map_cons]

theorem iteratedMembers_eq_map (kvs : List (String × Json)) :
    b.iteratedMembers kvs = kvs.map fun m => (m.1, b.iterated m.2) := by
  induction kvs with
  | nil => rw [iteratedMembers, List.map_nil]
  | cons m kvs ih => rw [iteratedMembers, ih, List.map_cons]

theorem iter_perm (map : List (String × Json)) : (b.iter map).Perm map := by
  cases b with
  | btreeMap => exact List.perm_insertionSort keyLe map
  | indexMap => exact List.Perm.refl map

theorem iter_sorted {map : List (String × Json)} (h : map.Pairwise keyLe) : b.iter map = map := by
  cases b with
  | btreeMap => exact h.insertionSort_eq
  | indexMap => rfl

/-- A list with distinct keys, rebuilt from its keys. -/
theorem map_lookup_keys {values : List (String × Json)} (hn : (values.map Prod.fst).Nodup) :
    (values.map Prod.fst).map (fun k => (k, (values.lookup k).getD .null)) = values := by
  rw [List.map_map]
  refine (List.map_congr_left fun m hm => ?_).trans (List.map_id values)
  have hfound : values.lookup m.1 = some m.2 := (Json.lookup_eq_some_iff_mem hn).mpr hm
  rw [Function.comp_apply, hfound]
  rfl

/-- The loop over the sorted keys sorts the members. -/
theorem insertSorted_eq {values : List (String × Json)} (hn : (values.map Prod.fst).Nodup)
    {keys : List String} (hp : keys.Perm (values.map Prod.fst)) :
    insertSorted (keys.insertionSort bytesLe) values = values.insertionSort keyLe := by
  have hperm : (keys.insertionSort bytesLe).Perm (values.map Prod.fst) :=
    (List.perm_insertionSort bytesLe keys).trans hp
  have hkeys : ((keys.insertionSort bytesLe).map
      fun k => (k, (values.lookup k).getD .null)).map Prod.fst = keys.insertionSort bytesLe := by
    rw [List.map_map]
    exact List.map_id _
  have hmembers : insertSorted (keys.insertionSort bytesLe) values =
      (keys.insertionSort bytesLe).map fun k => (k, (values.lookup k).getD .null) := by
    have hnodup : (([] ++ (keys.insertionSort bytesLe).map
        fun k => (k, (values.lookup k).getD .null)).map Prod.fst).Nodup := by
      rw [List.nil_append, hkeys]
      exact hperm.nodup_iff.mpr hn
    have hfold := KeyOrder.foldl_insertKey hnodup
    rw [List.foldl_map, List.nil_append] at hfold
    exact hfold
  rw [hmembers]
  refine KeyOrder.eq_insertionSort keyLe_antisymm hn ?_ ?_
  · have := hperm.map fun k => (k, (values.lookup k).getD .null)
    rwa [map_lookup_keys hn] at this
  · exact List.pairwise_map.mpr (List.pairwise_insertionSort bytesLe keys)

/-- **Whatever backs the maps, the sort is the same** on values in memory. -/
theorem sortKeysRecursively_eq {v : Json} (h : v.WellFormed) :
    b.sortKeysRecursively v = Crypto.sortKeysRecursively v := by
  induction h with
  | null => rw [sortKeysRecursively, sortKeys_null]
  | bool v => rw [sortKeysRecursively, sortKeys_bool]
  | num => rw [sortKeysRecursively, sortKeys_num]
  | str s => rw [sortKeysRecursively, sortKeys_str]
  | @arr xs _ ih =>
      rw [sortKeysRecursively, sortItems_eq_map, sortKeys_arr]
      exact congrArg Json.arr (List.map_congr_left ih)
  | @obj kvs hn _ ih =>
      have hmembers : b.sortMembers kvs = Crypto.sortMembers kvs := by
        rw [sortMembers_eq_map, Crypto.sortMembers_eq_map]
        exact List.map_congr_left fun m hm => by rw [ih m hm]
      have hkeys : ((b.iter kvs).map Prod.fst).Perm ((Crypto.sortMembers kvs).map Prod.fst) := by
        rw [sortMembers_keys]
        exact (b.iter_perm kvs).map Prod.fst
      rw [sortKeysRecursively, sortKeys_obj, hmembers,
        insertSorted_eq (by rwa [sortMembers_keys]) hkeys]

/-- What is sorted is written as it is. -/
theorem iterated_sortKeys (v : Json) :
    b.iterated (Crypto.sortKeysRecursively v) = Crypto.sortKeysRecursively v := by
  induction v using Json.induction_values with
  | null => rw [sortKeys_null, iterated]
  | bool v => rw [sortKeys_bool, iterated]
  | num n => rw [sortKeys_num, iterated]
  | str s => rw [sortKeys_str, iterated]
  | arr xs ih =>
      rw [sortKeys_arr, iterated, iteratedItems_eq_map, List.map_map]
      exact congrArg Json.arr (List.map_congr_left ih)
  | obj kvs ih =>
      have hsame : b.iteratedMembers ((Crypto.sortMembers kvs).insertionSort keyLe) =
          (Crypto.sortMembers kvs).insertionSort keyLe := by
        rw [iteratedMembers_eq_map]
        refine (List.map_congr_left fun m hm => ?_).trans (List.map_id _)
        rw [(sorted_perm kvs).mem_iff, Crypto.sortMembers_eq_map] at hm
        obtain ⟨m', hm', rfl⟩ := List.mem_map.mp hm
        rw [ih m' hm']
        rfl
      rw [sortKeys_obj, iterated, hsame, iter_sorted b (List.pairwise_insertionSort keyLe _)]

/-- **`canonical_bytes` does not depend on the backing.** -/
theorem canonicalBytes_eq {v : Json} (h : v.WellFormed) :
    b.canonicalBytes v = Crypto.canonicalBytes v := by
  rw [canonicalBytes, toVec, sortKeysRecursively_eq b h, iterated_sortKeys, Crypto.canonicalBytes]

end MapBacking

/-! ## What the octets keep -/

theorem rearranged_sortKeys (v : Json) : Rearranged v (sortKeysRecursively v) := by
  induction v using Json.induction_values with
  | null => rw [sortKeys_null]; exact .refl _
  | bool v => rw [sortKeys_bool]; exact .refl _
  | num n => rw [sortKeys_num]; exact .refl _
  | str s => rw [sortKeys_str]; exact .refl _
  | arr xs ih =>
      rw [sortKeys_arr]
      exact Json.rearranged_map_items ih []
  | obj kvs ih =>
      have hvalues : Rearranged (.obj kvs) (.obj (sortMembers kvs)) := by
        rw [sortMembers_eq_map]
        exact Json.rearranged_map_members ih []
      rw [sortKeys_obj]
      exact hvalues.trans (.members (sorted_perm kvs).symm)

theorem wellFormed_sortKeys {v : Json} (h : v.WellFormed) :
    (sortKeysRecursively v).WellFormed :=
  (rearranged_sortKeys v).wellFormed_iff.mp h

/-- Sorting removes the freedom of order: a rearranged value sorts alike. -/
theorem sortKeys_eq_of_rearranged {v w : Json} (h : Rearranged v w) (hv : v.WellFormed) :
    sortKeysRecursively v = sortKeysRecursively w := by
  induction h with
  | refl v => rfl
  | symm h ih => exact (ih (h.wellFormed_iff.mpr hv)).symm
  | trans h h' ih ih' => exact (ih hv).trans (ih' (h.wellFormed_iff.mp hv))
  | @members kvs kvs' hp =>
      cases hv with
      | obj hn _ =>
          rw [sortKeys_obj, sortKeys_obj]
          refine congrArg Json.obj ((KeyOrder.insertionSort_eq_iff_perm keyLe_antisymm ?_).mpr ?_)
          · rwa [sortMembers_keys]
          · rw [sortMembers_eq_map, sortMembers_eq_map]
            exact hp.map _
  | member before after k h ih =>
      cases hv with
      | obj hn hm =>
          have hmember := ih (hm (k, _) (List.mem_append_right _ List.mem_cons_self))
          rw [sortKeys_obj, sortKeys_obj, sortMembers_eq_map, sortMembers_eq_map,
            List.map_append, List.map_append, List.map_cons, List.map_cons, hmember]
  | item before after h ih =>
      cases hv with
      | arr hx =>
          have hitem := ih (hx _ (List.mem_append_right _ List.mem_cons_self))
          rw [sortKeys_arr, sortKeys_arr, List.map_append, List.map_append, List.map_cons,
            List.map_cons, hitem]

theorem canonicalBytes_eq_iff_rearranged {v w : Json} (hv : v.WellFormed) :
    canonicalBytes v = canonicalBytes w ↔ Rearranged v w := by
  constructor
  · intro h
    have hw := (rearranged_sortKeys w).symm
    rw [← canonicalBytes_inj h] at hw
    exact (rearranged_sortKeys v).trans hw
  · intro h
    rw [canonicalBytes, canonicalBytes, sortKeys_eq_of_rearranged h hv]

/-- **`canonical_bytes` is a canonical form.** Two values, each in whatever
map and whatever order of insertion, have the same octets exactly when they
are equal up to the order of members at every depth; and the octets read back
as a value that has them for its own. -/
theorem canonicalBytes_canonical (b b' : MapBacking) (v w : Json.Value) :
    (b.canonicalBytes v.val = b'.canonicalBytes w.val ↔ Rearranged v.val w.val) ∧
    ∃ u : Json.Value, Json.fromSlice (b.canonicalBytes v.val) = some u.val ∧
      b'.canonicalBytes u.val = b.canonicalBytes v.val := by
  have hsorted := wellFormed_sortKeys v.property
  constructor
  · rw [b.canonicalBytes_eq v.property, b'.canonicalBytes_eq w.property]
    exact canonicalBytes_eq_iff_rearranged v.property
  · refine ⟨⟨sortKeysRecursively v.val, hsorted⟩, ?_, ?_⟩
    · rw [b.canonicalBytes_eq v.property]
      exact Json.fromSlice_toVec _
    · rw [b.canonicalBytes_eq v.property, b'.canonicalBytes_eq hsorted]
      exact (canonicalBytes_eq_iff_rearranged hsorted).mpr (rearranged_sortKeys v.val).symm

end ZeroSecret.Crypto
