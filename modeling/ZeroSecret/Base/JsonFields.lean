import Mathlib.Data.List.Sort
import Mathlib.Data.List.Nodup
import Mathlib.Tactic
import ZeroSecret.Base.JsonRoundTrip

/-!
# Objects as records

Two general facts about key/value lists with distinct keys (a lookup does not
see the order; sorting by key is a permutation), and the reading of a record
out of a JSON value the way a derived strict deserializer does it: an object
with no unknown and no repeated member, or an array giving the fields by
position. A missing or null optional field is absent.
-/

namespace Json

/-! ## Key/value lists -/

section Keyed

variable {κ β γ : Type} [DecidableEq κ]

theorem lookup_eq_some_iff_mem {l : List (κ × β)} (hn : (l.map Prod.fst).Nodup)
    {k : κ} {v : β} : l.lookup k = some v ↔ (k, v) ∈ l := by
  induction l with
  | nil => simp
  | cons p l ih =>
      obtain ⟨k', v'⟩ := p
      rw [List.map_cons, List.nodup_cons] at hn
      rw [List.lookup_cons, List.mem_cons]
      by_cases hk : k = k'
      · subst hk
        have hnot : (k, v) ∉ l := fun h => hn.1 (List.mem_map.mpr ⟨_, h, rfl⟩)
        simp only [beq_self_eq_true, Option.some.injEq, Prod.mk.injEq, true_and,
          hnot, or_false]
        exact eq_comm
      · have hb : (k == k') = false := by simpa using hk
        simp only [hb, Prod.mk.injEq, hk, false_and, false_or]
        exact ih hn.2

/-- With distinct keys a lookup does not see the order. -/
theorem lookup_perm {l l' : List (κ × β)} (hp : l.Perm l')
    (hn : (l.map Prod.fst).Nodup) (k : κ) : l.lookup k = l'.lookup k := by
  have hn' : (l'.map Prod.fst).Nodup := (hp.map Prod.fst).nodup_iff.mp hn
  apply Option.ext
  intro v
  rw [lookup_eq_some_iff_mem hn, lookup_eq_some_iff_mem hn', hp.mem_iff]

theorem lookup_map_snd (f : β → γ) (l : List (κ × β)) (k : κ) :
    (l.map fun p => (p.1, f p.2)).lookup k = (l.lookup k).map f := by
  induction l with
  | nil => rfl
  | cons p l ih =>
      rw [List.map_cons, List.lookup_cons, List.lookup_cons]
      cases k == p.1
      · exact ih
      · rfl

end Keyed

/-! ## Record reading -/

/-- The fields of a record value: a member lookup for an object, a position
lookup for an array. Unknown and repeated members refuse the value. -/
def fieldTable (names : List String) : Json → Option (String → Option Json)
  | .obj kvs =>
      if (kvs.map Prod.fst).Nodup ∧ ∀ k ∈ kvs.map Prod.fst, k ∈ names then
        some fun k => kvs.lookup k
      else none
  | .arr xs =>
      if xs.length ≤ names.length then some fun k => (names.zip xs).lookup k
      else none
  | _ => none

/-- The reading without the strictness: members outside `names` are skipped. -/
def knownFields (names : List String) : Json → Option (String → Option Json)
  | .obj kvs =>
      if ((kvs.map Prod.fst).filter (· ∈ names)).Nodup then some fun k => kvs.lookup k
      else none
  | .arr xs =>
      if xs.length ≤ names.length then some fun k => (names.zip xs).lookup k
      else none
  | _ => none

def asStr : Json → Option String
  | .str s => some s
  | _ => none

/-- An unsigned integer below `bound`. -/
def asNat (bound : Nat) : Json → Option Nat
  | .num n => if 0 ≤ n ∧ n < bound then some n.toNat else none
  | _ => none

def asList {α : Type} (rd : Json → Option α) : Json → Option (List α)
  | .arr xs => xs.mapM rd
  | _ => none

def required {α : Type} (field : String → Option Json) (k : String)
    (rd : Json → Option α) : Option α :=
  (field k).bind rd

def optional {α : Type} (field : String → Option Json) (k : String)
    (rd : Json → Option α) : Option (Option α) :=
  match field k with
  | none => some none
  | some .null => some none
  | some v => (rd v).map some

theorem fieldTable_obj {names : List String} {kvs : List (String × Json)}
    (hn : (kvs.map Prod.fst).Nodup) (hsub : ∀ k ∈ kvs.map Prod.fst, k ∈ names) :
    fieldTable names (.obj kvs) = some fun k => kvs.lookup k := by
  rw [fieldTable, if_pos ⟨hn, hsub⟩]

@[simp] theorem asStr_str (s : String) : asStr (.str s) = some s := rfl

theorem asNat_num {bound n : Nat} (h : n < bound) : asNat bound (.num n) = some n := by
  rw [asNat, if_pos ⟨by omega, by exact_mod_cast h⟩]
  simp

theorem asList_strs (xs : List String) :
    asList asStr (.arr (xs.map .str)) = some xs := by
  rw [asList, List.mapM_map]
  induction xs with
  | nil => rfl
  | cons x xs ih => simp [List.mapM_cons, ih]

/-! ## Sizes

The octet count of a written object is a sum over its members, so it does not
see their order either. -/

theorem utf8_append (cs ds : List Char) : utf8 (cs ++ ds) = utf8 cs ++ utf8 ds := by
  simp [utf8]

theorem utf8_length_cons {c : Char} (hc : c.utf8Size = 1) (cs : List Char) :
    (utf8 (c :: cs)).length = (utf8 cs).length + 1 := by
  simp [utf8, hc]
  omega

/-- Octets of one member: key, colon, value. -/
def memberSize (m : String × Json) : Nat :=
  (utf8 (writeStr m.1)).length + 1 + (toVec m.2).length

theorem writeMembers_size : ∀ {kvs : List (String × Json)}, kvs ≠ [] →
    (utf8 (writeMembers kvs)).length = (kvs.map memberSize).sum + kvs.length
  | [(k, v)], _ => by
      simp only [writeMembers, utf8_append, List.length_append, memberSize, toVec,
        utf8_length_cons (show (':' : Char).utf8Size = 1 by decide),
        utf8_length_cons (show ('}' : Char).utf8Size = 1 by decide), List.map_cons,
        List.map_nil, List.sum_cons, List.sum_nil, List.length_cons, List.length_nil]
      simp [utf8]
      omega
  | (k, v) :: m :: kvs, _ => by
      have ih : (utf8 (writeMembers (m :: kvs))).length =
          ((m :: kvs).map memberSize).sum + (m :: kvs).length :=
        writeMembers_size (List.cons_ne_nil _ _)
      rw [writeMembers, List.map_cons, List.sum_cons, List.length_cons]
      simp only [utf8_append, List.length_append, memberSize, toVec,
        utf8_length_cons (show (':' : Char).utf8Size = 1 by decide),
        utf8_length_cons (show (',' : Char).utf8Size = 1 by decide)] at ih ⊢
      omega

theorem toVec_obj_size {kvs : List (String × Json)} (h : kvs ≠ []) :
    (toVec (.obj kvs)).length = 1 + (kvs.map memberSize).sum + kvs.length := by
  rw [toVec, write, utf8_length_cons (by decide), writeMembers_size h]
  omega

end Json
