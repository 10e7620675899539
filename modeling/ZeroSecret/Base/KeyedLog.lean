import Mathlib.Data.List.Perm.Basic
import Mathlib.Data.List.Sort
import Mathlib.Tactic

/-!
# Append-only logs made of one chain per key

The entries of all keys share one list, in insertion order. `Linked R` says
that within every key each entry stands in relation `R` to the entry before it
(`none` for the first). When `R` forces consecutive indices, an entry that
continues an index nobody has taken continues the chain's last entry: this is
what an optimistic writer (read the end, insert at the next index, let a
unique index refuse) relies on. Everything depends on the chains only, so it
survives any reading order that keeps each key's indices increasing.
-/

namespace KeyedLog

variable {E κ : Type} [DecidableEq κ] (key : E → κ)

/-- The chain of one key. -/
def ofKey (l : List E) (k : κ) : List E := l.filter fun e => key e = k

/-- Every entry stands in relation `R` to the one before it, the first one to
`prev`. -/
def LinkedFrom (R : Option E → E → Prop) : Option E → List E → Prop
  | _, [] => True
  | prev, e :: es => R prev e ∧ LinkedFrom R (some e) es

def Linked (R : Option E → E → Prop) (l : List E) : Prop :=
  ∀ k, LinkedFrom R none (ofKey key l k)

theorem ofKey_cons_self (e : E) (l : List E) :
    ofKey key (e :: l) (key e) = e :: ofKey key l (key e) := by
  simp [ofKey]

theorem ofKey_cons_other {e : E} {k : κ} (h : key e ≠ k) (l : List E) :
    ofKey key (e :: l) k = ofKey key l k := by
  simp [ofKey, h]

theorem mem_ofKey {l : List E} {k : κ} {e : E} :
    e ∈ ofKey key l k ↔ e ∈ l ∧ key e = k := by
  simp [ofKey]

variable {R : Option E → E → Prop}

theorem linkedFrom_snoc {prev : Option E} {l : List E} {e : E}
    (hl : LinkedFrom R prev l) (he : R (l.getLast?.or prev) e) :
    LinkedFrom R prev (l ++ [e]) := by
  induction l generalizing prev with
  | nil => exact ⟨by simpa using he, trivial⟩
  | cons a l ih =>
      refine ⟨hl.1, ih hl.2 ?_⟩
      cases h : l.getLast? with
      | none =>
          rw [List.getLast?_eq_none_iff] at h
          subst h
          simpa using he
      | some b =>
          have hb : (a :: l).getLast? = some b := by
            rw [List.getLast?_cons, h]
            rfl
          simpa [hb] using he

theorem linkedFrom_of_snoc {prev : Option E} {l : List E} {e : E}
    (h : LinkedFrom R prev (l ++ [e])) : LinkedFrom R prev l ∧ R (l.getLast?.or prev) e := by
  induction l generalizing prev with
  | nil => exact ⟨trivial, by simpa using h.1⟩
  | cons a l ih =>
      obtain ⟨hl, he⟩ := ih h.2
      refine ⟨⟨h.1, hl⟩, ?_⟩
      cases hlast : l.getLast? with
      | none =>
          rw [List.getLast?_eq_none_iff] at hlast
          subst hlast
          simpa using he
      | some b =>
          have hb : (a :: l).getLast? = some b := by
            rw [List.getLast?_cons, hlast]
            rfl
          simpa [hb, hlast] using he

/-- A list of one key is its own chain. -/
theorem ofKey_eq_self {l : List E} {k : κ} (h : ∀ e ∈ l, key e = k) : ofKey key l k = l := by
  unfold ofKey
  rw [List.filter_eq_self]
  intro e he
  exact decide_eq_true (h e he)

/-- **Appending the next entry of one chain** leaves every chain linked. -/
theorem linked_snoc {l : List E} {e : E} (hl : Linked key R l)
    (he : R (ofKey key l (key e)).getLast? e) : Linked key R (l ++ [e]) := by
  intro k
  by_cases hk : key e = k
  · subst hk
    have happ : ofKey key (l ++ [e]) (key e) = ofKey key l (key e) ++ [e] := by
      simp [ofKey]
    rw [happ]
    exact linkedFrom_snoc (hl (key e)) (by simpa using he)
  · have happ : ofKey key (l ++ [e]) k = ofKey key l k := by
      simp [ofKey, hk]
    rw [happ]
    exact hl k

/-- A view `f` of the entries keeps the chains when it keeps the keys and
takes linked entries, both `G`, to linked entries. -/
theorem linked_map {F : Type} {key' : F → κ} {f : E → F} {G : E → Prop}
    {R' : Option F → F → Prop} (hkey : ∀ e, key' (f e) = key e)
    (hR : ∀ prev e, (∀ p ∈ prev, G p) → R prev e → R' (prev.map f) (f e))
    {l : List E} (hG : ∀ e ∈ l, G e) (h : Linked key R l) : Linked key' R' (l.map f) := by
  have hfrom : ∀ (m : List E) (prev : Option E), (∀ p ∈ prev, G p) → (∀ e ∈ m, G e) →
      LinkedFrom R prev m → LinkedFrom R' (prev.map f) (m.map f) := by
    intro m
    induction m with
    | nil => intros; trivial
    | cons e m ih =>
        intro prev hp hm hl
        refine ⟨hR prev e hp hl.1, ih (some e) ?_ ?_ hl.2⟩
        · rintro p hp'
          obtain rfl := Option.mem_some_iff.mp hp'
          exact hm _ List.mem_cons_self
        · exact fun e' he' => hm e' (List.mem_cons_of_mem _ he')
  intro k
  have hof : ofKey key' (l.map f) k = (ofKey key l k).map f := by
    simp [ofKey, List.filter_map, Function.comp_def, hkey]
  rw [hof]
  refine hfrom _ none (fun _ hp => by cases hp) ?_ (h k)
  exact fun e he => hG e ((mem_ofKey key).mp he).1

/-! ## Consecutive indices -/

section Index

variable (index : E → Nat)

/-- The index that follows `prev`. -/
def nextIndex : Option E → Nat
  | none => 0
  | some e => index e + 1

/-- `R` lets an entry take only the next index. -/
def Consecutive (R : Option E → E → Prop) : Prop :=
  ∀ prev e, R prev e → index e = nextIndex index prev

variable {index}

theorem linkedFrom_indices (hR : Consecutive index R) {prev : Option E} {l : List E}
    (h : LinkedFrom R prev l) :
    l.map index = List.range' (nextIndex index prev) l.length := by
  induction l generalizing prev with
  | nil => rfl
  | cons e l ih =>
      have he : index e = nextIndex index prev := hR prev e h.1
      rw [List.map_cons, ih h.2, List.length_cons, List.range'_succ, he]
      simp [nextIndex, he]

theorem linked_indices (hR : Consecutive index R) {l : List E} (h : Linked key R l) (k : κ) :
    (ofKey key l k).map index = List.range (ofKey key l k).length := by
  rw [linkedFrom_indices hR (h k), List.range_eq_range']
  rfl

/-- Within one chain an index names one entry. -/
theorem linked_index_inj (hR : Consecutive index R) {l : List E} (h : Linked key R l) {k : κ}
    {e e' : E} (he : e ∈ ofKey key l k) (he' : e' ∈ ofKey key l k)
    (hi : index e = index e') : e = e' := by
  have hn : ((ofKey key l k).map index).Nodup := by
    rw [linked_indices key hR h k]
    exact List.nodup_range
  exact List.inj_on_of_nodup_map hn he he' hi

/-- The chain of a key with no entry at index 0 is empty. -/
theorem ofKey_eq_nil (hR : Consecutive index R) {l : List E} (h : Linked key R l) {k : κ}
    (h0 : ∀ e ∈ ofKey key l k, index e ≠ 0) : ofKey key l k = [] := by
  cases hl : ofKey key l k with
  | nil => rfl
  | cons e es =>
      have hk := h k
      rw [hl] at hk
      exact absurd (hR none e hk.1) (h0 e (by rw [hl]; exact List.mem_cons_self))

/-- **The entry whose next index is free is the last one.** -/
theorem getLast_of_next_free (hR : Consecutive index R) {l : List E} (h : Linked key R l)
    {k : κ} {e : E} (he : e ∈ ofKey key l k)
    (hfree : ∀ e' ∈ ofKey key l k, index e' ≠ index e + 1) :
    (ofKey key l k).getLast? = some e := by
  have hidx := linked_indices key hR h k
  have hne : ofKey key l k ≠ [] := List.ne_nil_of_mem he
  have hlt : index e < (ofKey key l k).length := by
    have hm : index e ∈ (ofKey key l k).map index := List.mem_map_of_mem he
    rw [hidx] at hm
    exact List.mem_range.mp hm
  have hmax : index e + 1 = (ofKey key l k).length := by
    by_contra hc
    have hm : index e + 1 ∈ (ofKey key l k).map index := by
      rw [hidx]
      exact List.mem_range.mpr (by omega)
    obtain ⟨e', he', hi⟩ := List.mem_map.mp hm
    exact hfree e' he' hi
  -- the last entry has the last index, so it is `e`
  have hlast : index ((ofKey key l k).getLast hne) = index e := by
    have h1 : ((ofKey key l k).map index).getLast (by simpa using hne) =
        (List.range (ofKey key l k).length).getLast (by simpa using hne) := by
      simp only [hidx]
    rw [List.getLast_map, List.getLast_range] at h1
    omega
  rw [List.getLast?_eq_some_getLast hne,
    linked_index_inj key hR h (List.getLast_mem hne) he hlast]

/-! ## Reading orders -/

variable (index) in
/-- A reading of the log that goes up within every key. -/
def InOrder (l : List E) : Prop :=
  l.Pairwise fun a b => key a = key b → index a < index b

theorem ofKey_pairwise {l : List E} (h : InOrder key index l) (k : κ) :
    (ofKey key l k).Pairwise fun a b => index a < index b := by
  refine (h.filter _).imp_of_mem ?_
  intro a b ha hb hab
  rw [List.mem_filter] at ha hb
  simp only [decide_eq_true_eq] at ha hb
  exact hab (by rw [ha.2, hb.2])

/-- A linked log is read in order as it stands. -/
theorem linked_ofKey_pairwise (hR : Consecutive index R) {l : List E} (h : Linked key R l)
    (k : κ) : (ofKey key l k).Pairwise fun a b => index a < index b := by
  have hp : ((ofKey key l k).map index).Pairwise (· < ·) := by
    rw [linked_indices key hR h k]
    exact List.pairwise_lt_range
  exact List.pairwise_map.mp hp

/-- **Every reading order keeps every chain.** -/
theorem linked_of_perm (hR : Consecutive index R) {l l' : List E} (h : Linked key R l)
    (hp : l'.Perm l) (ho : InOrder key index l') : Linked key R l' := by
  intro k
  have hperm : (ofKey key l' k).Perm (ofKey key l k) := hp.filter _
  have heq : ofKey key l' k = ofKey key l k := by
    refine hperm.eq_of_pairwise ?_ (ofKey_pairwise key ho k) (linked_ofKey_pairwise key hR h k)
    intro a b _ _ hab hba
    omega
  rw [heq]
  exact h k

end Index

end KeyedLog
