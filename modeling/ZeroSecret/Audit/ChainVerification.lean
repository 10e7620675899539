import ZeroSecret.Audit.Chain

/-!
# What `verify_chain` decides

One pass over all domains at once, with a map of the last entry of each. The
verdict depends on the domains only, each taken by itself: consecutive
sequences from zero, the root in front, every later entry on the hash of the
one before it. Everything else follows: the interleaving is not seen, a prefix
of an accepted list is accepted, and the only addition of the loop stays far
from the end of `u64`, whatever the input.
-/

namespace ZeroSecret.Audit

open Crypto

/-- `&[T]`: an allocation has at most `isize::MAX` octets, so a slice of
non-empty values has fewer than `2 ^ 63` of them. -/
abbrev Slice (α : Type) : Type := { l : List α // l.length < 2 ^ 63 }

/-- The entries of one domain, in order. -/
def ofDomain (entries : List ChainEntry) (domain : String) : List ChainEntry :=
  KeyedLog.ofKey ChainEntry.authorityDomain entries domain

/-- A well-formed chain of one domain. -/
structure DomainChain (P : Primitives) (chain : List ChainEntry) : Prop where
  sequences : chain.map (fun e => e.sequence.toNat) = List.range chain.length
  root : ∀ e ∈ chain.head?, e.prevHash = chainRoot
  links : chain.IsChain fun prev e => e.prevHash = hashSealedEvent P prev.sealedBytes

/-! ## One domain -/

/-- The position after `prev`. -/
def positionAfter (prev : Option ChainEntry) : Nat :=
  KeyedLog.nextIndex (fun e : ChainEntry => e.sequence.toNat) prev

/-- The hash the entry after `prev` carries. -/
def linkAfter (P : Primitives) : Option ChainEntry → Digest
  | none => chainRoot
  | some p => hashSealedEvent P p.sealedBytes

theorem sequence_succ_iff {s t : UInt64} (h : s.toNat + 1 < 2 ^ 64) :
    t = s + 1 ↔ t.toNat = s.toNat + 1 := by
  have hadd : (s + 1).toNat = s.toNat + 1 := by
    rw [UInt64.toNat_add]
    exact Nat.mod_eq_of_lt h
  rw [← UInt64.toNat_inj, hadd]

/-- While positions are in range, following is taking the next position and
carrying the link. -/
theorem entryFollows_iff {P : Primitives} {prev : Option ChainEntry} {e : ChainEntry}
    (h : positionAfter prev < 2 ^ 64) :
    EntryFollows P prev e ↔ e.sequence.toNat = positionAfter prev ∧
      e.prevHash = linkAfter P prev := by
  cases prev with
  | none =>
      show e.sequence = 0 ∧ e.prevHash = chainRoot ↔ e.sequence.toNat = 0 ∧ e.prevHash = chainRoot
      rw [← UInt64.toNat_inj]
      rfl
  | some p =>
      show e.sequence = p.sequence + 1 ∧ _ ↔ e.sequence.toNat = p.sequence.toNat + 1 ∧ _
      rw [sequence_succ_iff h]
      rfl

/-- **A linked chain, position by position.** -/
theorem linkedFrom_iff {P : Primitives} {prev : Option ChainEntry} {chain : List ChainEntry}
    (h : positionAfter prev + chain.length ≤ 2 ^ 64) :
    KeyedLog.LinkedFrom (EntryFollows P) prev chain ↔
      chain.map (fun e => e.sequence.toNat) = List.range' (positionAfter prev) chain.length ∧
      (∀ e ∈ chain.head?, e.prevHash = linkAfter P prev) ∧
      chain.IsChain fun p e => e.prevHash = hashSealedEvent P p.sealedBytes := by
  induction chain generalizing prev with
  | nil => simp [KeyedLog.LinkedFrom]
  | cons e chain ih =>
      rw [List.length_cons] at h
      have hfirst := @entryFollows_iff P prev e (by omega)
      rw [KeyedLog.LinkedFrom, hfirst, List.map_cons, List.length_cons, List.range'_succ,
        List.isChain_cons]
      constructor
      · rintro ⟨⟨hseq, hlink⟩, hrest⟩
        have hnext : positionAfter (some e) = positionAfter prev + 1 := congrArg (· + 1) hseq
        obtain ⟨hseqs, hhead, hlinks⟩ := (ih (by omega)).mp hrest
        rw [hnext] at hseqs
        refine ⟨by rw [hseq, hseqs], ?_, hhead, hlinks⟩
        intro e' he'
        obtain rfl := Option.mem_some_iff.mp he'
        exact hlink
      · rintro ⟨hseqs, hhead, hnextLink, hlinks⟩
        obtain ⟨hseq, hseqs⟩ := List.cons.inj hseqs
        have hnext : positionAfter (some e) = positionAfter prev + 1 := congrArg (· + 1) hseq
        refine ⟨⟨hseq, hhead e rfl⟩, (ih (by omega)).mpr ⟨?_, hnextLink, hlinks⟩⟩
        rw [hnext, hseqs]

theorem linked_iff_domainChain {P : Primitives} {chain : List ChainEntry}
    (h : chain.length < 2 ^ 63) :
    KeyedLog.LinkedFrom (EntryFollows P) none chain ↔ DomainChain P chain := by
  have hzero : positionAfter none = 0 := rfl
  rw [linkedFrom_iff (by rw [hzero]; omega), hzero, ← List.range_eq_range']
  constructor
  · rintro ⟨hseqs, hroot, hlinks⟩
    exact ⟨hseqs, hroot, hlinks⟩
  · rintro ⟨hseqs, hroot, hlinks⟩
    exact ⟨hseqs, hroot, hlinks⟩

theorem ofDomain_length_le (entries : List ChainEntry) (domain : String) :
    (ofDomain entries domain).length ≤ entries.length :=
  List.length_filter_le _ _

/-- A domain that does not occur is a chain of nothing. -/
theorem domainChain_of_not_mem {P : Primitives} {entries : List ChainEntry} {domain : String}
    (h : domain ∉ entries.map ChainEntry.authorityDomain) :
    DomainChain P (ofDomain entries domain) := by
  have hnil : ofDomain entries domain = [] := by
    refine List.filter_eq_nil_iff.mpr fun e he hd => ?_
    exact h (List.mem_map.mpr ⟨e, he, of_decide_eq_true hd⟩)
  rw [hnil]
  exact ⟨rfl, (fun e he => by cases he), List.IsChain.nil⟩

/-- The verdict, domain by domain. -/
theorem verifyChain_ok_iff_domains (P : Primitives) (entries : Slice ChainEntry) :
    verifyChain P entries.val = .ok () ↔
      entries.val ≠ [] ∧ ∀ d, DomainChain P (ofDomain entries.val d) := by
  rw [verifyChain_ok_iff]
  have hroom : ∀ d, (ofDomain entries.val d).length < 2 ^ 63 := fun d =>
    (ofDomain_length_le entries.val d).trans_lt entries.property
  constructor
  · rintro ⟨hne, hlinked⟩
    exact ⟨hne, fun d => (linked_iff_domainChain (hroom d)).mp (hlinked d)⟩
  · rintro ⟨hne, hchains⟩
    exact ⟨hne, fun d => (linked_iff_domainChain (hroom d)).mpr (hchains d)⟩

/-! ## Prefixes -/

theorem DomainChain.of_initial {P : Primitives} {chain init : List ChainEntry}
    (h : DomainChain P chain) (hp : init <+: chain) : DomainChain P init := by
  obtain ⟨rest, rfl⟩ := hp
  refine ⟨?_, ?_, h.links.left_of_append⟩
  · have hseqs := congrArg (List.take init.length) h.sequences
    rw [List.map_append, List.take_left' (by rw [List.length_map]), List.take_range,
      List.length_append, Nat.min_eq_left (Nat.le_add_right _ _)] at hseqs
    exact hseqs
  · intro e he
    apply h.root e
    cases init with
    | nil => cases he
    | cons a init => exact he

theorem ofDomain_initial {entries init : List ChainEntry} (hp : init <+: entries) (d : String) :
    ofDomain init d <+: ofDomain entries d := by
  obtain ⟨rest, rfl⟩ := hp
  exact ⟨ofDomain rest d, (List.filter_append _ _).symm⟩

/-! ## The addition -/

/-- `prev_sequence + 1`, when the map has an entry, is in range. -/
def additionFits : Option (UInt64 × Bytes) → Bool
  | none => true
  | some (prevSequence, _) => prevSequence.toNat + 1 < 2 ^ 64

/-- The loop with overflow checks: `none` is the panic. -/
def verifyChainFromChecked (P : Primitives) (lastByDomain : String → Option (UInt64 × Bytes))
    (index : Nat) : List ChainEntry → Option (Except ChainError Unit)
  | [] => some (.ok ())
  | entry :: entries =>
      if additionFits (lastByDomain entry.authorityDomain) then
        match checkEntry P (lastByDomain entry.authorityDomain) index entry with
        | .error e => some (.error e)
        | .ok () =>
            verifyChainFromChecked P (Function.update lastByDomain entry.authorityDomain
              (some (entry.sequence, entry.sealedBytes))) (index + 1) entries
      else none

def verifyChainChecked (P : Primitives) (entries : List ChainEntry) :
    Option (Except ChainError Unit) :=
  if entries.isEmpty then some (.error .empty)
  else verifyChainFromChecked P (fun _ => none) 0 entries

/-- Every sequence in the map is below the number of entries passed. -/
def Counted (lastByDomain : String → Option (UInt64 × Bytes)) (index : Nat) : Prop :=
  ∀ d n bytes, lastByDomain d = some (n, bytes) → n.toNat < index

/-- An accepted entry keeps the bound: its sequence is zero, or one more than
a sequence below the bound. -/
theorem counted_step {P : Primitives} {last : String → Option (UInt64 × Bytes)} {index : Nat}
    {entry : ChainEntry} (hc : Counted last index) (hroom : index < 2 ^ 63)
    (hok : checkEntry P (last entry.authorityDomain) index entry = .ok ()) :
    Counted (Function.update last entry.authorityDomain
      (some (entry.sequence, entry.sealedBytes))) (index + 1) := by
  have hentry : entry.sequence.toNat < index + 1 := by
    cases hl : last entry.authorityDomain with
    | none =>
        rw [hl] at hok
        simp only [checkEntry] at hok
        split at hok
        · cases hok
        · split at hok
          · cases hok
          · rename_i hseq
            rw [not_not.mp hseq]
            exact Nat.succ_pos index
    | some kept =>
        obtain ⟨n, bytes⟩ := kept
        have hn := hc _ _ _ hl
        rw [hl] at hok
        simp only [checkEntry] at hok
        split at hok
        · cases hok
        · rename_i hseq
          have := (sequence_succ_iff (show n.toNat + 1 < 2 ^ 64 by omega)).mp (not_not.mp hseq)
          omega
  intro d n bytes hd
  by_cases hdom : d = entry.authorityDomain
  · subst hdom
    rw [Function.update_self] at hd
    obtain ⟨rfl, -⟩ := Prod.mk.inj (Option.some.inj hd)
    exact hentry
  · rw [Function.update_of_ne hdom] at hd
    have := hc d n bytes hd
    omega

/-- **The checks never fire**, on whatever entries. -/
theorem verifyChainFromChecked_eq {P : Primitives} {last : String → Option (UInt64 × Bytes)}
    {index : Nat} {entries : List ChainEntry} (hc : Counted last index)
    (hroom : index + entries.length < 2 ^ 63) :
    verifyChainFromChecked P last index entries = some (verifyChainFrom P last index entries) := by
  induction entries generalizing last index with
  | nil => rfl
  | cons entry entries ih =>
      rw [List.length_cons] at hroom
      have hfits : additionFits (last entry.authorityDomain) = true := by
        cases hl : last entry.authorityDomain with
        | none => rfl
        | some kept =>
            have := hc _ kept.1 kept.2 hl
            exact decide_eq_true (by omega)
      rw [verifyChainFromChecked, if_pos hfits, verifyChainFrom]
      cases hok : checkEntry P (last entry.authorityDomain) index entry with
      | error e => rfl
      | ok u => exact ih (counted_step hc (by omega) hok) (by omega)

theorem verifyChainChecked_eq (P : Primitives) (entries : Slice ChainEntry) :
    verifyChainChecked P entries.val = some (verifyChain P entries.val) := by
  unfold verifyChainChecked verifyChain
  split
  · rfl
  · exact verifyChainFromChecked_eq (fun d n bytes hd => by cases hd)
      (by rw [Nat.zero_add]; exact entries.property)

/-- **`verify_chain` is exact.** A slice is accepted exactly when it is not
empty and each domain in it is a well-formed chain. The verdict does not see
how the domains are interleaved, every non-empty prefix of an accepted slice
is accepted, and `prev_sequence + 1` overflows on no slice: the loop with
overflow checks ends as the loop without. -/
theorem verifyChain_exact (P : Primitives) (entries : Slice ChainEntry) :
    (verifyChain P entries.val = .ok () ↔
      entries.val ≠ [] ∧ ∀ d ∈ entries.val.map ChainEntry.authorityDomain,
        DomainChain P (ofDomain entries.val d)) ∧
    (∀ entries' : Slice ChainEntry, (∀ d, ofDomain entries'.val d = ofDomain entries.val d) →
      (verifyChain P entries'.val = .ok () ↔ verifyChain P entries.val = .ok ())) ∧
    (∀ init : Slice ChainEntry, init.val ≠ [] → init.val <+: entries.val →
      verifyChain P entries.val = .ok () → verifyChain P init.val = .ok ()) ∧
    verifyChainChecked P entries.val = some (verifyChain P entries.val) := by
  refine ⟨?_, ?_, ?_, verifyChainChecked_eq P entries⟩
  · rw [verifyChain_ok_iff_domains]
    constructor
    · rintro ⟨hne, hchains⟩
      exact ⟨hne, fun d _ => hchains d⟩
    · rintro ⟨hne, hchains⟩
      refine ⟨hne, fun d => ?_⟩
      by_cases hd : d ∈ entries.val.map ChainEntry.authorityDomain
      · exact hchains d hd
      · exact domainChain_of_not_mem hd
  · intro entries' hsame
    have hempty : entries'.val ≠ [] ↔ entries.val ≠ [] := by
      have hlists : ∀ {l l' : List ChainEntry}, (∀ d, ofDomain l d = ofDomain l' d) →
          l' = [] → l = [] := by
        rintro l - h rfl
        refine List.eq_nil_iff_forall_not_mem.mpr fun e he => ?_
        have hmem : e ∈ ofDomain l e.authorityDomain :=
          (KeyedLog.mem_ofKey ChainEntry.authorityDomain).mpr ⟨he, rfl⟩
        rw [h] at hmem
        cases hmem
      exact not_congr ⟨hlists fun d => (hsame d).symm, hlists hsame⟩
    rw [verifyChain_ok_iff_domains, verifyChain_ok_iff_domains, hempty]
    simp only [hsame]
  · intro init hne hp hok
    obtain ⟨-, hchains⟩ := (verifyChain_ok_iff_domains P entries).mp hok
    refine (verifyChain_ok_iff_domains P init).mpr ⟨hne, fun d => ?_⟩
    exact (hchains d).of_initial (ofDomain_initial hp d)

end ZeroSecret.Audit
