import ZeroSecret.Base.Fallible
import ZeroSecret.Base.KeyedLog
import ZeroSecret.Crypto.AuditSeal

/-!
# `zs-audit/src/chain.rs`: verification of a chain

The entries of all domains come in one list; the verifier keeps the last
position and the last octets of every domain. `u64` addition wraps, as in the
release profile.
-/

namespace ZeroSecret.Audit

open Crypto

def chainRoot : Digest := ⟨List.replicate 32 0, Bytes.length_zeros⟩

structure ChainEntry where
  authorityDomain : String
  sequence : UInt64
  prevHash : Digest
  sealedBytes : Bytes
deriving DecidableEq

inductive ChainError where
  | empty
  | invalidRoot (domain : String)
  | firstSequenceNotZero (domain : String) (found : UInt64)
  | sequenceGap (domain : String) (previous found : UInt64)
  | brokenLink (domain : String) (index : Nat)
deriving DecidableEq

def hashSealedEvent (P : Primitives) (sealedBytes : Bytes) : Digest := P.sha256 sealedBytes

/-- The checks on one entry, against the last one of its domain. -/
def checkEntry (P : Primitives) (last : Option (UInt64 × Bytes)) (index : Nat)
    (entry : ChainEntry) : Except ChainError Unit :=
  match last with
  | none =>
      if entry.prevHash ≠ chainRoot then .error (.invalidRoot entry.authorityDomain)
      else if entry.sequence ≠ 0 then
        .error (.firstSequenceNotZero entry.authorityDomain entry.sequence)
      else .ok ()
  | some (prevSequence, prevSealedBytes) =>
      if entry.sequence ≠ prevSequence + 1 then
        .error (.sequenceGap entry.authorityDomain prevSequence entry.sequence)
      else if entry.prevHash ≠ hashSealedEvent P prevSealedBytes then
        .error (.brokenLink entry.authorityDomain index)
      else .ok ()

/-- The loop: `lastByDomain` is the map, `index` the rank in the whole list. -/
def verifyChainFrom (P : Primitives) (lastByDomain : String → Option (UInt64 × Bytes))
    (index : Nat) : List ChainEntry → Except ChainError Unit
  | [] => .ok ()
  | entry :: entries => do
      checkEntry P (lastByDomain entry.authorityDomain) index entry
      verifyChainFrom P (Function.update lastByDomain entry.authorityDomain
        (some (entry.sequence, entry.sealedBytes))) (index + 1) entries

def verifyChain (P : Primitives) (entries : List ChainEntry) : Except ChainError Unit :=
  if entries.isEmpty then .error .empty
  else verifyChainFrom P (fun _ => none) 0 entries

/-! ## What it accepts -/

/-- `entry` may stand directly after `prev` in its domain. -/
def EntryFollows (P : Primitives) (prev : Option ChainEntry) (entry : ChainEntry) : Prop :=
  match prev with
  | none => entry.sequence = 0 ∧ entry.prevHash = chainRoot
  | some p => entry.sequence = p.sequence + 1 ∧
      entry.prevHash = hashSealedEvent P p.sealedBytes

/-- What the map keeps of an entry. -/
def ChainEntry.kept (e : ChainEntry) : UInt64 × Bytes := (e.sequence, e.sealedBytes)

theorem checkEntry_eq_ok_iff (P : Primitives) (prev : Option ChainEntry) (entry : ChainEntry)
    (index : Nat) :
    checkEntry P (prev.map ChainEntry.kept) index entry = .ok () ↔
      EntryFollows P prev entry := by
  cases prev with
  | none =>
      unfold checkEntry EntryFollows
      by_cases hp : entry.prevHash = chainRoot
      · by_cases hs : entry.sequence = 0
        · simp [hp, hs]
        · simp [hp, hs]
      · simp [hp]
  | some p =>
      unfold checkEntry EntryFollows
      by_cases hs : entry.sequence = p.sequence + 1
      · by_cases hp : entry.prevHash = hashSealedEvent P p.sealedBytes
        · simp [ChainEntry.kept, hp, hs]
        · simp [ChainEntry.kept, hp, hs]
      · simp [ChainEntry.kept, hs]

/-- The loop goes through exactly when every domain's entries follow the one
the map holds for it. -/
theorem verifyChainFrom_ok_iff (P : Primitives) (last : String → Option ChainEntry)
    (entries : List ChainEntry) (index : Nat) :
    verifyChainFrom P (fun d => (last d).map ChainEntry.kept) index entries = .ok () ↔
      ∀ d, KeyedLog.LinkedFrom (EntryFollows P) (last d)
        (KeyedLog.ofKey ChainEntry.authorityDomain entries d) := by
  induction entries generalizing last index with
  | nil => exact ⟨fun _ _ => trivial, fun _ => rfl⟩
  | cons e entries ih =>
      have hmap : Function.update (fun d => (last d).map ChainEntry.kept) e.authorityDomain
          (some (e.sequence, e.sealedBytes)) =
          fun d => (Function.update last e.authorityDomain (some e) d).map
            ChainEntry.kept := by
        funext d
        by_cases hd : d = e.authorityDomain
        · subst hd
          simp [ChainEntry.kept]
        · rw [Function.update_of_ne hd, Function.update_of_ne hd]
      rw [verifyChainFrom, hmap, Fallible.bind_eq_ok_iff]
      constructor
      · rintro ⟨u, he, hrest⟩ d
        have hnext := (ih _ _).mp hrest d
        by_cases hd : e.authorityDomain = d
        · subst hd
          rw [KeyedLog.ofKey_cons_self]
          rw [Function.update_self] at hnext
          exact ⟨(checkEntry_eq_ok_iff P _ e index).mp he, hnext⟩
        · rw [KeyedLog.ofKey_cons_other _ hd]
          rwa [Function.update_of_ne (Ne.symm hd)] at hnext
      · intro h
        have he := h e.authorityDomain
        rw [KeyedLog.ofKey_cons_self] at he
        refine ⟨(), (checkEntry_eq_ok_iff P _ e index).mpr he.1, (ih _ _).mpr ?_⟩
        intro d
        by_cases hd : e.authorityDomain = d
        · subst hd
          rw [Function.update_self]
          exact he.2
        · rw [Function.update_of_ne (Ne.symm hd)]
          have hrest := h d
          rwa [KeyedLog.ofKey_cons_other _ hd] at hrest

/-- **A list is accepted exactly when it is not empty and its domains are
linked chains.** -/
theorem verifyChain_ok_iff (P : Primitives) (entries : List ChainEntry) :
    verifyChain P entries = .ok () ↔
      entries ≠ [] ∧ KeyedLog.Linked ChainEntry.authorityDomain (EntryFollows P) entries := by
  unfold verifyChain
  by_cases hne : entries = []
  · subst hne
    simp
  · have hempty : ¬ entries.isEmpty = true := by simpa using hne
    rw [if_neg hempty]
    constructor
    · intro h
      exact ⟨hne, (verifyChainFrom_ok_iff P (fun _ => none) entries 0).mp h⟩
    · rintro ⟨-, h⟩
      exact (verifyChainFrom_ok_iff P (fun _ => none) entries 0).mpr h

end ZeroSecret.Audit
