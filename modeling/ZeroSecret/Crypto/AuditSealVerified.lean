import ZeroSecret.Base.Fallible
import ZeroSecret.Crypto.AuditSealRoundTrip

/-!
# What `audit_seal::verify` accepts

The chain of checks of `verify` as one condition on the parsed document. The
octets enter in three ways only: their number, the document they are read as,
and the comparison with the canonical form of that document.
-/

namespace ZeroSecret.Crypto.AuditSeal

open Fallible (bind_eq_ok_iff)

/-- The checks of `verify` that look at the document, and what is reported of
it. -/
structure Accepts (P : Primitives) (keys : List AcceptedVerifyingKey) (policy : AcceptancePolicy)
    (doc : WireDocument) (event : VerifiedAuditEvent) : Prop where
  version : doc.schemaVersion = 1
  accepted : suiteV1 ∈ policy.acceptedSuites
  eventType : EventType.fromContractStr doc.eventType = some event.eventType
  kind : ∃ k, ActorKind.fromContractStr doc.actor.kind = some k
  outcome : ∃ o, Outcome.fromContractStr doc.outcome = some o
  coupled : (event.eventType.requiresDecision == doc.decision.isSome) = true
  decision : checkWireDecision doc.decision = .ok ()
  signature : ∃ keyId value key sig, doc.signature = wireSignature keyId value ∧
    keys.find? (fun k => k.keyId == keyId) = some key ∧ hexDecode value = some sig ∧
    P.ecdsaP256Sha256Fixed key.raw
      (signedMessage domainPrefixV1 (unsignedDocumentFromWire doc)) sig = true
  domain : doc.authorityDomain = policy.expectedAuthorityDomain
  prevHash : hexDecode doc.prevHash = some event.prevHash.val
  reported : event.eventId = doc.eventId ∧ event.sequence = doc.sequence ∧
    event.occurredAt = doc.occurredAt ∧ event.authorityDomain = doc.authorityDomain

section Steps

variable {α β : Type}

theorem guardThat_bind_iff {b : Bool} {e : VerifyError} {g : Unit → Except VerifyError β}
    {r : β} : (guardThat b e >>= g) = .ok r ↔ b = true ∧ g () = .ok r := by
  cases b <;> simp [guardThat, Fallible.ok_bind]

theorem orMalformed_bind_iff {o : Option α} {g : α → Except VerifyError β} {r : β} :
    (orMalformed o >>= g) = .ok r ↔ ∃ a, o = some a ∧ g a = .ok r := by
  cases o <;> simp [orMalformed, Fallible.ok_bind]

end Steps

theorem requiredComponents_eq_ok_iff {suite : String} {wanted : List String} :
    requiredComponents suite = .ok wanted ↔ suite = suiteV1 ∧ wanted = requiredComponentsV1 := by
  unfold requiredComponents
  by_cases h : suite = suiteV1
  · rw [if_pos h, Except.ok.injEq]
    exact ⟨fun e => ⟨h, e.symm⟩, fun e => e.2.symm⟩
  · rw [if_neg h]
    exact ⟨fun e => (by cases e), fun e => absurd e.1 h⟩

/-- The arity test leaves one component, the one `v1` prescribes. -/
theorem arity_iff {components : List WireSignatureComponent} :
    (components.length == requiredComponentsV1.length &&
      (components.zip requiredComponentsV1).all fun p => p.1.component == p.2) = true ↔
    ∃ keyId value, components = [⟨"ecdsa-p256", keyId, value⟩] := by
  constructor
  · intro h
    match components, h with
    | [⟨name, keyId, value⟩], h =>
        have hname : name = "ecdsa-p256" := by
          simpa [requiredComponentsV1] using h
        exact ⟨keyId, value, by rw [hname]⟩
  · rintro ⟨keyId, value, rfl⟩
    rfl

theorem toDigest_eq_ok_iff {bytes : Bytes} {d : Digest} :
    toDigest bytes = .ok d ↔ bytes = d.val := by
  constructor
  · intro h
    unfold toDigest at h
    split at h
    · rw [← Except.ok.inj h]
    · cases h
  · rintro rfl
    exact toDigest_val d

/-- The loop over a single component. -/
theorem verifyComponents_single_iff {P : Primitives} {keys : List AcceptedVerifyingKey}
    {message : Bytes} {c : WireSignatureComponent} :
    verifyComponents P keys message [c] true = .ok true ↔
    ∃ key sig, keys.find? (fun k => k.keyId == c.keyId) = some key ∧
      hexDecode c.value = some sig ∧ P.ecdsaP256Sha256Fixed key.raw message sig = true := by
  unfold verifyComponents
  cases hk : keys.find? (fun k => k.keyId == c.keyId) with
  | none => simp
  | some key =>
      cases hv : hexDecode c.value with
      | none => simp
      | some sig => simp [verifyComponents]

/-- **`verify` accepts exactly the canonical octets of an accepted
document.** -/
theorem verify_eq_ok_iff {P : Primitives} {keys : List AcceptedVerifyingKey} {bytes : Bytes}
    {policy : AcceptancePolicy} {event : VerifiedAuditEvent} :
    verify P keys bytes policy = .ok event ↔
    bytes.length ≤ maxBytes ∧ ∃ doc, WireDocument.fromSlice bytes = some doc ∧
      canonicalBytes (.obj (wireMembers doc)) = bytes ∧ Accepts P keys policy doc event := by
  constructor
  · intro h
    unfold verify at h
    obtain ⟨hsize, h⟩ := guardThat_bind_iff.mp h
    obtain ⟨doc, hdoc, h⟩ := orMalformed_bind_iff.mp h
    obtain ⟨hversion, h⟩ := guardThat_bind_iff.mp h
    obtain ⟨haccepted, h⟩ := guardThat_bind_iff.mp h
    obtain ⟨eventType, htype, h⟩ := orMalformed_bind_iff.mp h
    obtain ⟨k, hkind, h⟩ := orMalformed_bind_iff.mp h
    obtain ⟨o, houtcome, h⟩ := orMalformed_bind_iff.mp h
    obtain ⟨hcoupled, h⟩ := guardThat_bind_iff.mp h
    obtain ⟨u, hdecision, h⟩ := bind_eq_ok_iff.mp h
    obtain ⟨wanted, hwanted, h⟩ := bind_eq_ok_iff.mp h
    obtain ⟨hsuite, rfl⟩ := requiredComponents_eq_ok_iff.mp hwanted
    obtain ⟨harity, h⟩ := guardThat_bind_iff.mp h
    obtain ⟨keyId, value, hcomponents⟩ := arity_iff.mp harity
    obtain ⟨hcanonical, h⟩ := guardThat_bind_iff.mp h
    obtain ⟨domainPrefix, hprefix, h⟩ := bind_eq_ok_iff.mp h
    obtain ⟨allValid, hall, h⟩ := bind_eq_ok_iff.mp h
    obtain ⟨hvalid, h⟩ := guardThat_bind_iff.mp h
    obtain ⟨hdomain, h⟩ := guardThat_bind_iff.mp h
    obtain ⟨prevBytes, hprev, h⟩ := orMalformed_bind_iff.mp h
    obtain ⟨prevHash, hdigest, h⟩ := bind_eq_ok_iff.mp h
    have hsig : doc.signature = wireSignature keyId value := by
      cases hs : doc.signature with
      | mk suite components =>
          rw [hs] at hsuite hcomponents
          subst hsuite hcomponents
          rfl
    have hpre : domainPrefix = domainPrefixV1 := by
      rw [domainPrefixFor, if_pos hsuite] at hprefix
      exact (Except.ok.inj hprefix).symm
    rw [hcomponents, hvalid, hpre] at hall
    obtain ⟨key, sig, hkey, hdecode, hecdsa⟩ := verifyComponents_single_iff.mp hall
    rw [toDigest_eq_ok_iff.mp hdigest] at hprev
    rw [hsuite] at haccepted
    obtain rfl := Except.ok.inj h
    refine ⟨of_decide_eq_true hsize, doc, hdoc, eq_of_beq hcanonical, ?_⟩
    exact {
      version := eq_of_beq hversion
      accepted := List.mem_of_elem_eq_true haccepted
      eventType := htype
      kind := ⟨k, hkind⟩
      outcome := ⟨o, houtcome⟩
      coupled := hcoupled
      decision := hdecision
      signature := ⟨keyId, value, key, sig, hsig, hkey, hdecode, hecdsa⟩
      domain := eq_of_beq hdomain
      prevHash := hprev
      reported := ⟨rfl, rfl, rfl, rfl⟩ }
  · rintro ⟨hsize, doc, hdoc, hcanonical, hacc⟩
    obtain ⟨keyId, value, key, sig, hsig, hkey, hdecode, hecdsa⟩ := hacc.signature
    obtain ⟨k, hkind⟩ := hacc.kind
    obtain ⟨o, houtcome⟩ := hacc.outcome
    have hall : verifyComponents P keys
        (signedMessage domainPrefixV1 (unsignedDocumentFromWire doc))
        doc.signature.components true = .ok true := by
      rw [hsig]
      exact verifyComponents_single_iff.mpr ⟨key, sig, hkey, hdecode, hecdsa⟩
    have hsuite : doc.signature.suite = suiteV1 := by rw [hsig]; rfl
    refine guardThat_bind_iff.mpr ⟨decide_eq_true hsize, ?_⟩
    refine orMalformed_bind_iff.mpr ⟨doc, hdoc, ?_⟩
    refine guardThat_bind_iff.mpr ⟨by rw [hacc.version]; rfl, ?_⟩
    refine guardThat_bind_iff.mpr ⟨by rw [hsuite]; exact List.elem_eq_true_of_mem hacc.accepted, ?_⟩
    refine orMalformed_bind_iff.mpr ⟨event.eventType, hacc.eventType, ?_⟩
    refine orMalformed_bind_iff.mpr ⟨k, hkind, ?_⟩
    refine orMalformed_bind_iff.mpr ⟨o, houtcome, ?_⟩
    refine guardThat_bind_iff.mpr ⟨hacc.coupled, ?_⟩
    refine bind_eq_ok_iff.mpr ⟨(), hacc.decision, ?_⟩
    refine bind_eq_ok_iff.mpr ⟨_, requiredComponents_eq_ok_iff.mpr ⟨hsuite, rfl⟩, ?_⟩
    refine guardThat_bind_iff.mpr ⟨arity_iff.mpr ⟨keyId, value, by rw [hsig]; rfl⟩, ?_⟩
    refine guardThat_bind_iff.mpr ⟨beq_iff_eq.mpr hcanonical, ?_⟩
    refine bind_eq_ok_iff.mpr ⟨domainPrefixV1, by rw [domainPrefixFor, if_pos hsuite], ?_⟩
    refine bind_eq_ok_iff.mpr ⟨true, hall, ?_⟩
    refine guardThat_bind_iff.mpr ⟨rfl, ?_⟩
    refine guardThat_bind_iff.mpr ⟨beq_iff_eq.mpr hacc.domain, ?_⟩
    refine orMalformed_bind_iff.mpr ⟨event.prevHash.val, hacc.prevHash, ?_⟩
    refine bind_eq_ok_iff.mpr ⟨event.prevHash, toDigest_val _, ?_⟩
    obtain ⟨hid, hseq, hat, hdom⟩ := hacc.reported
    rw [← hid, ← hseq, ← hat, ← hdom]

end ZeroSecret.Crypto.AuditSeal
