import ZeroSecret.Access.SelfApproval
import ZeroSecret.Admin.QuorumTrace
import ZeroSecret.Crypto.IdentityAssertionRoundTrip
import ZeroSecret.Issuance.Binding
import ZeroSecret.Policy.Loading
import ZeroSecret.Policy.Reasons

/-!
# The trace of an access decision

A decision of the PDP is reported to audit-collector by the broker, a lease by
the issuer. Both log a refusal and go on. The broker copies the texts of the
request as they are, and the PDP repeats two of them in its reasons; the sealer
wants printable ASCII of a bounded length, and no empty text.
-/

namespace ZeroSecret.Access

open Admin (Traced)
open Audit Crypto Issuance Policy Interleave
open Crypto.IdentityAssertion (AcceptedVerifyingKey AssertionClaims AssertionSealer
  SealedAssertion VerifyError)

/-! ## `apps/identity-provider`: the verification service -/

def verifyErrorReason : VerifyError → String
  | .unknownSuite => "suite_inconnue"
  | .malformedKey => "cle_malformee"
  | .tooLarge => "taille_excessive"
  | .malformedDocument => "document_malforme"
  | .nonCanonical => "non_canonique"
  | .invalidSignatureArity => "arite_signature_incorrecte"
  | .unknownKeyId => "identifiant_de_cle_inconnu"
  | .invalidSignature => "signature_invalide"
  | .unexpectedAuthorityDomain => "domaine_dautorite_inattendu"
  | .notYetValidOrExpired => "expiree_ou_pas_encore_valide"

/-- `AssertionVerifier::verify_assertion` at the instant `now`. -/
def verifyAssertion (P : Primitives) (key : AcceptedVerifyingKey) (now : Timestamp)
    (assertion : Bytes) (expectedAuthorityDomain : String) : VerifyAssertionResponse :=
  match IdentityAssertion.verify P [key] assertion
    ⟨[IdentityAssertion.suiteV1], now, expectedAuthorityDomain⟩ with
  | .ok verified => ⟨true, "", verified.subjectId, verified.aal, verified.authMethod⟩
  | .error e => ⟨false, verifyErrorReason e, "", "", ""⟩

/-- Some claims were sealed to these octets. -/
def SealedByProvider (P : Primitives) (assertion : Bytes) : Prop :=
  ∃ (sealer : AssertionSealer) (hsm : AuditSeal.HsmAnswer) (claims : AssertionClaims),
    sealer.seal P hsm claims = .ok ⟨assertion⟩

/-- What is said of a subject fits the fields of an actor. -/
structure Identified (resp : VerifyAssertionResponse) : Prop where
  subjectId : BoundedAsciiOk 256 resp.subjectId
  aal : ∃ a, assuranceLevelFromStr resp.aal = some a
  authMethod : BoundedAsciiOk 64 resp.authMethod

theorem assuranceLevelFromStr_asStr (a : AssuranceLevel) :
    assuranceLevelFromStr a.asStr = some a := by
  cases a with
  | aal1 => rfl
  | aal2 => rfl
  | aal3 => rfl

/-- A sealed assertion that is valid names its own claims. -/
theorem identified_of_sealed {P : Primitives} {key : AcceptedVerifyingKey} {now : Timestamp}
    {assertion : Bytes} {domain : String} (hsealed : SealedByProvider P assertion)
    (hvalid : (verifyAssertion P key now assertion domain).valid = true) :
    Identified (verifyAssertion P key now assertion domain) := by
  obtain ⟨sealer, hsm, claims, hseal⟩ := hsealed
  obtain ⟨signature, hread⟩ := IdentityAssertion.fromSlice_of_seal hseal
  unfold verifyAssertion at hvalid ⊢
  cases hv : IdentityAssertion.verify P [key] assertion
      ⟨[IdentityAssertion.suiteV1], now, domain⟩ with
  | error e =>
      rw [hv] at hvalid
      cases hvalid
  | ok verified =>
      obtain ⟨-, doc, hdoc, -, haccepts⟩ := IdentityAssertion.verify_eq_ok_iff.mp hv
      obtain rfl := Option.some.inj (hread.symm.trans hdoc)
      obtain rfl := haccepts.reported
      exact ⟨claims.subjectId.ok, ⟨claims.aal, assuranceLevelFromStr_asStr claims.aal⟩,
        claims.authMethod.ok⟩

/-! ## Which events are admissible -/

theorem optionalString_eq_some {s t : String} : optionalString s = some t ↔ s ≠ "" ∧ t = s := by
  unfold optionalString
  by_cases h : s = ""
  · rw [if_pos h]
    constructor
    · intro heq
      cases heq
    · rintro ⟨hne, -⟩
      exact absurd h hne
  · rw [if_neg h, Option.some.injEq]
    exact ⟨fun heq => ⟨h, heq.symm⟩, fun heq => heq.2.symm⟩

theorem forall_optionalString {s : String} {p : String → Prop} :
    (∀ t, optionalString s = some t → p t) ↔ (s ≠ "" → p s) := by
  simp only [optionalString_eq_some, and_imp, forall_eq_apply_imp_iff]

/-- A response of the PDP, but for its reasons, fits the fields of a decision. -/
structure WellSealed (resp : DecisionResponse) : Prop where
  decisionHash : resp.decisionHash.length = 32
  policyVersion : BoundedAsciiOk 256 resp.policyVersion
  keyId : BoundedAsciiOk 256 resp.decisionSignatureKeyId
  signature : resp.decisionSignature.length ≤ 64

theorem actor_admissible {resp : VerifyAssertionResponse} (h : Identified resp) :
    ProtoActor.Admissible ⟨resp.subjectId, "human", optionalString resp.aal,
      optionalString resp.authMethod⟩ where
  kind := ⟨_, rfl⟩
  aal := forall_optionalString.mpr fun _ => h.aal
  authMethod := forall_optionalString.mpr fun _ => h.authMethod
  subjectId := h.subjectId

/-- The decision both events copy from a response. -/
def protoDecision (requestId : String) (resp : DecisionResponse) (ttl : Option UInt32) :
    ProtoDecision where
  requestId := requestId
  decisionHash := resp.decisionHash
  policyVersion := resp.policyVersion
  reasons := resp.reasons
  grantedTtlSeconds := ttl
  decisionSignature := (optionalSignature resp.decisionSignature resp.decisionSignatureKeyId).1
  decisionSignatureKeyId :=
    (optionalSignature resp.decisionSignature resp.decisionSignatureKeyId).2

section Decision

variable {requestId : String} {resp : DecisionResponse} {ttl : Option UInt32}
  (hid : uuidValid false (octets requestId) = true) (h : WellSealed resp)

include hid h

/-- Of a response only the reasons can be inadmissible. -/
theorem protoDecision_admissible_iff : (protoDecision requestId resp ttl).Admissible ↔
    ∀ reason ∈ resp.reasons, BoundedAsciiOk 256 reason := by
  constructor
  · intro hadmissible
    exact hadmissible.reasons
  · intro hreasons
    refine ⟨h.decisionHash, hreasons, hid, h.policyVersion, ?_⟩
    intro s hs
    change (optionalSignature _ _).2 = some s at hs
    unfold optionalSignature at hs
    split at hs
    · obtain rfl := Option.some.inj hs
      exact h.keyId
    · cases hs

end Decision

theorem protoDecision_signature {requestId : String} {resp : DecisionResponse}
    {ttl : Option UInt32} {sig : Bytes}
    (h : (protoDecision requestId resp ttl).decisionSignature = some sig) :
    sig = resp.decisionSignature := by
  change (optionalSignature _ _).1 = some sig at h
  unfold optionalSignature at h
  split at h
  · exact (Option.some.inj h).symm
  · cases h

/-- Two types of event require a decision. -/
theorem short_of_decision {raw : RawEvent} {requestId : String} {resp : DecisionResponse}
    {ttl : Option UInt32} (htype : raw.eventType = "policy.decided" ∨
      raw.eventType = "credential.issued")
    (hdecision : raw.decision = some (protoDecision requestId resp ttl)) (h : WellSealed resp)
    (hreasons : resp.reasons.length ≤ 4) : raw.Short := by
  refine ⟨?_, ?_, ?_⟩
  · intro t ht
    rw [hdecision]
    rcases htype with htype | htype
    · rw [htype] at ht
      obtain rfl := Option.some.inj ht
      rfl
    · rw [htype] at ht
      obtain rfl := Option.some.inj ht
      rfl
  · intro d hd
    obtain rfl := Option.some.inj (hdecision.symm.trans hd)
    exact hreasons
  · intro d sig hd hsig
    obtain rfl := Option.some.inj (hdecision.symm.trans hd)
    rw [protoDecision_signature hsig]
    exact h.signature

/-- The texts of a body that are copied to an event fit its fields. -/
structure TextsFit (body : AccessRequestBody) : Prop where
  authorityDomain : BoundedAsciiOk 128 body.expectedAuthorityDomain
  resourceType : BoundedAsciiOk 256 body.resource.type
  resourceId : BoundedAsciiOk 256 body.resource.id
  sourceNetwork : ∀ s, body.sourceNetwork = some s → s ≠ "" → BoundedAsciiOk 256 s
  ticketRef : body.ticketRef ≠ "" → BoundedAsciiOk 256 body.ticketRef
  justification : body.justification ≠ "" → BoundedAsciiOk 512 body.justification

section Events

variable {requestId : String} {body : AccessRequestBody} {requester : VerifyAssertionResponse}
  {resp : DecisionResponse} {allowed : Bool}

theorem policyDecided_admissible_iff (hid : uuidValid false (octets requestId) = true)
    (hrequester : Identified requester) (hresp : WellSealed resp) :
    (policyDecidedEvent requestId body requester allowed resp).Admissible ↔
      TextsFit body ∧ ∀ reason ∈ resp.reasons, BoundedAsciiOk 256 reason := by
  have hdecision := @protoDecision_admissible_iff requestId resp (grantedTtl resp.maxTtl) hid hresp
  constructor
  · intro h
    have htarget := h.target _ rfl
    have hcontext := h.context _ rfl
    refine ⟨⟨h.authorityDomain, htarget.type, htarget.id, ?_, ?_, ?_⟩,
      hdecision.mp (h.decision _ rfl)⟩
    · intro s hs hne
      refine hcontext.sourceNetwork s ?_
      change optionalStringPtr body.sourceNetwork = some s
      rw [hs]
      exact optionalString_eq_some.mpr ⟨hne, rfl⟩
    · exact forall_optionalString.mp hcontext.ticketRef
    · exact forall_optionalString.mp hcontext.justification
  · rintro ⟨htexts, hreasons⟩
    refine ⟨⟨_, rfl⟩, ?_, ⟨_, rfl, actor_admissible hrequester⟩, ?_, ?_, ?_,
      htexts.authorityDomain⟩
    · cases allowed with
      | false => exact ⟨_, rfl⟩
      | true => exact ⟨_, rfl⟩
    · intro t ht
      obtain rfl := Option.some.inj ht
      exact ⟨htexts.resourceType, htexts.resourceId⟩
    · intro c hc
      obtain rfl := Option.some.inj hc
      refine ⟨?_, forall_optionalString.mpr htexts.ticketRef,
        forall_optionalString.mpr htexts.justification⟩
      intro s hs
      obtain ⟨t, ht, hs⟩ := Option.bind_eq_some_iff.mp hs
      obtain ⟨hne, rfl⟩ := optionalString_eq_some.mp hs
      exact htexts.sourceNetwork s ht hne
    · intro d hd
      obtain rfl := Option.some.inj hd
      exact hdecision.mpr hreasons

theorem getD_optionalString (s : String) : (optionalString s).getD "" = s := by
  unfold optionalString
  split
  · rename_i h
    exact h.symm
  · rfl

/-- The event of a lease repeats the texts of the event of its decision, under
the domain of the resource. -/
theorem credentialIssued_admissible {eventId : String} {lease : Lease}
    (hid : uuidValid false (octets requestId) = true) (hrequester : Identified requester)
    (hresp : WellSealed resp) (htexts : TextsFit body)
    (hreasons : ∀ reason ∈ resp.reasons, BoundedAsciiOk 256 reason)
    (hdomain : body.expectedAuthorityDomain = body.resource.authorityDomain) :
    (credentialIssuedEvent body.resource.authorityDomain body.resource.type body.resource.id
      (issuedEvent (emissionOrder requestId body requester resp) resp eventId lease)).Admissible := by
  refine ⟨⟨_, rfl⟩, ⟨_, rfl⟩, ⟨_, rfl, ?_⟩, ?_, ?_, ?_, hdomain ▸ htexts.authorityDomain⟩
  · have hactor := actor_admissible hrequester
    rw [← getD_optionalString requester.aal, ← getD_optionalString requester.authMethod] at hactor
    exact hactor
  · intro t ht
    obtain rfl := Option.some.inj ht
    exact ⟨htexts.resourceType, htexts.resourceId⟩
  · intro c hc
    cases hc
  · intro d hd
    obtain rfl := Option.some.inj hd
    exact (protoDecision_admissible_iff hid hresp).mpr hreasons

end Events

/-! ## The platform -/

/-- access-broker, credential-issuer and audit-collector around one trail, on
the shipped corpus. The version is the digest of the corpus, the HSM signs in
64 octets, an assertion is verified by identity-provider and an order is run by
the issuer. -/
structure Platform where
  primitives : Primitives
  message : ErrorText
  corpusDigest : Digest
  decisionKey : Bytes
  call : DecideCall
  signs : ∀ digest, (call.sign digest).length = 64
  assertionKey : AcceptedVerifyingKey
  identityClient : Bytes → String → Except String VerifyAssertionResponse
  verifies : ∀ assertion domain resp, identityClient assertion domain = .ok resp →
    ∃ now, resp = verifyAssertion primitives assertionKey now assertion domain
  emission : EmissionOrder → Except String Issuance.Result
  emits : ∀ order, ∃ acts, Performs (Issuer.emit order) acts (.ret (emission order))
  auditKey : Bytes
  services : Nat → Services

namespace Platform

variable (p : Platform)

def record : RawEvent → Trail → Except String RecordResult × Trail :=
  Trail.record p.primitives (.ofPublicKey p.primitives p.auditKey) p.services

def issuance : Issuance.API Trail := ⟨fun order s => (p.emission order, s), p.record⟩

/-- The version `Pdp::load` gives the corpus. -/
def policyVersion : String := toHexString ⟨DecisionBinding.suiteV1, p.corpusDigest⟩

def deployment : Deployment Trail where
  primitives := p.primitives
  message := p.message
  policyVersion := p.policyVersion
  sealer := .ofPublicKey p.primitives p.decisionKey
  verifyingKey := ⟨keyIdFromPublicKey p.primitives p.decisionKey, p.decisionKey⟩
  call := .ok p.call
  identityClient := p.identityClient
  credentialClient := p.issuance.emit
  auditClient := p.record

def pdp : Pdp := .shipped p.message p.policyVersion

/-- What the PDP answers before it seals. -/
def evaluated (r : DecisionRequest) : DecisionResponse :=
  p.pdp.decide p.primitives p.call.order r

/-- What the PDP is asked. -/
def asked (draw : Draw) (body : AccessRequestBody) (requester : VerifyAssertionResponse)
    (requestId : String) : DecisionRequest :=
  p.deployment.broker.pdpRequest draw.requestedAt
    (accessRequest requestId draw.authenticatedAt body requester)

/-- The event of a lease, when one is issued. -/
def leaseEvents (order : EmissionOrder) : List RawEvent :=
  match p.emission order with
  | .error _ => []
  | .ok result =>
      if result.allowed then
        [credentialIssuedEvent order.authorityDomain order.resourceType order.resourceId
          result.event]
      else []

/-- The events of a decision, in the order they are sent. -/
def events (requestId : String) (body : AccessRequestBody) (requester : VerifyAssertionResponse)
    (resp : DecisionResponse) : List RawEvent :=
  policyDecidedEvent requestId body requester (Broker.Decision.ofResponse resp).allowed resp ::
    if (Broker.Decision.ofResponse resp).allowed then
      p.leaseEvents (emissionOrder requestId body requester resp)
    else []

/-- The request reaches the PDP, whose answer is `resp`. -/
structure Consults (draw : Draw) (assertion : Bytes) (body : AccessRequestBody)
    (requester : VerifyAssertionResponse) (requestId : String) (resp : DecisionResponse) :
    Prop where
  identity : p.identityClient assertion body.expectedAuthorityDomain = .ok requester
  valid : requester.valid = true
  drawn : draw.newV7 = .ok requestId
  decided : ∃ d, p.deployment.broker.decide draw.requestedAt
    (accessRequest requestId draw.authenticatedAt body requester) = .ok d ∧ d.signed = some resp

variable {p} {draw : Draw} {assertion : Bytes} {body : AccessRequestBody}
  {requester : VerifyAssertionResponse} {requestId : String} {resp : DecisionResponse} {s : Trail}

theorem issuance_emit_state (order : EmissionOrder) :
    (p.issuance.emit order s).2 =
      s.recordAll p.primitives (.ofPublicKey p.primitives p.auditKey) p.services
        (p.leaseEvents order) := by
  have hissuer : p.issuance.issuer order s = (p.emission order, s) := rfl
  unfold Issuance.API.emit leaseEvents
  rw [hissuer]
  cases p.emission order with
  | error e => rfl
  | ok result =>
      by_cases hallowed : result.allowed = true
      · simp only [hallowed, if_true]
        rfl
      · simp only [hallowed]
        rfl

/-- **What a consulted request leaves behind**: its events, sent one after the
other. -/
theorem Consults.state (h : p.Consults draw assertion body requester requestId resp) :
    (p.deployment.api.createAccessRequest draw assertion (some body) s).2 =
      s.recordAll p.primitives (.ofPublicKey p.primitives p.auditKey) p.services
        (p.events requestId body requester resp) := by
  obtain ⟨d, hd⟩ := h.decided
  obtain ⟨-, -, rfl⟩ := Broker.decide_signed_iff.mp hd
  have hidentity : p.deployment.api.broker.identityClient assertion body.expectedAuthorityDomain =
      .ok requester := h.identity
  have hdecide : p.deployment.api.broker.decide draw.requestedAt
      (accessRequest requestId draw.authenticatedAt body requester) =
      .ok (.ofResponse resp) := hd.1
  simp only [API.createAccessRequest, API.handle, hidentity, h.valid, Bool.not_true,
    Bool.false_eq_true, if_false, h.drawn, hdecide]
  simp only [API.respond, events]
  by_cases hallowed : (Broker.Decision.ofResponse resp).allowed = true
  · have hsigned : (Broker.Decision.ofResponse resp).signed = some resp := rfl
    simp only [hallowed, hsigned, if_true]
    exact issuance_emit_state _
  · have hsigned : (Broker.Decision.ofResponse resp).signed = some resp := rfl
    simp only [hallowed, hsigned]
    rfl

/-! ## The trace -/

/-- The texts of a body that end in a sealed field fit there: those that are
copied, and those the PDP repeats in a reason. -/
structure Recordable (message : ErrorText) (body : AccessRequestBody) : Prop where
  texts : TextsFit body
  reasons : ReasonsFit message ⟨body.resource.type, body.resource.id,
    body.resource.authorityDomain, attributesOrEmpty body.resource.attributes⟩ body.verb

/-- The version of a corpus fits in the event: the suite, a colon, and the digest in hexadecimal. -/
theorem policyVersion_fits (p : Platform) : BoundedAsciiOk 256 p.policyVersion := by
  have hsuite : ∀ b ∈ octets (DecisionBinding.suiteV1 ++ ":"), isPrintable b = true := by decide
  have hlength : (octets (DecisionBinding.suiteV1 ++ ":")).length = 20 := by decide
  have hoctets : octets p.policyVersion =
      octets (DecisionBinding.suiteV1 ++ ":") ++ octets (hexEncode p.corpusDigest.val) :=
    DecisionBinding.octets_append _ _
  have hsize : (octets p.policyVersion).length = 84 := by
    rw [hoctets, List.length_append, hlength, hexEncode_size, p.corpusDigest.property]
  refine ⟨?_, by omega, ?_⟩
  · intro hempty
    rw [hempty] at hsize
    cases hsize
  · intro b hb
    rw [hoctets] at hb
    rcases List.mem_append.mp hb with hb | hb
    · exact hsuite b hb
    · exact hexEncode_printable _ b hb

/-- The requester is the subject of a sealed assertion. -/
theorem Consults.identified (h : p.Consults draw assertion body requester requestId resp)
    (hsealed : SealedByProvider p.primitives assertion) : Identified requester := by
  obtain ⟨now, rfl⟩ := p.verifies _ _ _ h.identity
  exact identified_of_sealed hsealed h.valid

theorem policyClient_eq (dep : Deployment Trail) (r : DecisionRequest) :
    dep.broker.policyClient r = dep.engine.serve dep.primitives dep.call r := rfl

/-- The response is the sealed decision of the shipped PDP. -/
theorem Consults.response (h : p.Consults draw assertion body requester requestId resp) :
    ∃ digest, resp = { p.evaluated (p.asked draw body requester requestId) with
      issuedAt := some ⟨requestTimeFromRfc3339 (Policy.rfc3339FromSeconds p.call.now), 0⟩
      decisionSignature := p.call.sign digest
      decisionSignatureKeyId := keyIdFromPublicKey p.primitives p.decisionKey } := by
  obtain ⟨d, hd⟩ := h.decided
  obtain ⟨-, hresp, -⟩ := Broker.decide_signed_iff.mp hd
  obtain ⟨digest, hserve⟩ := PolicyEngine.serve_ok p.primitives p.deployment.engine p.call
    (p.asked draw body requester requestId)
  have hpdp : p.deployment.engine.pdp = p.pdp := rfl
  have hkey : p.deployment.engine.sealer.keyId =
      keyIdFromPublicKey p.primitives p.decisionKey := rfl
  have hcall : p.deployment.call = .ok p.call := rfl
  have hprimitives : p.deployment.primitives = p.primitives := rfl
  rw [hpdp, hkey] at hserve
  rw [policyClient_eq, hcall, hprimitives, ← asked, hserve] at hresp
  exact ⟨digest, (Except.ok.inj hresp).symm⟩

theorem keyId_fits (P : Primitives) (publicKey : Bytes) :
    BoundedAsciiOk 256 (keyIdFromPublicKey P publicKey) := by
  obtain ⟨hprintable, hsize⟩ := AuditSeal.keyId_short P publicKey
  refine ⟨?_, by omega, hprintable⟩
  intro hempty
  rw [hempty] at hsize
  cases hsize

theorem Consults.wellSealed (h : p.Consults draw assertion body requester requestId resp) :
    WellSealed resp := by
  obtain ⟨digest, rfl⟩ := h.response
  have hhash : (p.evaluated (p.asked draw body requester requestId)).decisionHash =
      decisionHash p.primitives (p.asked draw body requester requestId) :=
    Pdp.decide_decisionHash
  have hversion : (p.evaluated (p.asked draw body requester requestId)).policyVersion =
      p.policyVersion := Pdp.decide_policyVersion
  refine ⟨?_, ?_, keyId_fits _ _, (p.signs digest).le⟩
  · rw [hhash]
    exact (DecisionBinding.bindRequest p.primitives _).digest.property
  · rw [hversion]
    exact policyVersion_fits p

/-- The request of the broker leaves nothing out. -/
theorem asked_filled : ∃ principal context, Filled (p.asked draw body requester requestId)
    principal ⟨body.resource.type, body.resource.id, body.resource.authorityDomain,
      attributesOrEmpty body.resource.attributes⟩ ⟨body.verb⟩ context := by
  refine ⟨_, _, rfl, rfl, rfl, rfl, rfl, ⟨_, rfl⟩, ⟨_, rfl⟩, ⟨_, _, rfl, rfl⟩, ?_⟩
  intro a ha
  exact Option.isSome_iff_exists.mp (Deployment.counted_approvedAt a ha)

theorem Consults.reasons_length (h : p.Consults draw assertion body requester requestId resp) :
    resp.reasons.length ≤ 4 := by
  obtain ⟨digest, rfl⟩ := h.response
  exact shipped_reasons_length _ _ _ _ _

theorem Consults.reasons_iff (h : p.Consults draw assertion body requester requestId resp) :
    (∀ reason ∈ resp.reasons, BoundedAsciiOk 256 reason) ↔
      ReasonsFit p.message ⟨body.resource.type, body.resource.id, body.resource.authorityDomain,
        attributesOrEmpty body.resource.attributes⟩ body.verb := by
  have hlength := h.reasons_length
  obtain ⟨digest, rfl⟩ := h.response
  obtain ⟨principal, context, hfilled⟩ := @asked_filled p draw body requester requestId
  rw [← hfilled.fewReasons_iff]
  exact ⟨fun hfit => ⟨hlength, hfit⟩, fun hfew => hfew.fit⟩

/-- What is allowed is under the domain of the request. -/
theorem Consults.domain (h : p.Consults draw assertion body requester requestId resp)
    (hallowed : (Broker.Decision.ofResponse resp).allowed = true) :
    body.expectedAuthorityDomain = body.resource.authorityDomain := by
  obtain ⟨digest, rfl⟩ := h.response
  have hallow : (p.evaluated (p.asked draw body requester requestId)).effect = effectAllow :=
    beq_iff_eq.mp hallowed
  obtain ⟨-, -, -, -, hdomain, -⟩ :=
    (shipped_allows_iff Deployment.counted_approvedAt).mp hallow
  exact hdomain

theorem uuidValid_of_v7 {bytes : Bytes} (h : uuidValid true bytes = true) :
    uuidValid false bytes = true := by
  unfold uuidValid at h ⊢
  rw [Bool.and_eq_true] at h
  rw [h.1]
  rfl

theorem mem_leaseEvents {order : EmissionOrder} {raw : RawEvent}
    (h : raw ∈ p.leaseEvents order) : ∃ d eventId lease, order.decision = some d ∧
      raw = credentialIssuedEvent order.authorityDomain order.resourceType order.resourceId
        (issuedEvent order d eventId lease) := by
  obtain ⟨acts, hacts⟩ := p.emits order
  have hcredited := (emit_returns order).of_performs hacts
  unfold leaseEvents at h
  cases hemission : p.emission order with
  | error e =>
      rw [hemission] at h
      cases h
  | ok result =>
      rw [hemission] at h hcredited
      dsimp only at h
      split at h
      · rename_i hallowed
        obtain ⟨d, eventId, lease, hd, -, hevent⟩ := hcredited hallowed
        rw [List.mem_singleton.mp h, hevent]
        exact ⟨d, eventId, lease, hd, rfl⟩
      · cases h

/-- **The events of a decision are admissible exactly** when the texts of the
request that end in a sealed field fit there. -/
theorem Consults.events_admissible_iff
    (h : p.Consults draw assertion body requester requestId resp)
    (hsealed : SealedByProvider p.primitives assertion)
    (hid : uuidValid true (octets requestId) = true) :
    (∀ raw ∈ p.events requestId body requester resp, raw.Admissible) ↔
      Recordable p.message body := by
  have hid' := uuidValid_of_v7 hid
  have hdecided := @policyDecided_admissible_iff requestId body requester resp
    (Broker.Decision.ofResponse resp).allowed hid' (h.identified hsealed) h.wellSealed
  rw [h.reasons_iff] at hdecided
  rw [events, List.forall_mem_cons, hdecided]
  constructor
  · rintro ⟨⟨htexts, hreasons⟩, -⟩
    exact ⟨htexts, hreasons⟩
  · rintro ⟨htexts, hreasons⟩
    refine ⟨⟨htexts, hreasons⟩, ?_⟩
    intro raw hraw
    split at hraw
    · rename_i hallowed
      obtain ⟨d, eventId, lease, hd, rfl⟩ := mem_leaseEvents hraw
      obtain rfl := Option.some.inj hd
      exact credentialIssued_admissible hid' (h.identified hsealed) h.wellSealed htexts
        (h.reasons_iff.mpr hreasons) (h.domain hallowed)
    · cases hraw

theorem Consults.events_short (h : p.Consults draw assertion body requester requestId resp) :
    ∀ raw ∈ p.events requestId body requester resp, raw.Short := by
  intro raw hraw
  rcases List.mem_cons.mp hraw with rfl | hraw
  · exact @short_of_decision _ requestId resp (grantedTtl resp.maxTtl) (Or.inl rfl) rfl
      h.wellSealed h.reasons_length
  · split at hraw
    · obtain ⟨d, eventId, lease, hd, rfl⟩ := mem_leaseEvents hraw
      obtain rfl := Option.some.inj hd
      exact @short_of_decision _ requestId resp (Issuance.grantedTtl (ttlSecondsOf resp))
        (Or.inr rfl) rfl h.wellSealed h.reasons_length
    · cases hraw

theorem events_length_le : (p.events requestId body requester resp).length ≤ 2 := by
  have hlease (order : EmissionOrder) : (p.leaseEvents order).length ≤ 1 := by
    unfold leaseEvents
    cases p.emission order with
    | error e => exact Nat.zero_le 1
    | ok result =>
        dsimp only
        split
        · exact Nat.le_refl 1
        · exact Nat.zero_le 1
  rw [events, List.length_cons]
  split
  · exact Nat.succ_le_succ (hlease _)
  · exact Nat.le_succ 1

theorem Consults.traced_iff (h : p.Consults draw assertion body requester requestId resp)
    (havailable : Available p.primitives p.services s 2) :
    Traced (p.events requestId body requester resp) s
        (p.deployment.api.createAccessRequest draw assertion (some body) s).2 ↔
      ∀ raw ∈ p.events requestId body requester resp, raw.Admissible := by
  rw [h.state]
  exact Admin.traced_iff p.auditKey (havailable.mono events_length_le) h.events_short

/-- **A decision leaves its trace exactly** when the texts of the request that
end in a sealed field fit there: then `policy.decided`, and `credential.issued`
if there is a lease, are accepted and stored. -/
theorem decision_leaves_trace_iff (p : Platform) (draw : Draw)
    (hdraw : ∀ id, draw.newV7 = .ok id → uuidValid true (octets id) = true) (assertion : Bytes)
    (hsealed : SealedByProvider p.primitives assertion) (body : AccessRequestBody)
    (requester : VerifyAssertionResponse) (requestId : String) (resp : DecisionResponse)
    (hconsults : p.Consults draw assertion body requester requestId resp) (s : Trail)
    (havailable : Available p.primitives p.services s 2) :
    Traced (p.events requestId body requester resp) s
        (p.deployment.api.createAccessRequest draw assertion (some body) s).2 ↔
      Recordable p.message body := by
  rw [hconsults.traced_iff havailable]
  exact hconsults.events_admissible_iff hsealed (hdraw _ hconsults.drawn)

end Platform

/-! ### Two justifications -/

open IdentityAssertion (loginClaims loginKey loginHsm)

/-- The issuer reaches nothing. -/
def unreachable : (op : IssuerOp) → Unit → IssuerResp op × Unit
  | .verifyDecision _, s => (.error "unavailable", s)
  | .markConsumed _, s => (.error "unavailable", s)
  | .newV7, s => (.error "unavailable", s)
  | .issueLease _ _, s => (.error "unavailable", s)

def loginVerifyingKey : AcceptedVerifyingKey :=
  ⟨(AssertionSealer.ofPublicKey Primitives.standard loginKey).keyId, loginKey⟩

def loginInstant : Timestamp := (loginClaims "identity-provider").issuedAt

/-- identity-provider, at the instant of the login. -/
def verifyLogin (assertion : Bytes) (domain : String) : VerifyAssertionResponse :=
  verifyAssertion .standard loginVerifyingKey loginInstant assertion domain

def samplePlatform : Platform where
  primitives := .standard
  message := sampleText
  corpusDigest := ⟨List.replicate 32 0, Bytes.length_zeros⟩
  decisionKey := sampleKey
  call := sampleCall
  signs := fun _ => rfl
  assertionKey := loginVerifyingKey
  identityClient := fun assertion domain => .ok (verifyLogin assertion domain)
  verifies := fun _ _ _ h => ⟨loginInstant, (Except.ok.inj h).symm⟩
  emission := fun order => ((Issuer.emit order).run unreachable ()).1
  emits := fun order => ⟨_, Prog.performs_trace unreachable (Issuer.emit order) ()⟩
  auditKey := sampleKey
  services := Admin.sampleCalls

/-- The login, at level `AAL2`, asks for a database in production. -/
def loginBody (assertion : Bytes) (justification : String) : AccessRequestBody :=
  { sampleBody [⟨⟨1787500200, 0⟩, assertion⟩] with
    expectedAuthorityDomain := "identity-provider"
    justification := justification }

def loginSubject : VerifyAssertionResponse := ⟨true, "", "alice", "AAL2", "webauthn/device-bound"⟩

theorem verifyLogin_login : ∃ assertion, SealedByProvider .standard assertion ∧
    verifyLogin assertion "identity-provider" = loginSubject := by
  obtain ⟨⟨assertion⟩, hseal⟩ := IdentityAssertion.login_sealed
  refine ⟨assertion, ⟨_, _, _, hseal⟩, ?_⟩
  have hback := IdentityAssertion.comesBack_of_fits IdentityAssertion.loginHsm_signs hseal
    (IdentityAssertion.find?_own_keyId _ _) IdentityAssertion.login_fits
    ⟨[IdentityAssertion.suiteV1], loginInstant, "identity-provider"⟩ List.mem_cons_self rfl
  have hwindow : (loginClaims "identity-provider").validAt loginInstant = true := by
    decide +kernel
  rw [if_pos hwindow] at hback
  rw [verifyLogin, verifyAssertion, loginVerifyingKey, hback]
  rfl

/-- The login is authenticated, approves itself and reaches the PDP. -/
theorem login_consults {assertion : Bytes} {justification : String}
    (hlogin : verifyLogin assertion "identity-provider" = loginSubject)
    (hlength : (octets justification).length ≤ Broker.maxJustificationLength) :
    ∃ resp, samplePlatform.Consults sampleDraw assertion (loginBody assertion justification)
      loginSubject "0198c1a2-7b3c-7d4e-8f5a-6b7c8d9e0f1a" resp := by
  have hidentity : samplePlatform.identityClient assertion "identity-provider" =
      .ok loginSubject := congrArg Except.ok hlogin
  have hreaches : samplePlatform.deployment.broker.Reaches
      (accessRequest "0198c1a2-7b3c-7d4e-8f5a-6b7c8d9e0f1a" sampleDraw.authenticatedAt
        (loginBody assertion justification) loginSubject) := by
    have hsubject : "alice" ≠ "" := by decide
    have htype : "Database" ≠ "" := by decide
    have hverb : "db.connect" ≠ "" := by decide
    refine ⟨hlength, hsubject, htype, hverb, ?_, ?_⟩
    · intro raw _
      exact ⟨_, rfl⟩
    · refine List.ne_nil_of_mem (Broker.mem_counted.mpr
        ⟨⟨assertion, ⟨1787500200, 0⟩⟩, List.mem_cons_self, loginSubject, ?_, rfl, rfl⟩)
      exact hidentity
  obtain ⟨digest, hserve⟩ := PolicyEngine.serve_ok samplePlatform.primitives
    samplePlatform.deployment.engine samplePlatform.call
    (samplePlatform.asked sampleDraw (loginBody assertion justification) loginSubject
      "0198c1a2-7b3c-7d4e-8f5a-6b7c8d9e0f1a")
  exact ⟨_, hidentity, rfl, rfl, _, Broker.decide_reached hreaches
    ((Platform.policyClient_eq _ _).trans hserve), rfl⟩

theorem loginBody_texts {assertion : Bytes} {justification : String}
    (hfits : BoundedAsciiOk 512 justification) : TextsFit (loginBody assertion justification) := by
  have hdomain : BoundedAsciiOk 128 "identity-provider" := by decide
  have htype : BoundedAsciiOk 256 "Database" := by decide
  have hid : BoundedAsciiOk 256 "db-billing-prod" := by decide
  have hnetwork : BoundedAsciiOk 256 "10.42.0.0/16" := by decide
  have hticket : BoundedAsciiOk 256 "INC-482913" := by decide
  refine ⟨hdomain, htype, hid, ?_, fun _ => hticket, fun _ => hfits⟩
  rintro network hsome -
  obtain rfl := Option.some.inj hsome
  exact hnetwork

theorem sampleDraw_v7 : ∀ id, sampleDraw.newV7 = .ok id → uuidValid true (octets id) = true := by
  intro id hid
  obtain rfl := Except.ok.inj hid
  decide

theorem plain_justification_traced : ∃ assertion resp,
    samplePlatform.Consults sampleDraw assertion
      (loginBody assertion "Correctif sur incident de facturation") loginSubject
      "0198c1a2-7b3c-7d4e-8f5a-6b7c8d9e0f1a" resp ∧
    Traced (samplePlatform.events "0198c1a2-7b3c-7d4e-8f5a-6b7c8d9e0f1a"
        (loginBody assertion "Correctif sur incident de facturation") loginSubject resp)
      Admin.untouched
      (samplePlatform.deployment.api.createAccessRequest sampleDraw assertion
        (some (loginBody assertion "Correctif sur incident de facturation"))
        Admin.untouched).2 := by
  obtain ⟨assertion, hsealed, hlogin⟩ := verifyLogin_login
  obtain ⟨resp, hconsults⟩ := login_consults hlogin
    (by decide : (octets "Correctif sur incident de facturation").length ≤ 512)
  refine ⟨assertion, resp, hconsults, ?_⟩
  refine (Platform.decision_leaves_trace_iff samplePlatform sampleDraw sampleDraw_v7 assertion
    hsealed _ loginSubject _ resp hconsults Admin.untouched
    (Admin.sampleCalls_available.mono (by decide))).mpr ⟨loginBody_texts (by decide), ?_⟩
  exact ⟨fun hne => absurd rfl hne, fun _ _ hne => absurd rfl hne⟩

/-- An accent in the justification, and the decision leaves no trace. -/
theorem accented_justification_untraced : ∃ assertion resp,
    SealedByProvider .standard assertion ∧
    samplePlatform.Consults sampleDraw assertion
      (loginBody assertion "Correctif sur incident de sécurité") loginSubject
      "0198c1a2-7b3c-7d4e-8f5a-6b7c8d9e0f1a" resp ∧
    Available .standard samplePlatform.services Admin.untouched 2 ∧
    ¬ Traced (samplePlatform.events "0198c1a2-7b3c-7d4e-8f5a-6b7c8d9e0f1a"
        (loginBody assertion "Correctif sur incident de sécurité") loginSubject resp)
      Admin.untouched
      (samplePlatform.deployment.api.createAccessRequest sampleDraw assertion
        (some (loginBody assertion "Correctif sur incident de sécurité"))
        Admin.untouched).2 := by
  obtain ⟨assertion, hsealed, hlogin⟩ := verifyLogin_login
  obtain ⟨resp, hconsults⟩ := login_consults hlogin
    (by decide : (octets "Correctif sur incident de sécurité").length ≤ 512)
  have havailable : Available .standard samplePlatform.services Admin.untouched 2 :=
    Admin.sampleCalls_available.mono (by decide)
  refine ⟨assertion, resp, hsealed, hconsults, havailable, ?_⟩
  intro htraced
  have hadmissible := (hconsults.traced_iff havailable).mp htraced
  have hrecordable := (hconsults.events_admissible_iff hsealed (by decide)).mp hadmissible
  have hnot : ¬ BoundedAsciiOk 512 "Correctif sur incident de sécurité" := by decide
  have hne : "Correctif sur incident de sécurité" ≠ "" := by decide
  exact hnot (hrecordable.texts.justification hne)

end ZeroSecret.Access
