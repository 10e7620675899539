import ZeroSecret.Access.Broker

/-!
# Who approves a request

No layer compares an approver with the requester: the handler authenticates
the requester, the broker counts every approval whose assertion is valid, the
corpus asks for a set of approvals that is not empty. The exact set of
requests that are allowed follows, and with it the requests whose only
approvals are the requester's own.
-/

namespace ZeroSecret.Access

open Crypto Policy

/-- The service on the shipped corpus. identity-provider is an arbitrary
function, the services that do not decide are arbitrary too. -/
structure Deployment (σ : Type) where
  primitives : Primitives
  message : ErrorText
  policyVersion : String
  sealer : DecisionSeal.DecisionSealer
  verifyingKey : DecisionSeal.AcceptedVerifyingKey
  call : Except String DecideCall
  identityClient : Bytes → String → Except String VerifyAssertionResponse
  credentialClient : Issuance.EmissionOrder → σ → Except String Issuance.EmissionResult × σ
  auditClient : Audit.RawEvent → σ → Except String Audit.RecordResult × σ

namespace Deployment

variable {σ : Type}

def engine (dep : Deployment σ) : PolicyEngine :=
  ⟨.shipped dep.message dep.policyVersion, dep.sealer, dep.verifyingKey⟩

def broker (dep : Deployment σ) : Broker :=
  ⟨dep.engine.serve dep.primitives dep.call, dep.identityClient⟩

def api (dep : Deployment σ) : API σ := ⟨dep.broker, dep.credentialClient, dep.auditClient⟩

/-- The approvals a body carries. -/
def approvals (body : AccessRequestBody) : List Body.Approval := body.approvals.getD []

/-- The instant the posture of a body was evaluated; year 1 when it is not
said. -/
def evaluatedAt (body : AccessRequestBody) : ProtoTimestamp :=
  ((body.posture.map posturefrom).getD zeroPosture).evaluatedAt

/-- `a` was reported valid, for `subject`. -/
def ApprovedBy (dep : Deployment σ) (body : AccessRequestBody) (a : Body.Approval)
    (subject : String) : Prop :=
  ∃ resp, dep.identityClient a.assertion body.expectedAuthorityDomain = .ok resp ∧
    resp.valid = true ∧ resp.subjectId = subject

/-- Some approval that counts is not the requester's own. -/
def ApprovedByOther (dep : Deployment σ) (assertion : Bytes) (body : AccessRequestBody) : Prop :=
  ∃ requester, dep.identityClient assertion body.expectedAuthorityDomain = .ok requester ∧
    requester.valid = true ∧
    ∃ a ∈ approvals body, ∃ subject, dep.ApprovedBy body a subject ∧
      subject ≠ requester.subjectId

/-- **Separation of duty**: `Allowed = true` is returned only with an approval
from a subject other than the requester. -/
def NoSelfApproval (dep : Deployment σ) (draw : Draw) (assertion : Bytes)
    (body : AccessRequestBody) (s : σ) : Prop :=
  (dep.api.createAccessRequest draw assertion (some body) s).1.allowed = true →
    dep.ApprovedByOther assertion body

/-- Everything that is asked of a request, whoever approves it. -/
structure Grantable (dep : Deployment σ) (draw : Draw) (assertion : Bytes)
    (body : AccessRequestBody) : Prop where
  requester : ∃ requester,
    dep.identityClient assertion body.expectedAuthorityDomain = .ok requester ∧
      requester.valid = true ∧ requester.subjectId ≠ "" ∧ requester.aal = "AAL3"
  identifier : ∃ requestId, draw.newV7 = .ok requestId
  served : ∃ call, dep.call = .ok call
  justification : (octets body.justification).length ≤ Broker.maxJustificationLength
  verb : body.verb = "db.connect"
  type : body.resource.type = "Database"
  production : (attributesOrEmpty body.resource.attributes).get "environment" =
    some "production"
  domain : body.expectedAuthorityDomain = body.resource.authorityDomain
  ticket : body.ticketRef ≠ ""
  answered : ∀ a ∈ approvals body, ∃ resp,
    dep.identityClient a.assertion body.expectedAuthorityDomain = .ok resp
  approved : ∃ a ∈ approvals body, ∃ subject, dep.ApprovedBy body a subject
  evaluatedBefore : 0 ≤ draw.requestedAt.seconds.toInt - (evaluatedAt body).seconds.toInt
  evaluatedWithin :
    draw.requestedAt.seconds.toInt - (evaluatedAt body).seconds.toInt ≤ 3600

end Deployment

/-! ## The layers, one by one -/

/-- Neither the audit event nor the emission changes the answer. -/
theorem respond_allowed {σ : Type} (h : API σ) (requestId : String) (body : AccessRequestBody)
    (verifyResp : VerifyAssertionResponse) (decision : Broker.Decision) (s : σ) :
    (h.respond requestId body verifyResp decision s).1.allowed = decision.allowed := by
  rw [API.respond]
  split
  · rfl
  · split
    · simp only [HttpResponse.allowed, API.withLease]
      split
      · rfl
      · split
        · rfl
        · rfl
    · rfl

/-- **The handler allows what the broker allows**, for a requester it has
authenticated. -/
theorem createAccessRequest_allowed_iff {σ : Type} {h : API σ} {draw : Draw} {assertion : Bytes}
    {body : AccessRequestBody} {s : σ} :
    (h.createAccessRequest draw assertion (some body) s).1.allowed = true ↔
      ∃ requester, h.broker.identityClient assertion body.expectedAuthorityDomain =
          .ok requester ∧ requester.valid = true ∧
        ∃ requestId, draw.newV7 = .ok requestId ∧
          ∃ d, h.broker.decide draw.requestedAt
              (accessRequest requestId draw.authenticatedAt body requester) = .ok d ∧
            d.allowed = true := by
  rw [API.createAccessRequest, API.handle]
  constructor
  · intro ha
    split at ha
    · cases ha
    · rename_i requester hrequester
      split at ha
      · cases ha
      · rename_i hvalid
        split at ha
        · cases ha
        · rename_i requestId hid
          split at ha
          · cases ha
          · rename_i d hd
            rw [respond_allowed] at ha
            exact ⟨requester, hrequester, by simpa using hvalid, requestId, hid, d, hd, ha⟩
  · rintro ⟨requester, hrequester, hvalid, requestId, hid, d, hd, ha⟩
    simp only [hrequester, hvalid, Bool.not_true, Bool.false_eq_true, if_false, hid, hd,
      respond_allowed, ha]

theorem authLevelFromString_eq_aal3 {s : String} :
    Broker.authLevelFromString s = 3 ↔ s = "AAL3" := by
  constructor
  · intro h
    unfold Broker.authLevelFromString at h
    split at h
    · cases h
    · cases h
    · rfl
    · cases h
  · rintro rfl
    rfl

/-- **The corpus on a request of the broker**: it has every field the
translation looks for except, maybe, the environment. -/
theorem shipped_allows_iff {P : Primitives} {message : ErrorText} {policyVersion : String}
    {order : Enumeration} {req : Broker.AccessRequest} {now : ProtoTimestamp}
    {verified : List Approval} (happroved : ∀ a ∈ verified, a.approvedAt.isSome = true) :
    ((Pdp.shipped message policyVersion).decide P order
        (Broker.decisionRequest req now verified)).effect = effectAllow ↔
      req.resource.type = "Database" ∧ req.verb = "db.connect" ∧
        req.resource.attributes.get "environment" = some "production" ∧
        req.principal.aal = "AAL3" ∧
        req.principal.authorityDomain = req.resource.authorityDomain ∧
        req.ticketRef ≠ "" ∧ verified ≠ [] ∧
        0 ≤ now.seconds.toInt - req.posture.evaluatedAt.seconds.toInt ∧
        now.seconds.toInt - req.posture.evaluatedAt.seconds.toInt ≤ 3600 := by
  rw [shipped_allow_iff_granted, ← allowed_iff]
  constructor
  · rintro ⟨-, principal, resource, action, context, authenticatedAt, requestedAt, posture,
      evaluatedAt, hp, hr, ha, hc, -, hra, hpo, hea, -, htype, hverb, henv, haal, hdom, hticket,
      happs, h0, h1⟩
    obtain rfl := Option.some.inj hp
    obtain rfl := Option.some.inj hr
    obtain rfl := Option.some.inj ha
    obtain rfl := Option.some.inj hc
    obtain rfl := Option.some.inj hra
    obtain rfl := Option.some.inj hpo
    obtain rfl := Option.some.inj hea
    exact ⟨htype, hverb, henv, authLevelFromString_eq_aal3.mp haal, hdom, hticket, happs, h0, h1⟩
  · rintro ⟨htype, hverb, henv, haal, hdom, hticket, happs, h0, h1⟩
    exact ⟨Or.inl rfl, _, _, _, _, _, _, _, _, rfl, rfl, rfl, rfl, rfl, rfl, rfl, rfl, happroved,
      htype, hverb, henv, authLevelFromString_eq_aal3.mpr haal, hdom, hticket, happs, h0, h1⟩

/-! ## The requests that are allowed -/

namespace Deployment

variable {σ : Type} {dep : Deployment σ} {draw : Draw} {assertion : Bytes}
  {body : AccessRequestBody} {s : σ} {requester : VerifyAssertionResponse} {requestId : String}

theorem mem_rawApprovals {raw : Broker.RawApproval} :
    raw ∈ (accessRequest requestId draw.authenticatedAt body requester).approvals ↔
      ∃ a ∈ approvals body, raw = ⟨a.assertion, a.approvedAt⟩ := by
  rw [accessRequest, List.mem_map]
  exact exists_congr fun a => and_congr_right fun _ => eq_comm

/-- Some approval is counted exactly when one was reported valid. -/
theorem counted_ne_nil_iff :
    (accessRequest requestId draw.authenticatedAt body requester).approvals.filterMap
        (dep.broker.counted body.expectedAuthorityDomain) ≠ [] ↔
      ∃ a ∈ approvals body, ∃ subject, dep.ApprovedBy body a subject := by
  constructor
  · intro hne
    obtain ⟨counted, hc⟩ := List.exists_mem_of_ne_nil _ hne
    obtain ⟨raw, hraw, resp, hresp, hvalid, -⟩ := Broker.mem_counted.mp hc
    obtain ⟨a, ha, rfl⟩ := mem_rawApprovals.mp hraw
    exact ⟨a, ha, resp.subjectId, resp, hresp, hvalid, rfl⟩
  · rintro ⟨a, ha, subject, resp, hresp, hvalid, -⟩
    exact List.ne_nil_of_mem (Broker.mem_counted.mpr
      ⟨⟨a.assertion, a.approvedAt⟩, mem_rawApprovals.mpr ⟨a, ha, rfl⟩, resp, hresp, hvalid, rfl⟩)

theorem counted_approvedAt {raws : List Broker.RawApproval} {b : Broker} {domain : String} :
    ∀ a ∈ raws.filterMap (b.counted domain), a.approvedAt.isSome = true := by
  intro a ha
  obtain ⟨_, _, _, _, _, rfl⟩ := Broker.mem_counted.mp ha
  rfl

/-- **What the service allows**: exactly the grantable requests. -/
theorem allowed_iff_grantable :
    (dep.api.createAccessRequest draw assertion (some body) s).1.allowed = true ↔
      dep.Grantable draw assertion body := by
  rw [createAccessRequest_allowed_iff]
  constructor
  · rintro ⟨requester, hrequester, hvalid, requestId, hid, hd⟩
    obtain ⟨hreach, hallow⟩ := Broker.decide_allowed_iff.mp hd
    obtain ⟨call, hcall, hallow⟩ := PolicyEngine.serve_allow_iff.mp hallow
    obtain ⟨htype, hverb, henv, haal, hdom, hticket, happs, h0, h1⟩ :=
      (shipped_allows_iff counted_approvedAt).mp hallow
    exact {
      requester := ⟨requester, hrequester, hvalid, hreach.subject, haal⟩
      identifier := ⟨requestId, hid⟩
      served := ⟨call, hcall⟩
      justification := hreach.justification
      verb := hverb
      type := htype
      production := henv
      domain := hdom
      ticket := hticket
      answered := fun a ha => hreach.answered _ (mem_rawApprovals.mpr ⟨a, ha, rfl⟩)
      approved := counted_ne_nil_iff.mp happs
      evaluatedBefore := h0
      evaluatedWithin := h1 }
  · intro g
    obtain ⟨requester, hrequester, hvalid, hsubject, haal⟩ := g.requester
    obtain ⟨requestId, hid⟩ := g.identifier
    obtain ⟨call, hcall⟩ := g.served
    have happs := (@counted_ne_nil_iff σ dep draw body requester requestId).mpr g.approved
    have hreach : dep.broker.Reaches
        (accessRequest requestId draw.authenticatedAt body requester) := {
      justification := g.justification
      subject := hsubject
      type := by
        show body.resource.type ≠ ""
        rw [g.type]
        decide
      verb := by
        show body.verb ≠ ""
        rw [g.verb]
        decide
      answered := by
        intro raw hraw
        obtain ⟨a, ha, rfl⟩ := mem_rawApprovals.mp hraw
        exact g.answered a ha
      approved := happs }
    refine ⟨requester, hrequester, hvalid, requestId, hid, Broker.decide_allowed_iff.mpr
      ⟨hreach, PolicyEngine.serve_allow_iff.mpr ⟨call, hcall, ?_⟩⟩⟩
    exact (shipped_allows_iff counted_approvedAt).mpr ⟨g.type, g.verb, g.production, haal, g.domain,
      g.ticket, happs, g.evaluatedBefore, g.evaluatedWithin⟩

/-- **When self-approval is refused.** A request that is granted needs one
valid approval, the requester's own included; so separation of duty holds
exactly where a request that meets every other condition has an approval from
another subject. -/
theorem noSelfApproval_iff (dep : Deployment σ) (draw : Draw) (assertion : Bytes)
    (body : AccessRequestBody) (s : σ) :
    dep.NoSelfApproval draw assertion body s ↔
      (dep.Grantable draw assertion body → dep.ApprovedByOther assertion body) := by
  rw [NoSelfApproval, allowed_iff_grantable]

end Deployment

/-! ### A requester who approves herself -/

/-- The nominal case of the tests. -/
def sampleBody (approvals : List Body.Approval) : AccessRequestBody where
  approvals := some approvals
  expectedAuthorityDomain := "corp.eu-west"
  justification := "Correctif sur incident de facturation"
  posture := some ⟨some "2.4.1", some true, some ⟨1787499000, 0⟩, some true⟩
  resource := ⟨some .production, "corp.eu-west", "db-billing-prod", "Database"⟩
  sourceNetwork := some "10.42.0.0/16"
  ticketRef := "INC-482913"
  verb := "db.connect"

def sampleDraw : Draw :=
  ⟨.ok "0198c1a2-7b3c-7d4e-8f5a-6b7c8d9e0f1a", ⟨1787500800, 0⟩, ⟨1787500800, 0⟩⟩

/-- The octets of one sealed assertion. -/
def aliceAssertion : Bytes := octets "assertion of sub-6b2f9c"

/-- One assertion is valid, the requester's. -/
def verifyAlice (assertion : Bytes) (_domain : String) : Except String VerifyAssertionResponse :=
  if assertion = aliceAssertion then
    .ok ⟨true, "", "sub-6b2f9c", "AAL3", "webauthn/device-bound"⟩
  else .ok ⟨false, "signature_invalide", "", "", ""⟩

def sampleCall : DecideCall :=
  ⟨.asWritten, 1787500805, fun _ => List.replicate 64 0, by decide⟩

def sampleDeployment : Deployment Unit where
  primitives := .standard
  message := sampleText
  policyVersion := "v1"
  sealer := .ofPublicKey .standard sampleKey
  verifyingKey := ⟨keyIdFromPublicKey .standard sampleKey, sampleKey⟩
  call := .ok sampleCall
  identityClient := verifyAlice
  credentialClient := fun _ s => (.error "unavailable", s)
  auditClient := fun _ s => (.error "unavailable", s)

/-- The requester sends her own assertion as the only approval. -/
def selfApproved : AccessRequestBody := sampleBody [⟨⟨1787500200, 0⟩, aliceAssertion⟩]

theorem verifyAlice_alice (domain : String) : verifyAlice aliceAssertion domain =
    .ok ⟨true, "", "sub-6b2f9c", "AAL3", "webauthn/device-bound"⟩ := if_pos rfl

theorem selfApproved_grantable :
    sampleDeployment.Grantable sampleDraw aliceAssertion selfApproved where
  requester := ⟨_, verifyAlice_alice "corp.eu-west", rfl, by decide, rfl⟩
  identifier := ⟨_, rfl⟩
  served := ⟨_, rfl⟩
  justification := by decide +kernel
  verb := rfl
  type := rfl
  production := rfl
  domain := rfl
  ticket := by decide
  answered := by
    intro a ha
    rw [List.mem_singleton.mp ha]
    exact ⟨_, verifyAlice_alice "corp.eu-west"⟩
  approved :=
    ⟨_, List.mem_singleton_self _, _, _, verifyAlice_alice "corp.eu-west", rfl, rfl⟩
  evaluatedBefore := by decide
  evaluatedWithin := by decide

/-- She is allowed. -/
theorem selfApproved_allowed :
    ¬ sampleDeployment.NoSelfApproval sampleDraw aliceAssertion selfApproved () := by
  intro h
  obtain ⟨requester, hrequester, -, a, ha, subject, ⟨resp, hresp, -, rfl⟩, hne⟩ :=
    h (Deployment.allowed_iff_grantable.mpr selfApproved_grantable)
  -- the one approval is the assertion the requester is authenticated by
  rw [List.mem_singleton.mp ha] at hresp
  rw [hrequester] at hresp
  exact hne (congrArg VerifyAssertionResponse.subjectId (Except.ok.inj hresp).symm)

end ZeroSecret.Access
