import ZeroSecret.Base.Binary64
import ZeroSecret.Issuance.Handler

/-!
# `apps/access-broker`: from an HTTP request to a decision and a lease

`Broker.Decide` checks the request locally, has every approval verified by
identity-provider and asks the PDP. The handler authenticates the requester
before, and after a decision sends `policy.decided` and asks for a lease.

The two clients of the broker are functions: one request, one answer. Those
that change what surrounds the service, audit-collector and credential-issuer,
act on a state. An instant is kept as `timestamppb.New` keeps it.
-/

namespace ZeroSecret.Access

open Crypto Policy

structure VerifyAssertionResponse where
  valid : Bool
  reason : String
  subjectId : String
  aal : String
  authMethod : String
deriving DecidableEq

/-! ## The broker -/

namespace Broker

def maxJustificationLength : Nat := 512

structure Principal where
  subjectId : String
  aal : String
  authMethod : String
  authenticatedAt : ProtoTimestamp
  roles : List String
  authorityDomain : String

structure Posture where
  managed : Bool
  diskEncrypted : Bool
  agentVersion : String
  evaluatedAt : ProtoTimestamp

structure RawApproval where
  assertion : Bytes
  approvedAt : ProtoTimestamp

structure AccessRequest where
  requestId : String
  principal : Principal
  verb : String
  resource : Resource
  sourceNetwork : String
  posture : Posture
  ticketRef : String
  justification : String
  approvals : List RawApproval
  expectedAuthorityDomain : String

structure Decision where
  allowed : Bool
  reasons : List String
  decisionHash : Bytes
  policyVersion : String
  /-- The answer of the PDP, when it was asked. -/
  signed : Option DecisionResponse

/-- A refusal before the PDP is asked. -/
def refused (reason : String) : Decision := ⟨false, [reason], [], "", none⟩

def Decision.ofResponse (resp : DecisionResponse) : Decision :=
  ⟨resp.effect == effectAllow, resp.reasons, resp.decisionHash, resp.policyVersion, some resp⟩

def authLevelFromString (s : String) : Int32 :=
  match s with
  | "AAL1" => 1
  | "AAL2" => 2
  | "AAL3" => 3
  | _ => 0

end Broker

structure Broker where
  policyClient : DecisionRequest → Except String DecisionResponse
  identityClient : Bytes → String → Except String VerifyAssertionResponse

namespace Broker

/-- The loop over the approvals. An invalid one is skipped; one that cannot be
verified ends the call. -/
def verifyApprovals (b : Broker) (expectedAuthorityDomain : String) :
    List RawApproval → List Approval → Except String (List Approval)
  | [], verifiedApprovals => .ok verifiedApprovals
  | raw :: rest, verifiedApprovals =>
      match b.identityClient raw.assertion expectedAuthorityDomain with
      | .error err => .error ("vérification d'approbation : " ++ err)
      | .ok resp =>
          if !resp.valid then b.verifyApprovals expectedAuthorityDomain rest verifiedApprovals
          else b.verifyApprovals expectedAuthorityDomain rest
            (verifiedApprovals ++ [⟨resp.subjectId, some raw.approvedAt, raw.assertion⟩])

/-- No policy version is asked for. -/
def decisionRequest (req : AccessRequest) (requestedAt : ProtoTimestamp)
    (verifiedApprovals : List Approval) : DecisionRequest where
  requestId := req.requestId
  principal := some {
    subjectId := req.principal.subjectId
    aal := authLevelFromString req.principal.aal
    authMethod := req.principal.authMethod
    authenticatedAt := some req.principal.authenticatedAt
    roles := req.principal.roles
    authorityDomain := req.principal.authorityDomain }
  action := some ⟨req.verb⟩
  resource := some req.resource
  context := some {
    requestedAt := some requestedAt
    sourceNetwork := req.sourceNetwork
    posture := some {
      managed := req.posture.managed
      diskEncrypted := req.posture.diskEncrypted
      agentVersion := req.posture.agentVersion
      evaluatedAt := some req.posture.evaluatedAt }
    ticketRef := req.ticketRef
    justification := req.justification
    approvals := verifiedApprovals }
  policyVersion := ""

/-- `Broker.Decide`; `now` is the clock when the request to the PDP is built. -/
def decide (b : Broker) (now : ProtoTimestamp) (req : AccessRequest) : Except String Decision :=
  if maxJustificationLength < (octets req.justification).length then
    .ok (refused "justification_trop_longue")
  else if req.principal.subjectId = "" ∨ req.resource.type = "" ∨ req.verb = "" then
    .ok (refused "champ_requis_absent")
  else
    match b.verifyApprovals req.expectedAuthorityDomain req.approvals [] with
    | .error err => .error err
    | .ok verifiedApprovals =>
        if verifiedApprovals.length = 0 then .ok (refused "approbation_verifiee_absente")
        else
          match b.policyClient (decisionRequest req now verifiedApprovals) with
          | .error err => .error ("appel au PDP : " ++ err)
          | .ok resp => .ok (.ofResponse resp)

/-! ### Which approvals are counted -/

/-- What one approval contributes. -/
def counted (b : Broker) (expectedAuthorityDomain : String) (raw : RawApproval) :
    Option Approval :=
  match b.identityClient raw.assertion expectedAuthorityDomain with
  | .error _ => none
  | .ok resp =>
      if resp.valid then some ⟨resp.subjectId, some raw.approvedAt, raw.assertion⟩ else none

variable {b : Broker} {domain : String}

theorem mem_counted {raws : List RawApproval} {a : Approval} :
    a ∈ raws.filterMap (b.counted domain) ↔ ∃ raw ∈ raws, ∃ resp,
      b.identityClient raw.assertion domain = .ok resp ∧ resp.valid = true ∧
      a = ⟨resp.subjectId, some raw.approvedAt, raw.assertion⟩ := by
  rw [List.mem_filterMap]
  refine exists_congr fun raw => and_congr_right fun _ => ?_
  rw [counted]
  constructor
  · intro h
    split at h
    · cases h
    · rename_i resp hresp
      split at h
      · rename_i hvalid
        exact ⟨resp, hresp, hvalid, (Option.some.inj h).symm⟩
      · cases h
  · rintro ⟨resp, hresp, hvalid, rfl⟩
    rw [hresp]
    exact if_pos hvalid

/-- **The loop**: it ends with an answer exactly when every verification was
answered, and then counts the valid approvals in their order. -/
theorem verifyApprovals_eq_ok {raws : List RawApproval} {verified approvals : List Approval} :
    b.verifyApprovals domain raws verified = .ok approvals ↔
      (∀ raw ∈ raws, ∃ resp, b.identityClient raw.assertion domain = .ok resp) ∧
        approvals = verified ++ raws.filterMap (b.counted domain) := by
  induction raws generalizing verified with
  | nil =>
      rw [verifyApprovals, List.filterMap_nil, List.append_nil]
      constructor
      · intro h
        exact ⟨fun _ hr => absurd hr List.not_mem_nil, (Except.ok.inj h).symm⟩
      · rintro ⟨-, rfl⟩
        rfl
  | cons raw raws ih =>
      rw [verifyApprovals, List.forall_mem_cons]
      cases hraw : b.identityClient raw.assertion domain with
      | error err =>
          constructor
          · intro h
            cases h
          · rintro ⟨⟨⟨resp, h⟩, -⟩, -⟩
            cases h
      | ok resp =>
          have hanswered : ∃ resp', Except.ok resp = (Except.ok resp' : Except String _) :=
            ⟨resp, rfl⟩
          by_cases hvalid : resp.valid = true
          · have hc : b.counted domain raw =
                some ⟨resp.subjectId, some raw.approvedAt, raw.assertion⟩ := by
              rw [counted, hraw]
              exact if_pos hvalid
            rw [List.filterMap_cons_some hc]
            simp only [hvalid, Bool.not_true, Bool.false_eq_true, if_false, ih,
              List.append_assoc, List.singleton_append, hanswered, true_and]
          · have hc : b.counted domain raw = none := by
              rw [counted, hraw]
              exact if_neg hvalid
            rw [Bool.not_eq_true] at hvalid
            rw [List.filterMap_cons_none hc]
            simp only [hvalid, Bool.not_false, if_true, ih, hanswered, true_and]

/-! ### When the PDP is asked -/

/-- The request passes every local check. -/
structure Reaches (b : Broker) (req : AccessRequest) : Prop where
  justification : (octets req.justification).length ≤ maxJustificationLength
  subject : req.principal.subjectId ≠ ""
  type : req.resource.type ≠ ""
  verb : req.verb ≠ ""
  answered : ∀ raw ∈ req.approvals, ∃ resp,
    b.identityClient raw.assertion req.expectedAuthorityDomain = .ok resp
  approved : req.approvals.filterMap (b.counted req.expectedAuthorityDomain) ≠ []

/-- What the PDP is asked. -/
def pdpRequest (b : Broker) (now : ProtoTimestamp) (req : AccessRequest) : DecisionRequest :=
  decisionRequest req now (req.approvals.filterMap (b.counted req.expectedAuthorityDomain))

/-- A decision is a local refusal, or the PDP's answer to a request that
reached it. -/
theorem decide_cases {now : ProtoTimestamp} {req : AccessRequest} {d : Decision}
    (h : b.decide now req = .ok d) :
    (∃ reason, d = refused reason) ∨
      ∃ resp, b.Reaches req ∧ b.policyClient (b.pdpRequest now req) = .ok resp ∧
        d = .ofResponse resp := by
  rw [decide] at h
  split at h
  · exact Or.inl ⟨_, (Except.ok.inj h).symm⟩
  · rename_i hlen
    split at h
    · exact Or.inl ⟨_, (Except.ok.inj h).symm⟩
    · rename_i hfields
      split at h
      · cases h
      · rename_i verified hverified
        obtain ⟨hanswered, rfl⟩ := verifyApprovals_eq_ok.mp hverified
        rw [List.nil_append] at h
        split at h
        · exact Or.inl ⟨_, (Except.ok.inj h).symm⟩
        · rename_i hnone
          split at h
          · cases h
          · rename_i resp hresp
            rw [not_or, not_or] at hfields
            refine Or.inr ⟨resp, ?_, hresp, (Except.ok.inj h).symm⟩
            exact ⟨Nat.le_of_not_lt hlen, hfields.1, hfields.2.1, hfields.2.2, hanswered,
              fun e => hnone (by rw [e]; rfl)⟩

theorem decide_reached {now : ProtoTimestamp} {req : AccessRequest} {resp : DecisionResponse}
    (hr : b.Reaches req) (hresp : b.policyClient (b.pdpRequest now req) = .ok resp) :
    b.decide now req = .ok (.ofResponse resp) := by
  have hverified : b.verifyApprovals req.expectedAuthorityDomain req.approvals [] =
      .ok (req.approvals.filterMap (b.counted req.expectedAuthorityDomain)) :=
    verifyApprovals_eq_ok.mpr ⟨hr.answered, rfl⟩
  have hfields : ¬ (req.principal.subjectId = "" ∨ req.resource.type = "" ∨ req.verb = "") := by
    rintro (h | h | h)
    · exact hr.subject h
    · exact hr.type h
    · exact hr.verb h
  have hsome : ¬ (req.approvals.filterMap
      (b.counted req.expectedAuthorityDomain)).length = 0 :=
    fun h => hr.approved (List.eq_nil_of_length_eq_zero h)
  rw [pdpRequest] at hresp
  rw [decide, if_neg (Nat.not_lt_of_le hr.justification), if_neg hfields, hverified]
  simp only [if_neg hsome, hresp]

/-- **A decision carries the PDP's answer** exactly when the request reached
the PDP and the PDP answered; it is then that answer. -/
theorem decide_signed_iff {now : ProtoTimestamp} {req : AccessRequest} {d : Decision}
    {resp : DecisionResponse} :
    b.decide now req = .ok d ∧ d.signed = some resp ↔
      b.Reaches req ∧ b.policyClient (b.pdpRequest now req) = .ok resp ∧
        d = .ofResponse resp := by
  constructor
  · rintro ⟨h, hs⟩
    rcases decide_cases h with ⟨reason, rfl⟩ | ⟨resp', hr, hresp, rfl⟩
    · cases hs
    · obtain rfl := Option.some.inj hs
      exact ⟨hr, hresp, rfl⟩
  · rintro ⟨hr, hresp, rfl⟩
    exact ⟨decide_reached hr hresp, rfl⟩

/-- **Only the PDP allows.** -/
theorem decide_allowed_iff {now : ProtoTimestamp} {req : AccessRequest} :
    (∃ d, b.decide now req = .ok d ∧ d.allowed = true) ↔
      b.Reaches req ∧ ∃ resp, b.policyClient (b.pdpRequest now req) = .ok resp ∧
        resp.effect = effectAllow := by
  constructor
  · rintro ⟨d, h, ha⟩
    rcases decide_cases h with ⟨reason, rfl⟩ | ⟨resp, hr, hresp, rfl⟩
    · cases ha
    · exact ⟨hr, resp, hresp, beq_iff_eq.mp ha⟩
  · rintro ⟨hr, resp, hresp, ha⟩
    exact ⟨_, decide_reached hr hresp, beq_iff_eq.mpr ha⟩

end Broker

/-! ## The request body -/

namespace Body

structure Approval where
  approvedAt : ProtoTimestamp
  assertion : Bytes

structure Posture where
  agentVersion : Option String
  diskEncrypted : Option Bool
  evaluatedAt : Option ProtoTimestamp
  managed : Option Bool

structure Resource where
  attributes : Option Attributes
  authorityDomain : String
  id : String
  type : String

end Body

structure AccessRequestBody where
  approvals : Option (List Body.Approval)
  expectedAuthorityDomain : String
  justification : String
  posture : Option Body.Posture
  resource : Body.Resource
  sourceNetwork : Option String
  ticketRef : String
  verb : String

/-- `time.Time{}`: the first of January of year 1. -/
def zeroTime : ProtoTimestamp := ⟨-62135596800, 0⟩

def zeroPosture : Broker.Posture := ⟨false, false, "", zeroTime⟩

def posturefrom (p : Body.Posture) : Broker.Posture where
  managed := p.managed.getD false
  diskEncrypted := p.diskEncrypted.getD false
  agentVersion := p.agentVersion.getD ""
  evaluatedAt := p.evaluatedAt.getD zeroTime

def attributesOrEmpty (m : Option Attributes) : Attributes := m.getD ⟨[], List.nodup_nil⟩

/-- The principal is the verified assertion, never a field of the body. -/
def accessRequest (requestId : String) (authenticatedAt : ProtoTimestamp)
    (body : AccessRequestBody) (verifyResp : VerifyAssertionResponse) : Broker.AccessRequest where
  requestId := requestId
  principal := {
    subjectId := verifyResp.subjectId
    aal := verifyResp.aal
    authMethod := verifyResp.authMethod
    authenticatedAt := authenticatedAt
    roles := []
    authorityDomain := body.expectedAuthorityDomain }
  verb := body.verb
  resource := {
    type := body.resource.type
    id := body.resource.id
    authorityDomain := body.resource.authorityDomain
    attributes := attributesOrEmpty body.resource.attributes }
  sourceNetwork := body.sourceNetwork.getD ""
  posture := (body.posture.map posturefrom).getD zeroPosture
  ticketRef := body.ticketRef
  justification := body.justification
  approvals := (body.approvals.getD []).map fun a => ⟨a.assertion, a.approvedAt⟩
  expectedAuthorityDomain := body.expectedAuthorityDomain

/-! ## The handler -/

structure DecisionBody where
  allowed : Bool
  reasons : List String
  decisionHash : Bytes
  policyVersion : String
  leaseId : Option String
  leaseDurationSeconds : Option Int

inductive HttpResponse where
  | error (status : Nat) (reason : String)
  | decision (resp : DecisionBody)

/-- `Allowed = true` was returned. -/
def HttpResponse.allowed : HttpResponse → Bool
  | .error _ _ => false
  | .decision resp => resp.allowed

def HttpResponse.leaseId : HttpResponse → Option String
  | .error _ _ => none
  | .decision resp => resp.leaseId

/-- `AsDuration`, in nanoseconds: a product or a sum that leaves `int64` is
replaced by the bound on the side of the seconds. -/
def asDuration (d : ProtoDuration) : Int :=
  let seconds := d.seconds.toInt * 1000000000
  let total := seconds + d.nanos.toInt
  if seconds < -2 ^ 63 ∨ 2 ^ 63 ≤ seconds ∨ total < -2 ^ 63 ∨ 2 ^ 63 ≤ total then
    if d.seconds < 0 then -2 ^ 63 else 2 ^ 63 - 1
  else total

/-- `Duration.Seconds`: the whole seconds and the nanoseconds that are left
become floats apart, and are added as floats. -/
def floatSeconds (d : Int) : ℚ :=
  Binary64.add (Binary64.ofInt (d.tdiv 1000000000))
    (Binary64.div (Binary64.ofInt (d.tmod 1000000000)) 1000000000)

/-- `int(d.AsDuration().Seconds())`. -/
def durationSeconds (d : ProtoDuration) : Int := Binary64.truncate (floatSeconds (asDuration d))

/-- `uint32(MaxTtl.AsDuration().Seconds())`; the conversion goes through `int64`
and keeps the low bits. -/
def grantedTtl (maxTtl : Option ProtoDuration) : Option UInt32 :=
  maxTtl.map fun d => UInt32.ofNat (durationSeconds d % 2 ^ 32).toNat

def optionalString (s : String) : Option String := if s = "" then none else some s

def optionalStringPtr (s : Option String) : Option String := s.bind optionalString

/-- The event `recordPolicyDecided` sends. -/
def policyDecidedEvent (requestId : String) (body : AccessRequestBody)
    (verifyResp : VerifyAssertionResponse) (allowed : Bool) (signed : DecisionResponse) :
    Audit.RawEvent where
  authorityDomain := body.expectedAuthorityDomain
  eventType := "policy.decided"
  actor := some {
    subjectId := verifyResp.subjectId
    kind := "human"
    aal := optionalString verifyResp.aal
    authMethod := optionalString verifyResp.authMethod }
  target := some ⟨body.resource.type, body.resource.id⟩
  outcome := if allowed then "success" else "denied"
  context := some {
    sourceNetwork := optionalStringPtr body.sourceNetwork
    ticketRef := optionalString body.ticketRef
    justification := optionalString body.justification }
  decision := some {
    requestId := requestId
    decisionHash := signed.decisionHash
    policyVersion := signed.policyVersion
    reasons := signed.reasons
    grantedTtlSeconds := grantedTtl signed.maxTtl
    decisionSignature :=
      (Issuance.optionalSignature signed.decisionSignature signed.decisionSignatureKeyId).1
    decisionSignatureKeyId :=
      (Issuance.optionalSignature signed.decisionSignature signed.decisionSignatureKeyId).2 }

/-- The order for an allowed request; `GetAal` reads an absent field as empty. -/
def emissionOrder (requestId : String) (body : AccessRequestBody)
    (verifyResp : VerifyAssertionResponse) (signed : DecisionResponse) :
    Issuance.EmissionOrder where
  verb := body.verb
  resourceType := body.resource.type
  resourceId := body.resource.id
  authorityDomain := body.resource.authorityDomain
  decision := some signed
  requestId := requestId
  subjectId := verifyResp.subjectId
  aal := (optionalString verifyResp.aal).getD ""
  authMethod := (optionalString verifyResp.authMethod).getD ""

/-- One identity client serves the handler and the broker. -/
structure API (σ : Type) where
  broker : Broker
  credentialClient : Issuance.EmissionOrder → σ → Except String Issuance.EmissionResult × σ
  auditClient : Audit.RawEvent → σ → Except String Audit.RecordResult × σ

/-- What one request draws: an identifier and two readings of the clock. -/
structure Draw where
  newV7 : Except String String
  authenticatedAt : ProtoTimestamp
  requestedAt : ProtoTimestamp

namespace API

variable {σ : Type}

/-- Best effort: the result is only logged. -/
def recordPolicyDecided (h : API σ) (requestId : String) (body : AccessRequestBody)
    (verifyResp : VerifyAssertionResponse) (allowed : Bool) (signed : DecisionResponse) (s : σ) :
    σ :=
  (h.auditClient (policyDecidedEvent requestId body verifyResp allowed signed) s).2

/-- A lease completes the response; no failure of the emission changes it. -/
def withLease (emission : Except String Issuance.EmissionResult) (resp : DecisionBody) :
    DecisionBody :=
  match emission with
  | .error _ => resp
  | .ok emission =>
      if emission.allowed then
        { resp with
          leaseId := some emission.leaseId
          leaseDurationSeconds := emission.leaseDuration.map durationSeconds }
      else resp

/-- The handler once the decision is known. -/
def respond (h : API σ) (requestId : String) (body : AccessRequestBody)
    (verifyResp : VerifyAssertionResponse) (decision : Broker.Decision) (s : σ) :
    HttpResponse × σ :=
  let resp : DecisionBody :=
    ⟨decision.allowed, decision.reasons, decision.decisionHash, decision.policyVersion, none, none⟩
  match decision.signed with
  | none => (.decision resp, s)
  | some signed =>
      let s := h.recordPolicyDecided requestId body verifyResp decision.allowed signed s
      if decision.allowed then
        let (emission, s) :=
          h.credentialClient (emissionOrder requestId body verifyResp signed) s
        (.decision (withLease emission resp), s)
      else (.decision resp, s)

/-- The handler once the body is read. -/
def handle (h : API σ) (draw : Draw) (assertion : Bytes) (body : AccessRequestBody) (s : σ) :
    HttpResponse × σ :=
  match h.broker.identityClient assertion body.expectedAuthorityDomain with
  | .error _ => (.error 502 "verification_du_demandeur_indisponible", s)
  | .ok verifyResp =>
      if !verifyResp.valid then
        (.error 401 ("assertion_du_demandeur_invalide:" ++ verifyResp.reason), s)
      else
        match draw.newV7 with
        | .error _ => (.error 500 "generation_de_lidentifiant_de_requete", s)
        | .ok requestId =>
            match h.broker.decide draw.requestedAt
              (accessRequest requestId draw.authenticatedAt body verifyResp) with
            | .error _ => (.error 502 "echec_de_transport", s)
            | .ok decision => h.respond requestId body verifyResp decision s

/-- `CreateAccessRequest`; no body is one that does not decode. -/
def createAccessRequest (h : API σ) (draw : Draw) (assertion : Bytes)
    (body : Option AccessRequestBody) (s : σ) : HttpResponse × σ :=
  match body with
  | none => (.error 400 "corps_de_requete_malforme", s)
  | some body => h.handle draw assertion body s

end API

end ZeroSecret.Access
