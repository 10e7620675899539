import ZeroSecret.Base.Fallible
import ZeroSecret.Crypto.AuditSeal

/-!
# `apps/audit-sealer`: the sealing service

The messages of `audit/v1/sealing.proto`, their conversion to typed fields
(with the text of every refusal), the calendar and the two methods of the
service. A refused field is `InvalidArgument`; a refusal of `seal` itself is
`Unavailable`, whatever its cause.
-/

namespace ZeroSecret.Audit

open Crypto Crypto.AuditSeal Fallible

/-! ## Messages -/

structure ProtoTimestamp where
  seconds : Int
  nanos : Int
deriving DecidableEq

structure ProtoActor where
  subjectId : String
  kind : String
  aal : Option String
  authMethod : Option String
deriving DecidableEq

structure ProtoTarget where
  type : String
  id : String
deriving DecidableEq

structure ProtoContext where
  sourceNetwork : Option String
  ticketRef : Option String
  justification : Option String
deriving DecidableEq

structure ProtoDecision where
  requestId : String
  decisionHash : Bytes
  policyVersion : String
  reasons : List String
  grantedTtlSeconds : Option UInt32
  decisionSignature : Option Bytes
  decisionSignatureKeyId : Option String
deriving DecidableEq

structure SealRequest where
  eventId : String
  sequence : UInt64
  prevHash : Bytes
  occurredAt : Option ProtoTimestamp
  authorityDomain : String
  eventType : String
  actor : Option ProtoActor
  target : Option ProtoTarget
  outcome : String
  context : Option ProtoContext
  decision : Option ProtoDecision
deriving DecidableEq

def rfc3339FromSeconds (totalSeconds : Int) : String := Calendar.rfc3339 totalSeconds

/-! ## Conversions -/

/-- The closed vocabulary is the one of `audit_seal.rs`. -/
def eventTypeFromStr (s : String) : Option EventType :=
  match s with
  | "authenticator.registered" => some .authenticatorRegistered
  | "authenticator.revoked" => some .authenticatorRevoked
  | "authentication.attempted" => some .authenticationAttempted
  | "authentication.succeeded" => some .authenticationSucceeded
  | "authentication.failed" => some .authenticationFailed
  | "recovery.initiated" => some .recoveryInitiated
  | "quorum.operation" => some .quorumOperation
  | "audit.chain_verified" => some .auditChainVerified
  | "policy.decided" => some .policyDecided
  | "credential.issued" => some .credentialIssued
  | _ => none

def actorKindFromStr (s : String) : Option ActorKind :=
  match s with
  | "human" => some .human
  | "workload" => some .workload
  | "system" => some .system
  | _ => none

def outcomeFromStr (s : String) : Option Outcome :=
  match s with
  | "success" => some .success
  | "denied" => some .denied
  | "error" => some .error
  | _ => none

def assuranceLevelFromStr (s : String) : Option AssuranceLevel :=
  match s with
  | "AAL1" => some .aal1
  | "AAL2" => some .aal2
  | "AAL3" => some .aal3
  | _ => none

/-- `map_err(|e| e.to_string())`. -/
def fieldOr {α : Type} : Except FieldError α → Except String α
  | .ok a => .ok a
  | .error e => .error e.toString

/-- `.map(f).transpose()`. -/
def transpose {α β : Type} (f : α → Except String β) : Option α → Except String (Option β)
  | none => .ok none
  | some a => (f a).map some

/-- `try_into::<[u8; 32]>()`. -/
def digest32 (bytes : Bytes) : Option Digest :=
  if h : bytes.length = 32 then some ⟨bytes, h⟩ else none

def actorFromProto (actor : ProtoActor) : Except String Actor := do
  let kind ← okOr "actor_kind_inconnu" (actorKindFromStr actor.kind)
  let aal ← transpose (fun s => okOr "aal_inconnu" (assuranceLevelFromStr s)) actor.aal
  let authMethod ← transpose (fun s => fieldOr (AuthMethod.new s)) actor.authMethod
  let subjectId ← fieldOr (SubjectId.new actor.subjectId)
  .ok { subjectId, kind, aal, authMethod }

def targetFromProto (target : ProtoTarget) : Except String Target := do
  let targetType ← fieldOr (ShortText.new target.type)
  let id ← fieldOr (ShortText.new target.id)
  .ok { targetType, id }

def decisionFromProto (decision : ProtoDecision) : Except String DecisionInfo := do
  let decisionHash ← okOr "decision_hash_doit_faire_32_octets" (digest32 decision.decisionHash)
  let reasons ← decision.reasons.mapM fun r => fieldOr (Reason.new r)
  let requestId ← fieldOr (RequestId.new decision.requestId)
  let policyVersion ← fieldOr (PolicyVersion.new decision.policyVersion)
  let decisionSignatureKeyId ←
    transpose (fun s => fieldOr (ShortText.new s)) decision.decisionSignatureKeyId
  .ok {
    requestId, decisionHash, policyVersion, reasons
    grantedTtlSeconds := decision.grantedTtlSeconds
    decisionSignature := decision.decisionSignature
    decisionSignatureKeyId }

def contextFromProto (context : ProtoContext) : Except String Context := do
  let sourceNetwork ← transpose (fun s => fieldOr (ShortText.new s)) context.sourceNetwork
  let ticketRef ← transpose (fun s => fieldOr (ShortText.new s)) context.ticketRef
  let justification ←
    transpose (fun s => fieldOr (Justification.new s)) context.justification
  .ok { sourceNetwork, ticketRef, justification }

def fieldsFromRequest (req : SealRequest) : Except String AuditEventFields := do
  let eventType ← okOr "event_type_inconnu_ou_non_supporte" (eventTypeFromStr req.eventType)
  let outcome ← okOr "outcome_inconnu" (outcomeFromStr req.outcome)
  let prevHash ← okOr "prev_hash_doit_faire_32_octets" (digest32 req.prevHash)
  let occurredAt ← okOr "occurred_at_absent" req.occurredAt
  let occurredAtStr := rfc3339FromSeconds occurredAt.seconds
  let actor ← okOr "actor_absent" req.actor
  let actor ← actorFromProto actor
  let target ← transpose targetFromProto req.target
  let context ← transpose contextFromProto req.context
  let decision ← transpose decisionFromProto req.decision
  let eventId ← fieldOr (EventId.new req.eventId)
  let sequence ← fieldOr (Sequence.new req.sequence.toNat)
  let occurredAt ← fieldOr (Timestamp.new occurredAtStr)
  let authorityDomain ← fieldOr (AuthorityDomain.new req.authorityDomain)
  .ok {
    eventId, sequence, prevHash, occurredAt, authorityDomain, eventType, actor, target,
    outcome, context, decision }

/-! ## The service -/

/-- The gRPC codes the callers tell apart. -/
inductive Code where
  | invalidArgument
  | unavailable
  | other (code : Nat)
deriving DecidableEq

/-- The names of the others, in the order of their numbers. -/
def codeNames : List String :=
  ["OK", "Canceled", "Unknown", "InvalidArgument", "DeadlineExceeded", "NotFound", "AlreadyExists",
    "PermissionDenied", "ResourceExhausted", "FailedPrecondition", "Aborted", "OutOfRange",
    "Unimplemented", "Internal", "Unavailable", "DataLoss", "Unauthenticated"]

/-- `codes.Code.String`. -/
def Code.toString : Code → String
  | .invalidArgument => "InvalidArgument"
  | .unavailable => "Unavailable"
  | .other code => (codeNames[code]?).getD ("Code(" ++ Nat.repr code ++ ")")

structure Status where
  code : Code
  message : String
deriving DecidableEq

/-- The text of the Go error that carries the status. -/
def Status.toString (status : Status) : String :=
  "rpc error: code = " ++ status.code.toString ++ " desc = " ++ status.message

def SealerService.seal (P : Primitives) (sealer : AuditSealer) (hsm : HsmAnswer)
    (req : SealRequest) : Except Status Bytes :=
  match fieldsFromRequest req with
  | .error reason => .error ⟨.invalidArgument, reason⟩
  | .ok fields =>
      match sealer.seal P hsm fields with
      | .error e => .error ⟨.unavailable, "scellement indisponible : " ++ e.toString⟩
      | .ok sealed => .ok sealed

/-- `HashPrevious`; the facade of `zs_audit::hash_sealed_event`. -/
def SealerService.hashPrevious (P : Primitives) (sealedBytes : Bytes) : Bytes :=
  (P.sha256 sealedBytes).val

/-! ## What accepted fields hold -/

theorem fieldOr_eq_ok {α : Type} {r : Except FieldError α} {a : α} (h : fieldOr r = .ok a) :
    r = .ok a := by
  cases r with
  | error e => cases h
  | ok a' => exact congrArg _ (Except.ok.inj h)

theorem digest32_eq_some {bytes : Bytes} {d : Digest} (h : digest32 bytes = some d) :
    d.val = bytes := by
  rw [digest32] at h
  split at h
  · exact congrArg Subtype.val (Option.some.inj h).symm
  · cases h

theorem sequence_val_of_new {n : Nat} {s : Sequence} (h : Sequence.new n = .ok s) :
    s.val = n := by
  rw [Sequence.new] at h
  split at h
  · exact congrArg Subtype.val (Except.ok.inj h).symm
  · cases h

theorem uuid_val_of_new {field value : String} {requireV7 : Bool}
    {u : UuidString field requireV7} (h : UuidString.new field requireV7 value = .ok u) :
    u.val = value := by
  rw [UuidString.new] at h
  split at h
  · exact congrArg UuidString.val (Except.ok.inj h).symm
  · cases h

/-- **What accepted fields hold**: each is the conversion of its part of the
request. -/
structure Parsed (req : SealRequest) (fields : AuditEventFields) : Prop where
  eventType : eventTypeFromStr req.eventType = some fields.eventType
  outcome : outcomeFromStr req.outcome = some fields.outcome
  prevHash : digest32 req.prevHash = some fields.prevHash
  occurredAt : ∃ t, req.occurredAt = some t ∧
    Timestamp.new (rfc3339FromSeconds t.seconds) = .ok fields.occurredAt
  actor : ∃ a, req.actor = some a ∧ actorFromProto a = .ok fields.actor
  target : transpose targetFromProto req.target = .ok fields.target
  context : transpose contextFromProto req.context = .ok fields.context
  decision : transpose decisionFromProto req.decision = .ok fields.decision
  eventId : EventId.new req.eventId = .ok fields.eventId
  sequence : Sequence.new req.sequence.toNat = .ok fields.sequence
  authorityDomain : AuthorityDomain.new req.authorityDomain = .ok fields.authorityDomain

theorem fieldsFromRequest_eq_ok_iff {req : SealRequest} {fields : AuditEventFields} :
    fieldsFromRequest req = .ok fields ↔ Parsed req fields := by
  constructor
  · intro h
    rw [fieldsFromRequest] at h
    obtain ⟨_, heventType, h⟩ := bind_eq_ok h
    obtain ⟨_, houtcome, h⟩ := bind_eq_ok h
    obtain ⟨_, hprevHash, h⟩ := bind_eq_ok h
    obtain ⟨t, hoccurredAt, h⟩ := bind_eq_ok h
    obtain ⟨a, hactor, h⟩ := bind_eq_ok h
    obtain ⟨_, hactor', h⟩ := bind_eq_ok h
    obtain ⟨_, htarget, h⟩ := bind_eq_ok h
    obtain ⟨_, hcontext, h⟩ := bind_eq_ok h
    obtain ⟨_, hdecision, h⟩ := bind_eq_ok h
    obtain ⟨_, heventId, h⟩ := bind_eq_ok h
    obtain ⟨_, hsequence, h⟩ := bind_eq_ok h
    obtain ⟨_, htimestamp, h⟩ := bind_eq_ok h
    obtain ⟨_, hdomain, h⟩ := bind_eq_ok h
    obtain rfl := Except.ok.inj h
    exact {
      eventType := okOr_eq_ok heventType
      outcome := okOr_eq_ok houtcome
      prevHash := okOr_eq_ok hprevHash
      occurredAt := ⟨t, okOr_eq_ok hoccurredAt, fieldOr_eq_ok htimestamp⟩
      actor := ⟨a, okOr_eq_ok hactor, hactor'⟩
      target := htarget
      context := hcontext
      decision := hdecision
      eventId := fieldOr_eq_ok heventId
      sequence := fieldOr_eq_ok hsequence
      authorityDomain := fieldOr_eq_ok hdomain }
  · intro h
    obtain ⟨t, ht, htimestamp⟩ := h.occurredAt
    obtain ⟨a, ha, hactor⟩ := h.actor
    rw [fieldsFromRequest]
    simp only [h.eventType, h.outcome, h.prevHash, ht, ha, hactor, h.target, h.context,
      h.decision, h.eventId, h.sequence, htimestamp, h.authorityDomain, fieldOr, okOr_some,
      ok_bind]

/-- **The chain position a request asks for is the one its fields hold.** -/
theorem fieldsFromRequest_position {req : SealRequest} {fields : AuditEventFields}
    (h : fieldsFromRequest req = .ok fields) :
    fields.eventId.val = req.eventId ∧ fields.authorityDomain.val = req.authorityDomain ∧
      fields.sequence.val = req.sequence.toNat ∧ fields.prevHash.val = req.prevHash := by
  have p := fieldsFromRequest_eq_ok_iff.mp h
  exact ⟨uuid_val_of_new p.eventId, BoundedAscii.val_of_new p.authorityDomain,
    sequence_val_of_new p.sequence, digest32_eq_some p.prevHash⟩

/-- A sealed answer is the sealed document of the request's fields. -/
theorem SealerService.seal_eq_ok {P : Primitives} {sealer : AuditSealer} {hsm : HsmAnswer}
    {req : SealRequest} {out : Bytes} (h : SealerService.seal P sealer hsm req = .ok out) :
    ∃ fields, fieldsFromRequest req = .ok fields ∧ sealer.seal P hsm fields = .ok out := by
  rw [SealerService.seal] at h
  split at h
  · cases h
  · rename_i fields hf
    refine ⟨fields, hf, ?_⟩
    split at h
    · cases h
    · rename_i sealed hs
      rw [hs, Except.ok.inj h]

end ZeroSecret.Audit
