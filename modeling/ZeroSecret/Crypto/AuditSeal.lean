import ZeroSecret.Crypto.Common

/-!
# `zs-crypto/src/audit_seal.rs`: the sealed audit event

The document is built twice by hand: from the typed fields when it is sealed,
from the parsed wire form when it is verified. Both are here as the source
writes them. Members are inserted in the source's order; every key is
inserted once, so an insertion is an append.

The HSM is an argument of `seal`: an ECDSA signature is randomised, so the
answer belongs to the call and not to the sealer.
-/

namespace ZeroSecret.Crypto.AuditSeal

open Json (fieldTable required optional asStr asNat asList)

def suiteV1 : String := "audit-seal/v1"
def domainPrefixV1 : String := "zero-secret/audit-seal/v1"
def maxBytes : Nat := 8192
def requiredComponentsV1 : List String := ["ecdsa-p256"]
def maxReasons : Nat := 16
def maxSafeInteger : Nat := 2 ^ 53 - 1

/-! ## Fields -/

abbrev AuthorityDomain : Type := BoundedAscii 128 "authority_domain"
abbrev ShortText : Type := BoundedAscii 256 "text"
abbrev Justification : Type := BoundedAscii 512 "context.justification"
abbrev PolicyVersion : Type := BoundedAscii 256 "decision.policy_version"
abbrev Reason : Type := BoundedAscii 256 "decision.reasons"

def AuthorityDomain.new : String → Except FieldError AuthorityDomain :=
  BoundedAscii.new 128 "authority_domain"
def ShortText.new : String → Except FieldError ShortText := BoundedAscii.new 256 "text"
def Justification.new : String → Except FieldError Justification :=
  BoundedAscii.new 512 "context.justification"
def PolicyVersion.new : String → Except FieldError PolicyVersion :=
  BoundedAscii.new 256 "decision.policy_version"
def Reason.new : String → Except FieldError Reason := BoundedAscii.new 256 "decision.reasons"

/-- Bounded so that a JavaScript verifier keeps the exact value. -/
abbrev Sequence : Type := { n : Nat // n ≤ maxSafeInteger }

def Sequence.new (value : Nat) : Except FieldError Sequence :=
  if h : value ≤ maxSafeInteger then .ok ⟨value, h⟩ else .error ⟨"sequence"⟩

inductive EventType where
  | authenticatorRegistered
  | authenticatorRevoked
  | authenticationAttempted
  | authenticationSucceeded
  | authenticationFailed
  | recoveryInitiated
  | quorumOperation
  | auditChainVerified
  | policyDecided
  | credentialIssued
deriving DecidableEq

namespace EventType

def asContractStr : EventType → String
  | .authenticatorRegistered => "authenticator.registered"
  | .authenticatorRevoked => "authenticator.revoked"
  | .authenticationAttempted => "authentication.attempted"
  | .authenticationSucceeded => "authentication.succeeded"
  | .authenticationFailed => "authentication.failed"
  | .recoveryInitiated => "recovery.initiated"
  | .quorumOperation => "quorum.operation"
  | .auditChainVerified => "audit.chain_verified"
  | .policyDecided => "policy.decided"
  | .credentialIssued => "credential.issued"

def fromContractStr (s : String) : Option EventType :=
  match s with
  | "authenticator.registered" => some .authenticatorRegistered
  | "authenticator.revoked" => some .authenticatorRevoked
  | "authentication.attempted" => some .authenticationAttempted
  | "authentication.succeeded" => some .authenticationSucceeded
  | "authentication.failed" => some .authenticationFailed
  | "recovery.initiated" => some .recoveryInitiated
  | "quorum.operation" => some .quorumOperation
  | "audit.chain_verified" => some .auditChainVerified
  | "policy.decided" => some .policyDecided
  | "credential.issued" => some .credentialIssued
  | _ => none

def requiresDecision : EventType → Bool
  | .policyDecided => true
  | .credentialIssued => true
  | _ => false

theorem fromContractStr_asContractStr (t : EventType) :
    fromContractStr t.asContractStr = some t := by
  cases t <;> rfl

end EventType

inductive ActorKind where
  | human
  | workload
  | system
deriving DecidableEq

def ActorKind.asContractStr : ActorKind → String
  | .human => "human"
  | .workload => "workload"
  | .system => "system"

def ActorKind.fromContractStr (s : String) : Option ActorKind :=
  match s with
  | "human" => some .human
  | "workload" => some .workload
  | "system" => some .system
  | _ => none

theorem ActorKind.fromContractStr_asContractStr (k : ActorKind) :
    ActorKind.fromContractStr k.asContractStr = some k := by
  cases k <;> rfl

inductive Outcome where
  | success
  | denied
  | error
deriving DecidableEq

def Outcome.asContractStr : Outcome → String
  | .success => "success"
  | .denied => "denied"
  | .error => "error"

def Outcome.fromContractStr (s : String) : Option Outcome :=
  match s with
  | "success" => some .success
  | "denied" => some .denied
  | "error" => some .error
  | _ => none

theorem Outcome.fromContractStr_asContractStr (o : Outcome) :
    Outcome.fromContractStr o.asContractStr = some o := by
  cases o <;> rfl

structure Actor where
  subjectId : SubjectId
  kind : ActorKind
  aal : Option AssuranceLevel
  authMethod : Option AuthMethod

structure Target where
  targetType : ShortText
  id : ShortText

structure Context where
  sourceNetwork : Option ShortText
  ticketRef : Option ShortText
  justification : Option Justification

structure DecisionInfo where
  requestId : RequestId
  decisionHash : Digest
  policyVersion : PolicyVersion
  reasons : List Reason
  grantedTtlSeconds : Option UInt32
  decisionSignature : Option Bytes
  decisionSignatureKeyId : Option ShortText

structure AuditEventFields where
  eventId : EventId
  sequence : Sequence
  prevHash : Digest
  occurredAt : Timestamp
  authorityDomain : AuthorityDomain
  eventType : EventType
  actor : Actor
  target : Option Target
  outcome : Outcome
  context : Option Context
  decision : Option DecisionInfo

/-! ## The unsigned document -/

/-- Members of a JSON object, in insertion order. -/
abbrev Members : Type := List (String × Json)

/-- `if let Some(v) = … { map.insert(key, v) }`. -/
def member? (key : String) : Option Json → Members
  | some v => [(key, v)]
  | none => []

def actorValue (actor : Actor) : Json :=
  .obj ([("subject_id", .str actor.subjectId.val),
      ("kind", .str actor.kind.asContractStr)] ++
    member? "aal" (actor.aal.map fun a => .str a.asStr) ++
    member? "auth_method" (actor.authMethod.map fun m => .str m.val))

def targetValue (target : Target) : Json :=
  .obj [("type", .str target.targetType.val), ("id", .str target.id.val)]

def contextValue (context : Context) : Json :=
  .obj (member? "source_network" (context.sourceNetwork.map fun v => .str v.val) ++
    member? "ticket_ref" (context.ticketRef.map fun v => .str v.val) ++
    member? "justification" (context.justification.map fun v => .str v.val))

def decisionValue (decision : DecisionInfo) : Json :=
  .obj ([("request_id", .str decision.requestId.val),
      ("decision_hash", .str (hexEncode decision.decisionHash.val)),
      ("policy_version", .str decision.policyVersion.val),
      ("reasons", .arr (decision.reasons.map fun r => .str r.val))] ++
    member? "granted_ttl_seconds" (decision.grantedTtlSeconds.map fun t => .num t.toNat) ++
    member? "decision_signature"
      (decision.decisionSignature.map fun sig => .str (hexEncode sig)) ++
    member? "decision_signature_key_id"
      (decision.decisionSignatureKeyId.map fun k => .str k.val))

def unsignedDocument (fields : AuditEventFields) : Members :=
  [("schema_version", .num 1),
    ("event_id", .str fields.eventId.val),
    ("sequence", .num fields.sequence.val),
    ("prev_hash", .str (hexEncode fields.prevHash.val)),
    ("occurred_at", .str fields.occurredAt.val),
    ("authority_domain", .str fields.authorityDomain.val),
    ("event_type", .str fields.eventType.asContractStr),
    ("actor", actorValue fields.actor)] ++
  member? "target" (fields.target.map targetValue) ++
  [("outcome", .str fields.outcome.asContractStr)] ++
  member? "context" (fields.context.map contextValue) ++
  member? "decision" (fields.decision.map decisionValue)

/-- `m = prefix ‖ 0x00 ‖ jcs(document without "signature")`. -/
def signedMessage (domainPrefix : String) (unsigned : Members) : Bytes :=
  octets domainPrefix ++ [0x00] ++ canonicalBytes (.obj unsigned)

/-! ## Sealing -/

inductive SealError where
  | invalidFields (field : String)
  | sealingUnavailable
deriving DecidableEq

def SealError.toString : SealError → String
  | .invalidFields field => "contenu d'événement invalide : champ '" ++ field ++ "'"
  | .sealingUnavailable => "scellement indisponible"

def validateDecisionCoupling (eventType : EventType) (decision : Option DecisionInfo) :
    Except SealError Unit :=
  if eventType.requiresDecision != decision.isSome then
    .error (.invalidFields "decision")
  else
    match decision with
    | some d =>
        if maxReasons < d.reasons.length then .error (.invalidFields "decision.reasons")
        else .ok ()
    | none => .ok ()

/-- The `signature` member: suite and the single component of `v1`. -/
def signatureValue (keyId value : String) : Json :=
  .obj [("suite", .str suiteV1),
    ("components", .arr [.obj [("component", .str "ecdsa-p256"),
      ("key_id", .str keyId), ("value", .str value)]])]

/-- What the signature will add, measured on a placeholder of 128 digits. -/
def signatureOverheadBytes (keyId : String) : Nat :=
  1 + (octets "\"signature\":").length +
    (canonicalBytes (signatureValue keyId (String.ofList (List.replicate 128 '0')))).length

def validateSize (unsigned : Members) (keyId : String) : Except SealError Unit :=
  if maxBytes < (canonicalBytes (.obj unsigned)).length + signatureOverheadBytes keyId then
    .error (.invalidFields "size")
  else .ok ()

/-- The complete document around a signature. -/
def sealedDocument (unsigned : Members) (keyId : String) (signature : Bytes) : Bytes :=
  canonicalBytes (.obj (unsigned ++
    [("signature", signatureValue keyId (hexEncode signature))]))

structure AuditSealer where
  keyId : String

/-- `AuditSealer::open` once the HSM has published its key. -/
def AuditSealer.ofPublicKey (P : Primitives) (publicKey : Bytes) : AuditSealer :=
  ⟨keyIdFromPublicKey P publicKey⟩

/-- The HSM's answer to `sign_digest`; every failure is opaque. -/
abbrev HsmAnswer : Type := Digest → Option Bytes

def AuditSealer.seal (P : Primitives) (sealer : AuditSealer) (hsm : HsmAnswer)
    (fields : AuditEventFields) : Except SealError Bytes := do
  validateDecisionCoupling fields.eventType fields.decision
  let unsigned := unsignedDocument fields
  validateSize unsigned sealer.keyId
  let digest := P.sha256 (signedMessage domainPrefixV1 unsigned)
  match hsm digest with
  | none => .error .sealingUnavailable
  | some signature => .ok (sealedDocument unsigned sealer.keyId signature)

/-! ## The wire form -/

structure WireActor where
  subjectId : String
  kind : String
  aal : Option String
  authMethod : Option String

structure WireTarget where
  targetType : String
  id : String

structure WireContext where
  sourceNetwork : Option String
  ticketRef : Option String
  justification : Option String

structure WireDecision where
  requestId : String
  decisionHash : String
  policyVersion : String
  reasons : List String
  grantedTtlSeconds : Option Nat
  decisionSignature : Option String
  decisionSignatureKeyId : Option String

structure WireSignatureComponent where
  component : String
  keyId : String
  value : String

structure WireSignature where
  suite : String
  components : List WireSignatureComponent

structure WireDocument where
  schemaVersion : Nat
  eventId : String
  sequence : Nat
  occurredAt : String
  authorityDomain : String
  eventType : String
  actor : WireActor
  target : Option WireTarget
  outcome : String
  context : Option WireContext
  decision : Option WireDecision
  prevHash : String
  signature : WireSignature

def WireActor.read (v : Json) : Option WireActor := do
  let f ← fieldTable ["subject_id", "kind", "aal", "auth_method"] v
  some {
    subjectId := ← required f "subject_id" asStr
    kind := ← required f "kind" asStr
    aal := ← optional f "aal" asStr
    authMethod := ← optional f "auth_method" asStr }

def WireTarget.read (v : Json) : Option WireTarget := do
  let f ← fieldTable ["type", "id"] v
  some {
    targetType := ← required f "type" asStr
    id := ← required f "id" asStr }

def WireContext.read (v : Json) : Option WireContext := do
  let f ← fieldTable ["source_network", "ticket_ref", "justification"] v
  some {
    sourceNetwork := ← optional f "source_network" asStr
    ticketRef := ← optional f "ticket_ref" asStr
    justification := ← optional f "justification" asStr }

def WireDecision.read (v : Json) : Option WireDecision := do
  let f ← fieldTable ["request_id", "decision_hash", "policy_version", "reasons",
    "granted_ttl_seconds", "decision_signature", "decision_signature_key_id"] v
  some {
    requestId := ← required f "request_id" asStr
    decisionHash := ← required f "decision_hash" asStr
    policyVersion := ← required f "policy_version" asStr
    reasons := ← required f "reasons" (asList asStr)
    grantedTtlSeconds := ← optional f "granted_ttl_seconds" (asNat (2 ^ 64))
    decisionSignature := ← optional f "decision_signature" asStr
    decisionSignatureKeyId := ← optional f "decision_signature_key_id" asStr }

def WireSignatureComponent.read (v : Json) : Option WireSignatureComponent := do
  let f ← fieldTable ["component", "key_id", "value"] v
  some {
    component := ← required f "component" asStr
    keyId := ← required f "key_id" asStr
    value := ← required f "value" asStr }

def WireSignature.read (v : Json) : Option WireSignature := do
  let f ← fieldTable ["suite", "components"] v
  some {
    suite := ← required f "suite" asStr
    components := ← required f "components" (asList WireSignatureComponent.read) }

def WireDocument.read (v : Json) : Option WireDocument := do
  let f ← fieldTable ["schema_version", "event_id", "sequence", "occurred_at",
    "authority_domain", "event_type", "actor", "target", "outcome", "context",
    "decision", "prev_hash", "signature"] v
  some {
    schemaVersion := ← required f "schema_version" (asNat (2 ^ 32))
    eventId := ← required f "event_id" asStr
    sequence := ← required f "sequence" (asNat (2 ^ 64))
    occurredAt := ← required f "occurred_at" asStr
    authorityDomain := ← required f "authority_domain" asStr
    eventType := ← required f "event_type" asStr
    actor := ← required f "actor" WireActor.read
    target := ← optional f "target" WireTarget.read
    outcome := ← required f "outcome" asStr
    context := ← optional f "context" WireContext.read
    decision := ← optional f "decision" WireDecision.read
    prevHash := ← required f "prev_hash" asStr
    signature := ← required f "signature" WireSignature.read }

/-- `serde_json::from_slice::<WireDocument>`. -/
def WireDocument.fromSlice (bytes : Bytes) : Option WireDocument :=
  (Json.fromSlice bytes).bind WireDocument.read

def unsignedDocumentFromWire (doc : WireDocument) : Members :=
  [("schema_version", .num doc.schemaVersion),
    ("event_id", .str doc.eventId),
    ("sequence", .num doc.sequence),
    ("prev_hash", .str doc.prevHash),
    ("occurred_at", .str doc.occurredAt),
    ("authority_domain", .str doc.authorityDomain),
    ("event_type", .str doc.eventType),
    ("actor", .obj ([("subject_id", .str doc.actor.subjectId),
        ("kind", .str doc.actor.kind)] ++
      member? "aal" (doc.actor.aal.map .str) ++
      member? "auth_method" (doc.actor.authMethod.map .str)))] ++
  member? "target" (doc.target.map fun t =>
    .obj [("type", .str t.targetType), ("id", .str t.id)]) ++
  [("outcome", .str doc.outcome)] ++
  member? "context" (doc.context.map fun c =>
    .obj (member? "source_network" (c.sourceNetwork.map .str) ++
      member? "ticket_ref" (c.ticketRef.map .str) ++
      member? "justification" (c.justification.map .str))) ++
  member? "decision" (doc.decision.map fun d =>
    .obj ([("request_id", .str d.requestId),
        ("decision_hash", .str d.decisionHash),
        ("policy_version", .str d.policyVersion),
        ("reasons", .arr (d.reasons.map .str))] ++
      member? "granted_ttl_seconds" (d.grantedTtlSeconds.map fun (t : Nat) => .num t) ++
      member? "decision_signature" (d.decisionSignature.map .str) ++
      member? "decision_signature_key_id" (d.decisionSignatureKeyId.map .str)))

def signatureFromWire (sig : WireSignature) : Json :=
  .obj [("suite", .str sig.suite),
    ("components", .arr (sig.components.map fun c =>
      .obj [("component", .str c.component), ("key_id", .str c.keyId),
        ("value", .str c.value)]))]

/-! ## Verification -/

structure AcceptedVerifyingKey where
  keyId : String
  raw : Bytes

inductive VerifyError where
  | unknownSuite
  | malformedKey
  | tooLarge
  | malformedDocument
  | nonCanonical
  | invalidSignatureArity
  | unknownKeyId
  | invalidSignature
  | unexpectedAuthorityDomain
deriving DecidableEq

def acceptVerifyingKey (suite keyId : String) (sec1Uncompressed : Bytes) :
    Except VerifyError AcceptedVerifyingKey :=
  if suite ≠ suiteV1 then .error .unknownSuite
  else if sec1Uncompressed.length ≠ 65 ∨ sec1Uncompressed.head? ≠ some 0x04 then
    .error .malformedKey
  else .ok ⟨keyId, sec1Uncompressed⟩

structure AcceptancePolicy where
  acceptedSuites : List String
  expectedAuthorityDomain : String

structure VerifiedAuditEvent where
  eventId : String
  sequence : Nat
  prevHash : Digest
  occurredAt : String
  authorityDomain : String
  eventType : EventType

def requiredComponents (suite : String) : Except VerifyError (List String) :=
  if suite = suiteV1 then .ok requiredComponentsV1 else .error .unknownSuite

def domainPrefixFor (suite : String) : Except VerifyError String :=
  if suite = suiteV1 then .ok domainPrefixV1 else .error .unknownSuite

/-- The loop over the components: resolution failures stop it, an invalid
signature does not. -/
def verifyComponents (P : Primitives) (keys : List AcceptedVerifyingKey) (message : Bytes) :
    List WireSignatureComponent → Bool → Except VerifyError Bool
  | [], allValid => .ok allValid
  | c :: cs, allValid =>
      match keys.find? fun k => k.keyId == c.keyId with
      | none => .error .unknownKeyId
      | some key =>
          match hexDecode c.value with
          | none => .error .invalidSignature
          | some sig =>
              verifyComponents P keys message cs
                (allValid && P.ecdsaP256Sha256Fixed key.raw message sig)

/-- The checks on a decision that `verify` makes before the signature. -/
def checkWireDecision : Option WireDecision → Except VerifyError Unit
  | none => .ok ()
  | some d =>
      if maxReasons < d.reasons.length then .error .malformedDocument
      else
        match hexDecode d.decisionHash with
        | none => .error .malformedDocument
        | some hash => if hash.length ≠ 32 then .error .malformedDocument else .ok ()

def orMalformed {α : Type} : Option α → Except VerifyError α
  | some a => .ok a
  | none => .error .malformedDocument

/-- `copy_from_slice` into `[u8; 32]`, after the length test. -/
def toDigest (bytes : Bytes) : Except VerifyError Digest :=
  if h : bytes.length = 32 then .ok ⟨bytes, h⟩ else .error .malformedDocument

def guardThat (b : Bool) (e : VerifyError) : Except VerifyError Unit :=
  if b then .ok () else .error e

def verify (P : Primitives) (keys : List AcceptedVerifyingKey) (bytes : Bytes)
    (policy : AcceptancePolicy) : Except VerifyError VerifiedAuditEvent := do
  guardThat (bytes.length ≤ maxBytes) .tooLarge
  let doc ← orMalformed (WireDocument.fromSlice bytes)
  guardThat (doc.schemaVersion == 1) .malformedDocument
  guardThat (policy.acceptedSuites.contains doc.signature.suite) .unknownSuite
  let eventType ← orMalformed (EventType.fromContractStr doc.eventType)
  let _ ← orMalformed (ActorKind.fromContractStr doc.actor.kind)
  let _ ← orMalformed (Outcome.fromContractStr doc.outcome)
  guardThat (eventType.requiresDecision == doc.decision.isSome) .malformedDocument
  checkWireDecision doc.decision
  let wanted ← requiredComponents doc.signature.suite
  guardThat (doc.signature.components.length == wanted.length &&
    (doc.signature.components.zip wanted).all fun p => p.1.component == p.2)
    .invalidSignatureArity
  let unsigned := unsignedDocumentFromWire doc
  guardThat (canonicalBytes (.obj (unsigned ++
    [("signature", signatureFromWire doc.signature)])) == bytes) .nonCanonical
  let domainPrefix ← domainPrefixFor doc.signature.suite
  let message := signedMessage domainPrefix unsigned
  let allValid ← verifyComponents P keys message doc.signature.components true
  guardThat allValid .invalidSignature
  guardThat (doc.authorityDomain == policy.expectedAuthorityDomain)
    .unexpectedAuthorityDomain
  let prevHashBytes ← orMalformed (hexDecode doc.prevHash)
  let prevHash ← toDigest prevHashBytes
  .ok {
    eventId := doc.eventId
    sequence := doc.sequence
    prevHash := prevHash
    occurredAt := doc.occurredAt
    authorityDomain := doc.authorityDomain
    eventType := eventType }

def sampleDomain : AuthorityDomain := ⟨"acme", by decide, by decide, by decide⟩

end ZeroSecret.Crypto.AuditSeal
