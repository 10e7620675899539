import ZeroSecret.Base.Interleave
import ZeroSecret.Policy.Service

/-!
# `apps/credential-issuer`: issuing a lease on a decision

`Issuer.Emit` as a program of separate steps: the verification call, the
replay store, the identifier generator and the OpenBao call. What the steps
answer is left to the world they run in.
-/

namespace ZeroSecret.Issuance

open Policy Interleave

structure EmissionOrder where
  verb : String
  resourceType : String
  resourceId : String
  authorityDomain : String
  decision : Option DecisionResponse
  requestId : String
  subjectId : String
  aal : String
  authMethod : String

structure Lease where
  id : String
  /-- `time.Duration`, in nanoseconds. -/
  leaseDuration : Int64
deriving DecidableEq

structure IssuedCredentialEvent where
  eventId : String
  requestId : String
  subjectId : String
  aal : String
  authMethod : String
  decisionHash : Bytes
  policyVersion : String
  reasons : List String
  grantedTtlSeconds : Int64
  decisionSignature : Bytes
  decisionSignatureKeyId : String
  leaseId : String
deriving DecidableEq

/-- Go's zero value. -/
def IssuedCredentialEvent.zero : IssuedCredentialEvent :=
  ⟨"", "", "", "", "", [], "", [], 0, [], "", ""⟩

structure Result where
  allowed : Bool
  reasons : List String
  leaseId : String
  leaseDuration : Int64
  event : IssuedCredentialEvent
deriving DecidableEq

def refused (reasons : List String) : Result := ⟨false, reasons, "", 0, .zero⟩

/-! ## Steps -/

inductive IssuerOp where
  | verifyDecision (decision : DecisionResponse)
  | markConsumed (decisionHash : Bytes)
  | newV7
  | issueLease (path : String) (ttlSeconds : Int64)

def IssuerResp : IssuerOp → Type
  | .verifyDecision _ => Except String VerifyDecisionResponse
  | .markConsumed _ => Except String Bool
  | .newV7 => Except String String
  | .issueLease _ _ => Except String Lease

abbrev IssuerProg : Type → Type := Prog IssuerOp IssuerResp

def PolicyClient.verifyDecision (decision : DecisionResponse) :
    IssuerProg (Except String VerifyDecisionResponse) :=
  .perform (IssuerOp.verifyDecision decision)

def ConsumedDecisions.markConsumed (decisionHash : Bytes) : IssuerProg (Except String Bool) :=
  .perform (IssuerOp.markConsumed decisionHash)

def uuidNewV7 : IssuerProg (Except String String) := .perform IssuerOp.newV7

def LeaseIssuer.issueLease (path : String) (ttlSeconds : Int64) :
    IssuerProg (Except String Lease) :=
  .perform (IssuerOp.issueLease path ttlSeconds)

/-! ## Emission -/

/-- `openBaoPath`: one verb has an engine. -/
def openBaoPath (verb resourceId : String) : Except String String :=
  if verb = "db.connect" then .ok ("database/creds/" ++ resourceId)
  else .error ("moteur_non_supporte:" ++ verb)

/-- The lifetime comes from the decision alone. -/
def ttlSecondsOf (decision : DecisionResponse) : Int64 :=
  match decision.maxTtl with
  | none => 0
  | some d => d.seconds

def issuedEvent (order : EmissionOrder) (decision : DecisionResponse) (eventId : String)
    (lease : Lease) : IssuedCredentialEvent where
  eventId := eventId
  requestId := order.requestId
  subjectId := order.subjectId
  aal := order.aal
  authMethod := order.authMethod
  decisionHash := decision.decisionHash
  policyVersion := decision.policyVersion
  reasons := decision.reasons
  grantedTtlSeconds := ttlSecondsOf decision
  decisionSignature := decision.decisionSignature
  decisionSignatureKeyId := decision.decisionSignatureKeyId
  leaseId := lease.id

/-- Once the decision is consumed. -/
def Issuer.issue (order : EmissionOrder) (decision : DecisionResponse) :
    IssuerProg (Except String Result) :=
  match openBaoPath order.verb order.resourceId with
  | .error reason => return .ok (refused [reason])
  | .ok path => do
      match ← uuidNewV7 with
      | .error err => return .error ("génération de l'identifiant d'événement : " ++ err)
      | .ok eventId =>
          match ← LeaseIssuer.issueLease path (ttlSecondsOf decision) with
          | .error err => return .error ("émission du bail : " ++ err)
          | .ok lease => return .ok {
              allowed := true
              reasons := decision.reasons
              leaseId := lease.id
              leaseDuration := lease.leaseDuration
              event := issuedEvent order decision eventId lease }

/-- Once the decision is verified and grants. -/
def Issuer.consume (order : EmissionOrder) (decision : DecisionResponse) :
    IssuerProg (Except String Result) := do
  match ← ConsumedDecisions.markConsumed decision.decisionHash with
  | .error err => return .error ("vérification de rejeu : " ++ err)
  | .ok true => return .ok (refused ["decision_deja_consommee"])
  | .ok false => Issuer.issue order decision

/-- Once the decision is reported on. -/
def Issuer.reported (order : EmissionOrder) (decision : DecisionResponse)
    (verifyResp : VerifyDecisionResponse) : IssuerProg (Except String Result) :=
  if !verifyResp.valid then
    return .ok (refused ["decision_invalide:" ++ verifyResp.reason])
  else if decision.effect ≠ effectAllow then
    return .ok (refused decision.reasons)
  else Issuer.consume order decision

/-- `Issuer.Emit`. -/
def Issuer.emit (order : EmissionOrder) : IssuerProg (Except String Result) :=
  match order.decision with
  | none => return .ok (refused ["decision_absente"])
  | some decision => do
      match ← PolicyClient.verifyDecision decision with
      | .error err => return .error ("vérification de la décision : " ++ err)
      | .ok verifyResp => Issuer.reported order decision verifyResp

/-- `InMemoryConsumedDecisionStore.MarkConsumed`: one critical section reads
and writes the map. The keys of the map are a list without repetition. -/
def InMemoryConsumedDecisionStore.markConsumed (consumed : List Bytes) (decisionHash : Bytes) :
    Bool × List Bytes :=
  if decisionHash ∈ consumed then (true, consumed) else (false, decisionHash :: consumed)

end ZeroSecret.Issuance
