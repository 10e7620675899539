import ZeroSecret.Audit.Appenders
import ZeroSecret.Issuance.Issuer

/-!
# `apps/credential-issuer/internal/grpcapi`: the emission service

`Emit` runs the issuer and, once a lease exists, sends `credential.issued` to
audit-collector. The event is best effort: its result is only logged.
-/

namespace ZeroSecret.Issuance

open Policy Audit

structure EmissionResult where
  allowed : Bool
  reasons : List String
  leaseId : String
  leaseDuration : Option ProtoDuration
deriving DecidableEq

/-- `durationpb.New`: both parts are rounded towards zero. -/
def durationpb (d : Int64) : ProtoDuration := ⟨d / 1000000000, (d % 1000000000).toInt32⟩

/-- `uint32(seconds)`, absent unless positive. -/
def grantedTtl (seconds : Int64) : Option UInt32 :=
  if 0 < seconds.toInt then some (UInt32.ofNat seconds.toInt.toNat) else none

/-- A field is absent when the text is empty. -/
def optionalString (s : String) : Option String := if s = "" then none else some s

/-- The signature and its key identifier come together, or not at all. -/
def optionalSignature (signature : Bytes) (keyId : String) : Option Bytes × Option String :=
  if 0 < signature.length then (some signature, some keyId) else (none, none)

/-- The event `recordCredentialIssued` sends. -/
def credentialIssuedEvent (authorityDomain resourceType resourceId : String)
    (event : IssuedCredentialEvent) : RawEvent where
  authorityDomain := authorityDomain
  eventType := "credential.issued"
  actor := some {
    subjectId := event.subjectId
    kind := "human"
    aal := optionalString event.aal
    authMethod := optionalString event.authMethod }
  target := some ⟨resourceType, resourceId⟩
  outcome := "success"
  context := none
  decision := some {
    requestId := event.requestId
    decisionHash := event.decisionHash
    policyVersion := event.policyVersion
    reasons := event.reasons
    grantedTtlSeconds := grantedTtl event.grantedTtlSeconds
    decisionSignature :=
      (optionalSignature event.decisionSignature event.decisionSignatureKeyId).1
    decisionSignatureKeyId :=
      (optionalSignature event.decisionSignature event.decisionSignatureKeyId).2 }

/-- The issuer and audit-collector act on what surrounds the service. -/
structure API (σ : Type) where
  issuer : EmissionOrder → σ → Except String Result × σ
  auditClient : RawEvent → σ → Except String RecordResult × σ

variable {σ : Type}

def API.recordCredentialIssued (a : API σ) (authorityDomain resourceType resourceId : String)
    (event : IssuedCredentialEvent) (s : σ) : σ :=
  (a.auditClient (credentialIssuedEvent authorityDomain resourceType resourceId event) s).2

/-- `API.Emit`. -/
def API.emit (a : API σ) (req : EmissionOrder) (s : σ) : Except String EmissionResult × σ :=
  match a.issuer req s with
  | (.error err, s) => (.error ("émission indisponible : " ++ err), s)
  | (.ok result, s) =>
      if result.allowed then
        (.ok ⟨true, result.reasons, result.leaseId, some (durationpb result.leaseDuration)⟩,
          a.recordCredentialIssued req.authorityDomain req.resourceType req.resourceId
            result.event s)
      else (.ok ⟨false, result.reasons, result.leaseId, none⟩, s)

end ZeroSecret.Issuance
