import ZeroSecret.Identity.Store

/-!
# `apps/identity-provider/src/httpapi.rs`

The four ceremony endpoints as programs over separate statements. A challenge
is consumed before anything is verified, and the subject of an authentication
is the one registered with the credential.

`audit.events` has a second writer, audit-collector: its calls are part of the
system here, so that what holds of `audit.events` holds with them.
-/

namespace ZeroSecret.Identity

open Crypto Crypto.AuthenticatorProof Webauthn Interleave
open Audit (ApiError CallResult RawEvent ExplicitTarget sealAndAppendAuditEvent)
open IdentityAssertion (AssertionClaims AssertionSealer SealedAssertion)

structure AppState extends Audit.AppState where
  assertionSealer : AssertionSealer
  rpId : String
  origin : String
  audience : String
  challengeTtlSeconds : Int64
  assertionTtlSeconds : Int64

def badRequest (reason : String) : ApiError := ⟨400, reason⟩
def unauthorized (reason : String) : ApiError := ⟨401, reason⟩

/-- How a call ends; `panicked` is a handler that did not come back. -/
inductive Response where
  | challenge (challenge rpId expiresAt : String)
  | authenticationChallenge (challenge rpId expiresAt : String) (allowCredentials : List String)
  | registered (credentialId : String)
  | authenticated (assertion : String)
  | refused (e : ApiError)
  | panicked
  | collector (result : CallResult)

/-! ## Decoding -/

def b64Decode (field value : String) : Except ApiError Bytes :=
  match Base64.decodeUrl value with
  | none => .error (badRequest (field ++ "_encodage_invalide"))
  | some bytes => .ok bytes

def b64Encode (bytes : Bytes) : String := Base64.encodeUrl bytes

def presentedChallengeBytes (L : Libraries) (clientDataJson : Bytes) : Except ApiError Bytes :=
  match L.readChallengeField clientDataJson with
  | none => .error (badRequest "client_data_json_invalide")
  | some text =>
      match Base64.decodeUrl text with
      | none => .error (badRequest "challenge_encodage_invalide")
      | some bytes => .ok bytes

def identityAssertionChallenge (bytes : Bytes) : Except ApiError Challenge :=
  match acceptChallenge suiteV1 bytes with
  | .error _ => .error (badRequest "challenge_invalide")
  | .ok challenge => .ok challenge

/-! ## The clock -/

/-- `i64` addition as a release build computes it. -/
def wrappingAdd (a b : Int) : Int := Audit.asI64 (Audit.asU64 (a + b))

/-- `rfc3339_now_and_after`: `none` is the panic on a clock before 1970. -/
def rfc3339NowAndAfter (ttlSeconds : Int) : IdentityProg (Option (String × String)) := do
  let now ← liftAudit Audit.systemNow
  if now < 0 then return none
  else return some (Audit.rfc3339FromSeconds now,
    Audit.rfc3339FromSeconds (wrappingAdd now ttlSeconds))

/-! ## Challenges -/

def newChallenge : IdentityProg Challenge := Prog.perform IdentityOp.newChallenge

def registrationChallenge (state : AppState) (subjectId : String) : IdentityProg Response := do
  let challenge ← newChallenge
  match ← IdentityStore.issueChallenge challenge.bytes subjectId "registration"
      state.challengeTtlSeconds.toInt with
  | .error _ => return .refused .storeUnavailable
  | .ok () =>
  match ← rfc3339NowAndAfter state.challengeTtlSeconds.toInt with
  | none => return .panicked
  | some (_, expiresAt) => return .challenge (b64Encode challenge.bytes) state.rpId expiresAt

def authenticationChallenge (state : AppState) (subjectId : String) : IdentityProg Response := do
  let challenge ← newChallenge
  match ← IdentityStore.issueChallenge challenge.bytes subjectId "authentication"
      state.challengeTtlSeconds.toInt with
  | .error _ => return .refused .storeUnavailable
  | .ok () =>
  match ← rfc3339NowAndAfter state.challengeTtlSeconds.toInt with
  | none => return .panicked
  | some (_, expiresAt) =>
  match ← IdentityStore.credentialIdsForSubject subjectId with
  | .error _ => return .refused .storeUnavailable
  | .ok credentialIds =>
      return .authenticationChallenge (b64Encode challenge.bytes) state.rpId expiresAt
        (credentialIds.map b64Encode)

/-! ## Registration -/

structure RegistrationVerifyRequest where
  clientDataJson : String
  attestationObject : String

/-- What the request decodes to, with the challenge it presents. -/
structure RegistrationInputs where
  clientDataJson : Bytes
  attestationObject : Bytes
  presented : Bytes

def registrationInputs (L : Libraries) (req : RegistrationVerifyRequest) :
    Except ApiError RegistrationInputs := do
  let clientDataJson ← b64Decode "client_data_json" req.clientDataJson
  let attestationObject ← b64Decode "attestation_object" req.attestationObject
  let presented ← presentedChallengeBytes L clientDataJson
  .ok ⟨clientDataJson, attestationObject, presented⟩

def registrationCeremonyInput (state : AppState) (inputs : RegistrationInputs)
    (challenge : Challenge) : RegistrationCeremonyInput where
  clientDataJson := inputs.clientDataJson
  attestationObject := inputs.attestationObject
  expectedOrigin := state.origin
  expectedRpId := state.rpId
  expectedChallenge := challenge
  policy := .any

/-- The two writes at the end of `registration_verify`. -/
def registerAuthenticator (P : Primitives) (state : AppState) (subjectId : String)
    (outcome : RegistrationOutcome) : IdentityProg Response := do
  let counterSupported := outcome.signCount != 0
  match ← IdentityStore.insertAuthenticator subjectId outcome.credentialId
      outcome.publicKeyAlgorithm outcome.publicKeyRaw outcome.signCount outcome.aaguid
      outcome.attestationFormat counterSupported with
  | .error _ => return .refused .storeUnavailable
  | .ok () =>
  match ← liftAudit (sealAndAppendAuditEvent P state.toAppState .authenticatorRegistered
      subjectId none none .success) with
  | .appended => return .registered (b64Encode outcome.credentialId)
  | .apiError e => return .refused e
  | _ => return .panicked

def registrationVerify (L : Libraries) (state : AppState) (req : RegistrationVerifyRequest) :
    IdentityProg Response := do
  match registrationInputs L req with
  | .error e => return .refused e
  | .ok inputs =>
  match ← IdentityStore.consumeChallenge inputs.presented "registration" with
  | .error _ => return .refused .storeUnavailable
  | .ok none => return .refused (badRequest "challenge_invalide")
  | .ok (some consumed) =>
  match identityAssertionChallenge inputs.presented with
  | .error e => return .refused e
  | .ok challenge =>
  match verifyRegistrationCeremony L (registrationCeremonyInput state inputs challenge) with
  | .error e => return .refused (unauthorized ("cérémonie_invalide : " ++ e.toString))
  | .ok outcome => registerAuthenticator L.toPrimitives state consumed.subjectId outcome

/-! ## Authentication -/

structure AuthenticationVerifyRequest where
  credentialId : String
  clientDataJson : String
  authenticatorData : String
  signature : String

structure AuthenticationInputs where
  credentialId : Bytes
  clientDataJson : Bytes
  authenticatorData : Bytes
  signature : Bytes
  presented : Bytes

def authenticationInputs (L : Libraries) (req : AuthenticationVerifyRequest) :
    Except ApiError AuthenticationInputs := do
  let credentialId ← b64Decode "credential_id" req.credentialId
  let clientDataJson ← b64Decode "client_data_json" req.clientDataJson
  let authenticatorData ← b64Decode "authenticator_data" req.authenticatorData
  let signature ← b64Decode "signature" req.signature
  let presented ← presentedChallengeBytes L clientDataJson
  .ok ⟨credentialId, clientDataJson, authenticatorData, signature, presented⟩

def registeredCredential (row : AuthenticatorRow) : RegisteredCredential where
  subjectId := row.subjectId
  credentialId := row.credentialId
  publicKeyAlgorithm := row.algorithm
  publicKeyRaw := row.publicKey
  counterSupported := row.counterSupported
  storedSignCount := row.signCount
  revoked := row.revoked

def authenticationCeremonyInput (state : AppState) (inputs : AuthenticationInputs)
    (row : AuthenticatorRow) (challenge : Challenge) : AuthenticationCeremonyInput where
  clientDataJson := inputs.clientDataJson
  authenticatorData := inputs.authenticatorData
  signature := inputs.signature
  expectedOrigin := state.origin
  expectedRpId := state.rpId
  expectedChallenge := challenge
  credential := registeredCredential row

def assuranceLevel : Aal → AssuranceLevel
  | .aal1 => .aal1
  | .aal2 => .aal2

def assertionClaims (state : AppState) (claims : AuthenticationClaims)
    (eventId now expiresAt : String) : Except FieldError AssertionClaims := do
  let subjectId ← SubjectId.new claims.subjectId
  let authMethod ← AuthMethod.new claims.method
  let audience ← IdentityAssertion.Audience.new state.audience
  let issuedAt ← Timestamp.new now
  let expiresAt ← Timestamp.new expiresAt
  let auditEventId ← EventId.new eventId
  .ok {
    authorityDomain := state.authorityDomain
    aal := assuranceLevel claims.aal
    subjectId, authMethod, audience, issuedAt, expiresAt, auditEventId }

def spawnBlockingSealAssertion (sealer : AssertionSealer) (claims : AssertionClaims) :
    IdentityProg (Option (Except IdentityAssertion.SealError SealedAssertion)) :=
  Prog.perform (IdentityOp.sealAssertion sealer claims)

/-- A counter that did not advance: the suspicion is recorded, the login
refused. -/
def refuseClone (P : Primitives) (state : AppState) (claims : AuthenticationClaims) :
    IdentityProg Response := do
  match ← liftAudit (sealAndAppendAuditEvent P state.toAppState .authenticationFailed
      claims.subjectId none (some "clonage_suspecte_compteur_concurrent") .denied) with
  | .appended => return .refused (unauthorized "authentification_refusee")
  | .apiError e => return .refused e
  | _ => return .panicked

/-- The event that covers an assertion, then the assertion. -/
def recordAndReturn (P : Primitives) (state : AppState) (claims : AuthenticationClaims)
    (eventId : String) (assertion : SealedAssertion) : IdentityProg Response := do
  match ← liftAudit (sealAndAppendAuditEvent P state.toAppState .authenticationSucceeded
      claims.subjectId
      (some ⟨eventId, "identity_assertion", hexEncode (assertion.digest P).val⟩) none
      .success) with
  | .appended => return .authenticated (b64Encode assertion.bytes)
  | .apiError e => return .refused e
  | _ => return .panicked

/-- `authentication_verify` once the counter has advanced. -/
def issueAssertion (P : Primitives) (state : AppState) (claims : AuthenticationClaims) :
    IdentityProg Response := do
  match ← liftAudit Audit.uuidNewV7 with
  | .error _ => return .panicked
  | .ok eventId =>
  match ← rfc3339NowAndAfter state.assertionTtlSeconds.toInt with
  | none => return .panicked
  | some (now, expiresAt) =>
  match assertionClaims state claims eventId now expiresAt with
  | .error _ => return .refused .internal
  | .ok sealed_ =>
  match ← spawnBlockingSealAssertion state.assertionSealer sealed_ with
  | none => return .refused .internal
  | some (.error _) => return .refused .sealingUnavailable
  | some (.ok assertion) => recordAndReturn P state claims eventId assertion

def authenticationVerify (L : Libraries) (state : AppState) (req : AuthenticationVerifyRequest) :
    IdentityProg Response := do
  match authenticationInputs L req with
  | .error e => return .refused e
  | .ok inputs =>
  match ← IdentityStore.consumeChallenge inputs.presented "authentication" with
  | .error _ => return .refused .storeUnavailable
  | .ok none => return .refused (unauthorized "challenge_invalide")
  | .ok (some _) =>
  match ← IdentityStore.findAuthenticator inputs.credentialId with
  | .error _ => return .refused .storeUnavailable
  | .ok none => return .refused (unauthorized "authentification_refusee")
  | .ok (some row) =>
  match identityAssertionChallenge inputs.presented with
  | .error e => return .refused e
  | .ok challenge =>
  match verifyAuthenticationCeremony L.toVerifiers L.readClientData
      (authenticationCeremonyInput state inputs row challenge) with
  | .error _ => return .refused (unauthorized "authentification_refusee")
  | .ok claims =>
  match ← IdentityStore.advanceSignCount row.credentialId claims.newSignCount with
  | .error _ => return .refused .storeUnavailable
  | .ok false => refuseClone L.toPrimitives state claims
  | .ok true => issueAssertion L.toPrimitives state claims

/-! ## Calls -/

/-- A call of identity-provider, or of the other writer of `audit.events`. -/
inductive Call where
  | registrationChallenge (subjectId : String)
  | registrationVerify (req : RegistrationVerifyRequest)
  | authenticationChallenge (subjectId : String)
  | authenticationVerify (req : AuthenticationVerifyRequest)
  | record (raw : RawEvent)

def Call.program (L : Libraries) (state : AppState) : Call → IdentityProg Response
  | .registrationChallenge subjectId => Identity.registrationChallenge state subjectId
  | .registrationVerify req => Identity.registrationVerify L state req
  | .authenticationChallenge subjectId => Identity.authenticationChallenge state subjectId
  | .authenticationVerify req => Identity.authenticationVerify L state req
  | .record raw => do return .collector (← liftAudit (Audit.Collector.record raw))

/-- Which call each caller makes. -/
def Serves {Caller : Type} (L : Libraries) (state : AppState) (calls : Caller → Call)
    (i : Caller) (p : IdentityProg Response) : Prop :=
  p = (calls i).program L state

end ZeroSecret.Identity
