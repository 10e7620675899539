import ZeroSecret.Base.Base64
import ZeroSecret.Crypto.AuthenticatorProof

/-!
# `zs-webauthn`: client data and the authentication ceremony

`client_data.rs`, `flags.rs` and `authentication.rs`. The verifier is a pure
function of what the browser sent and of the registered credential; the order
of its checks is the source's.

The deserializer derived for `ClientData` belongs to `serde_json`; it enters
as a function, of which `ClientData.fromSlice` is the part on float-free
texts.
-/

namespace ZeroSecret.Webauthn

open Crypto Crypto.AuthenticatorProof
open Fallible (okOr require bind_eq_ok_iff require_bind_eq_ok_iff mapError_bind_eq_ok_iff)

/-! ## Client data -/

structure ClientData where
  ceremonyType : String
  challenge : String
  origin : String
deriving DecidableEq

namespace ClientData

/-- The derived deserializer on float-free texts. -/
def fromSlice (bytes : Bytes) : Option ClientData := do
  let f ← (Json.fromSlice bytes).bind (Json.knownFields ["type", "challenge", "origin"])
  some {
    ceremonyType := ← Json.required f "type" Json.asStr
    challenge := ← Json.required f "challenge" Json.asStr
    origin := ← Json.required f "origin" Json.asStr }

inductive Error where
  | invalidJson
  | unexpectedType (got : String)
  | unexpectedOrigin (got : String)
  | challengeMismatch
  | invalidChallengeEncoding
deriving DecidableEq

def Error.toString : Error → String
  | .invalidJson => "clientDataJSON n'est pas un JSON valide"
  | .unexpectedType got => "type de cérémonie inattendu : " ++ got
  | .unexpectedOrigin got => "origine inattendue : " ++ got
  | .challengeMismatch => "challenge non concordant — rejoué ou falsifié"
  | .invalidChallengeEncoding => "challenge encodé en base64url invalide"

/-- `client_data::verify`; `read` is `serde_json::from_slice::<ClientData>`. -/
def verify (read : Bytes → Option ClientData) (clientDataJson : Bytes)
    (expectedType expectedOrigin : String) (expectedChallenge : Challenge) : Except Error Unit := do
  let data ← okOr .invalidJson (read clientDataJson)
  require (data.ceremonyType == expectedType) (.unexpectedType data.ceremonyType)
  require (data.origin == expectedOrigin) (.unexpectedOrigin data.origin)
  let presented ← okOr .invalidChallengeEncoding (Base64.decodeUrl data.challenge)
  require (challengeMatches expectedChallenge presented) .challengeMismatch

end ClientData

/-! ## Flags -/

def flagUserPresent : UInt8 := 0x01
def flagUserVerified : UInt8 := 0x04
def flagAttestedCredData : UInt8 := 0x40

/-! ## The authentication ceremony -/

structure RegisteredCredential where
  subjectId : String
  credentialId : Bytes
  publicKeyAlgorithm : Algorithm
  publicKeyRaw : Bytes
  counterSupported : Bool
  storedSignCount : UInt32
  revoked : Bool
deriving DecidableEq

structure AuthenticationCeremonyInput where
  clientDataJson : Bytes
  authenticatorData : Bytes
  signature : Bytes
  expectedOrigin : String
  expectedRpId : String
  expectedChallenge : Challenge
  credential : RegisteredCredential

inductive Aal where
  | aal1
  | aal2
deriving DecidableEq

structure AuthenticationClaims where
  subjectId : String
  credentialId : Bytes
  aal : Aal
  method : String
  newSignCount : UInt32
deriving DecidableEq

inductive AuthenticationError where
  | clientData (e : ClientData.Error)
  | malformedAuthenticatorData
  | rpIdMismatch
  | userNotPresent
  | malformedRegisteredKey
  | invalidSignature
  | signCounterRegression
  | authenticatorRevoked
deriving DecidableEq

/-- `u32::from_be_bytes`. -/
def u32FromBeBytes (a b c d : UInt8) : UInt32 :=
  UInt32.ofNat (((a.toNat * 256 + b.toNat) * 256 + c.toNat) * 256 + d.toNat)

structure ParsedAssertionAuthData where
  rpIdHash : Bytes
  flags : UInt8
  signCount : UInt32
deriving DecidableEq

/-- `rpIdHash(32) ‖ flags(1) ‖ signCount(4)`; what follows is ignored. -/
def parseAssertionAuthData (data : Bytes) : Except AuthenticationError ParsedAssertionAuthData :=
  match data.drop 32 with
  | flags :: a :: b :: c :: d :: _ => .ok ⟨data.take 32, flags, u32FromBeBytes a b c d⟩
  | _ => .error .malformedAuthenticatorData

def rpIdHash (P : Primitives) (rpId : String) : Bytes := (P.sha256 (octets rpId)).val

/-- What the authenticator signs. -/
def signedMessage (P : Primitives) (authenticatorData clientDataJson : Bytes) : Bytes :=
  authenticatorData ++ (P.sha256 clientDataJson).val

/-- The level comes from the user-verified flag alone. -/
def aalOf (flags : UInt8) : Aal := if flags &&& flagUserVerified ≠ 0 then .aal2 else .aal1

def methodOf (counterSupported : Bool) : String :=
  if counterSupported then "webauthn/device-bound" else "webauthn/synced-or-unknown"

def verifyAuthenticationCeremony (V : Verifiers) (read : Bytes → Option ClientData)
    (input : AuthenticationCeremonyInput) : Except AuthenticationError AuthenticationClaims := do
  require (!input.credential.revoked) .authenticatorRevoked
  (ClientData.verify read input.clientDataJson "webauthn.get" input.expectedOrigin
    input.expectedChallenge).mapError .clientData
  let parsed ← parseAssertionAuthData input.authenticatorData
  require (parsed.rpIdHash == rpIdHash V.toPrimitives input.expectedRpId) .rpIdMismatch
  require (parsed.flags &&& flagUserPresent != 0) .userNotPresent
  require (!(input.credential.counterSupported &&
    parsed.signCount ≤ input.credential.storedSignCount)) .signCounterRegression
  let key ← (acceptKey suiteV1
    ⟨input.credential.publicKeyAlgorithm, input.credential.publicKeyRaw⟩).mapError
      fun _ => .malformedRegisteredKey
  (AuthenticatorProof.verify V key
    (signedMessage V.toPrimitives input.authenticatorData input.clientDataJson)
    input.signature).mapError fun _ => .invalidSignature
  .ok {
    subjectId := input.credential.subjectId
    credentialId := input.credential.credentialId
    aal := aalOf parsed.flags
    method := methodOf input.credential.counterSupported
    newSignCount := parsed.signCount }

/-! ## What the ceremony accepts -/

/-- The checks before the signature: the credential is not revoked, the client
data is that of this ceremony, the authenticator data is that of this relying
party with a present user, and the counter has not gone back. -/
structure Presented (V : Verifiers) (read : Bytes → Option ClientData)
    (input : AuthenticationCeremonyInput) (parsed : ParsedAssertionAuthData) : Prop where
  notRevoked : input.credential.revoked = false
  clientData : ClientData.verify read input.clientDataJson "webauthn.get" input.expectedOrigin
    input.expectedChallenge = .ok ()
  authData : parseAssertionAuthData input.authenticatorData = .ok parsed
  rpId : parsed.rpIdHash = rpIdHash V.toPrimitives input.expectedRpId
  userPresent : parsed.flags &&& flagUserPresent ≠ 0
  counter : input.credential.counterSupported = true →
    input.credential.storedSignCount < parsed.signCount

/-- The signature of the registered key over the data sent. -/
def Proven (V : Verifiers) (input : AuthenticationCeremonyInput) : Prop :=
  ∃ key, acceptKey suiteV1
      ⟨input.credential.publicKeyAlgorithm, input.credential.publicKeyRaw⟩ = .ok key ∧
    AuthenticatorProof.verify V key
      (signedMessage V.toPrimitives input.authenticatorData input.clientDataJson)
      input.signature = .ok ()

/-- **The ceremony succeeds exactly on presented and proven input**, and its
claims are the registered subject and credential, the level of the
user-verified flag and the counter sent. -/
theorem verifyAuthenticationCeremony_eq_ok_iff {V : Verifiers} {read : Bytes → Option ClientData}
    {input : AuthenticationCeremonyInput} {claims : AuthenticationClaims} :
    verifyAuthenticationCeremony V read input = .ok claims ↔
    ∃ parsed, Presented V read input parsed ∧ Proven V input ∧
      claims = ⟨input.credential.subjectId, input.credential.credentialId, aalOf parsed.flags,
        methodOf input.credential.counterSupported, parsed.signCount⟩ := by
  unfold verifyAuthenticationCeremony
  constructor
  · intro h
    obtain ⟨hrevoked, h⟩ := require_bind_eq_ok_iff.mp h
    obtain ⟨⟨⟩, hclient, h⟩ := mapError_bind_eq_ok_iff.mp h
    obtain ⟨parsed, hparsed, h⟩ := bind_eq_ok_iff.mp h
    obtain ⟨hrp, h⟩ := require_bind_eq_ok_iff.mp h
    obtain ⟨hup, h⟩ := require_bind_eq_ok_iff.mp h
    obtain ⟨hcounter, h⟩ := require_bind_eq_ok_iff.mp h
    obtain ⟨key, hkey, h⟩ := mapError_bind_eq_ok_iff.mp h
    obtain ⟨⟨⟩, hsig, h⟩ := mapError_bind_eq_ok_iff.mp h
    refine ⟨parsed, ?_, ⟨key, hkey, hsig⟩, (Except.ok.inj h).symm⟩
    exact {
      notRevoked := by simpa using hrevoked
      clientData := hclient
      authData := hparsed
      rpId := eq_of_beq hrp
      userPresent := by simpa using hup
      counter := by
        intro hs
        simpa [hs] using hcounter }
  · rintro ⟨parsed, hp, ⟨key, hkey, hsig⟩, rfl⟩
    refine require_bind_eq_ok_iff.mpr ⟨by rw [hp.notRevoked]; rfl, ?_⟩
    refine mapError_bind_eq_ok_iff.mpr ⟨(), hp.clientData, ?_⟩
    refine bind_eq_ok_iff.mpr ⟨parsed, hp.authData, ?_⟩
    refine require_bind_eq_ok_iff.mpr ⟨beq_iff_eq.mpr hp.rpId, ?_⟩
    refine require_bind_eq_ok_iff.mpr ⟨by simpa using hp.userPresent, ?_⟩
    refine require_bind_eq_ok_iff.mpr ⟨?_, ?_⟩
    · cases hs : input.credential.counterSupported with
      | false => rfl
      | true => simpa using hp.counter hs
    refine mapError_bind_eq_ok_iff.mpr ⟨key, hkey, ?_⟩
    exact mapError_bind_eq_ok_iff.mpr ⟨(), hsig, rfl⟩

end ZeroSecret.Webauthn
