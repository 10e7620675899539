import ZeroSecret.Base.Der
import ZeroSecret.Webauthn.Authentication

/-!
# `zs-webauthn`: the registration ceremony

`registration.rs`, `cose.rs` and `policy.rs`. The decoders of `ciborium` and
`coset` enter as functions: one CBOR item with the number of octets it took,
and a COSE key.
-/

namespace ZeroSecret.Webauthn

open Crypto Crypto.AuthenticatorProof
open Fallible (okOr require)

/-! ## What the decoders return -/

/-- `ciborium::value::Value`; a float is its 64 bits. -/
inductive CborValue where
  | integer (n : Int)
  | bytes (b : Bytes)
  | float (bits : UInt64)
  | text (s : String)
  | bool (b : Bool)
  | null
  | tag (t : Nat) (v : CborValue)
  | array (xs : List CborValue)
  | map (kvs : List (CborValue × CborValue))

namespace CborValue

def asText : CborValue → Option String
  | .text s => some s
  | _ => none

def asBytes : CborValue → Option Bytes
  | .bytes b => some b
  | _ => none

def asMap : CborValue → Option (List (CborValue × CborValue))
  | .map kvs => some kvs
  | _ => none

end CborValue

/-! ### Definite lengths

The part of the decoders that authenticators use: items of definite length
without floats. -/

/-- Major type, argument, what follows. -/
def readHead : Bytes → Option (Nat × Nat × Bytes)
  | [] => none
  | b :: rest =>
      let info := b.toNat % 32
      let wide (width : Nat) : Option (Nat × Nat × Bytes) :=
        if width ≤ rest.length then
          some (b.toNat / 32, BigEndian.read (rest.take width), rest.drop width)
        else none
      if info < 24 then some (b.toNat / 32, info, rest)
      else if info = 24 then wide 1
      else if info = 25 then wide 2
      else if info = 26 then wide 4
      else if info = 27 then wide 8
      else none

mutual
def readItem : Nat → Bytes → Option (CborValue × Bytes)
  | 0, _ => none
  | n + 1, bytes => do
      let (major, arg, rest) ← readHead bytes
      match major with
      | 0 => some (.integer arg, rest)
      | 1 => some (.integer (-1 - arg), rest)
      | 2 => if arg ≤ rest.length then some (.bytes (rest.take arg), rest.drop arg) else none
      | 3 =>
          if arg ≤ rest.length then do
            let text ← (rest.take arg).toByteArray.utf8Decode?
            some (.text (String.ofList text.toList), rest.drop arg)
          else none
      | 4 => do
          let (xs, rest) ← readItems n arg rest
          some (.array xs, rest)
      | 5 => do
          let (kvs, rest) ← readPairs n arg rest
          some (.map kvs, rest)
      | 6 => do
          let (v, rest) ← readItem n rest
          some (.tag arg v, rest)
      | _ =>
          if arg = 20 then some (.bool false, rest)
          else if arg = 21 then some (.bool true, rest)
          else if arg = 22 then some (.null, rest)
          else none
def readItems : Nat → Nat → Bytes → Option (List CborValue × Bytes)
  | _, 0, bytes => some ([], bytes)
  | 0, _ + 1, _ => none
  | n + 1, count + 1, bytes => do
      let (x, rest) ← readItem n bytes
      let (xs, rest) ← readItems n count rest
      some (x :: xs, rest)
def readPairs : Nat → Nat → Bytes → Option (List (CborValue × CborValue) × Bytes)
  | _, 0, bytes => some ([], bytes)
  | 0, _ + 1, _ => none
  | n + 1, count + 1, bytes => do
      let (k, rest) ← readItem n bytes
      let (v, rest) ← readItem n rest
      let (kvs, rest) ← readPairs n count rest
      some ((k, v) :: kvs, rest)
end

/-- One item and the number of octets it took. -/
def CborValue.fromReader (bytes : Bytes) : Option (CborValue × Nat) := do
  let (v, rest) ← readItem (bytes.length + 1) bytes
  some (v, bytes.length - rest.length)

/-- The first entry under a text key. -/
def getText (kvs : List (CborValue × CborValue)) (key : String) : Option CborValue :=
  (kvs.find? fun kv => kv.1.asText = some key).map Prod.snd

/-- `coset::Label`: the registered labels are those of their number. -/
inductive Label where
  | int (n : Int)
  | text (s : String)
deriving DecidableEq

/-- `coset::CoseKey`, as far as a key is described here. -/
structure CoseKey where
  kty : Label
  alg : Option Label
  params : List (Label × CborValue)

def CborValue.asLabel : CborValue → Option Label
  | .integer n => some (.int n)
  | .text s => some (.text s)
  | _ => none

/-- `CoseKey::from_slice` on such items: a map of labels, the key type under
`1`, the algorithm under `3`, the rest as parameters. -/
def CoseKey.fromSlice (bytes : Bytes) : Option CoseKey := do
  let (v, consumed) ← CborValue.fromReader bytes
  if consumed ≠ bytes.length then none
  else do
    let kvs ← v.asMap
    let entries ← kvs.mapM fun kv => kv.1.asLabel.map fun label => (label, kv.2)
    some {
      kty := ← (entries.lookup (.int 1)).bind CborValue.asLabel
      alg := (entries.lookup (.int 3)).bind CborValue.asLabel
      params := entries.filter fun e => e.1 ≠ .int 1 ∧ e.1 ≠ .int 3 }

/-- The libraries the two ceremonies call. -/
structure Libraries extends Verifiers where
  /-- `serde_json::from_slice::<ClientData>`. -/
  readClientData : Bytes → Option ClientData
  /-- `serde_json::from_slice` of the structure with the one field
  `challenge`. -/
  readChallengeField : Bytes → Option String
  /-- `ciborium::de::from_reader` on a cursor: the item, and the position
  after it. -/
  cborFromReader : Bytes → Option (CborValue × Nat)
  /-- `CoseKey::from_slice`. -/
  coseKeyFromSlice : Bytes → Option CoseKey

/-- The structure with the one field `challenge`, on float-free texts. -/
def challengeFieldFromSlice (bytes : Bytes) : Option String := do
  let f ← (Json.fromSlice bytes).bind (Json.knownFields ["challenge"])
  Json.required f "challenge" Json.asStr

/-- The functions of these names where a concrete input needs them. -/
def Libraries.standard : Libraries where
  toVerifiers := .standard
  readClientData := ClientData.fromSlice
  readChallengeField := challengeFieldFromSlice
  cborFromReader := CborValue.fromReader
  coseKeyFromSlice := CoseKey.fromSlice

/-- The same functions, as the kernel evaluates them. -/
def Libraries.evaluated : Libraries where
  toVerifiers := ⟨.evaluated, fun _ _ _ => false⟩
  readClientData bytes := do
    let f ← (Json.fromAscii bytes).bind (Json.knownFields ["type", "challenge", "origin"])
    some {
      ceremonyType := ← Json.required f "type" Json.asStr
      challenge := ← Json.required f "challenge" Json.asStr
      origin := ← Json.required f "origin" Json.asStr }
  readChallengeField bytes := do
    let f ← (Json.fromAscii bytes).bind (Json.knownFields ["challenge"])
    Json.required f "challenge" Json.asStr
  cborFromReader := CborValue.fromReader
  coseKeyFromSlice := CoseKey.fromSlice

theorem Libraries.standard_eq_evaluated : Libraries.standard = Libraries.evaluated := by
  have hclient : ClientData.fromSlice = Libraries.evaluated.readClientData := by
    funext bytes
    rw [ClientData.fromSlice, Json.fromSlice_eq_fromAscii]
    rfl
  have hchallenge : challengeFieldFromSlice = Libraries.evaluated.readChallengeField := by
    funext bytes
    rw [challengeFieldFromSlice, Json.fromSlice_eq_fromAscii]
    rfl
  rw [Libraries.standard, Verifiers.standard, Primitives.standard_eq_evaluated, hclient, hchallenge]
  rfl

/-! ## COSE keys -/

namespace Cose

inductive Error where
  | invalidCbor
  | unsupportedKeyType
  | missingOrInvalidParameter
deriving DecidableEq

def Error.toString : Error → String
  | .invalidCbor => "clé COSE malformée (CBOR invalide)"
  | .unsupportedKeyType => "type de clé COSE non supporté par authenticator-proof/v1"
  | .missingOrInvalidParameter => "paramètre de clé COSE manquant ou de longueur incorrecte"

def param (key : CoseKey) (wanted : Int) : Option CborValue :=
  (key.params.find? fun p => p.1 = .int wanted).map Prod.snd

def intParam (key : CoseKey) (wanted : Int) : Option Int :=
  match param key wanted with
  | some (.integer n) => some n
  | _ => none

def bytesParam (key : CoseKey) (wanted : Int) : Option Bytes :=
  (param key wanted).bind CborValue.asBytes

/-- `KeyType::EC2` and `KeyType::OKP`. -/
def ec2 : Label := .int 2
def okp : Label := .int 1

def extractPublicKeyMaterial (L : Libraries) (coseKeyBytes : Bytes) :
    Except Error PublicKeyMaterial := do
  let key ← okOr .invalidCbor (L.coseKeyFromSlice coseKeyBytes)
  if key.kty = ec2 then
    require (intParam key (-1) == some 1) .unsupportedKeyType
    let x ← okOr .missingOrInvalidParameter (bytesParam key (-2))
    let y ← okOr .missingOrInvalidParameter (bytesParam key (-3))
    require (x.length == 32 && y.length == 32) .missingOrInvalidParameter
    .ok ⟨.es256, 0x04 :: (x ++ y)⟩
  else if key.kty = okp then
    require (intParam key (-1) == some 6) .unsupportedKeyType
    let x ← okOr .missingOrInvalidParameter (bytesParam key (-2))
    require (x.length == 32) .missingOrInvalidParameter
    .ok ⟨.edDsa, x⟩
  else .error .unsupportedKeyType

end Cose

/-! ## The registration ceremony -/

inductive AttestationPolicy where
  | any
  | required
deriving DecidableEq

def maxAttestationObjectLen : Nat := 64 * 1024

structure RegistrationCeremonyInput where
  clientDataJson : Bytes
  attestationObject : Bytes
  expectedOrigin : String
  expectedRpId : String
  expectedChallenge : Challenge
  policy : AttestationPolicy

structure RegistrationOutcome where
  credentialId : Bytes
  signCount : UInt32
  attestationFormat : String
  aaguid : Bytes
  publicKeyAlgorithm : Algorithm
  publicKeyRaw : Bytes
deriving DecidableEq

inductive RegistrationError where
  | clientData (e : ClientData.Error)
  | attestationObjectTooLarge
  | invalidCbor
  | malformedAttestationObject
  | malformedAuthenticatorData
  | rpIdMismatch
  | missingAttestedCredentialData
  | userNotPresent
  | cose (e : Cose.Error)
  | unsupportedAttestationFormat (fmt : String)
  | attestationRequiredButAbsent
  | attestationCertificateChainUnsupported
  | malformedAttestationStatement
  | invalidAttestationSignature
deriving DecidableEq

def RegistrationError.toString : RegistrationError → String
  | .clientData e => "clientDataJSON invalide : " ++ e.toString
  | .attestationObjectTooLarge => "attestationObject dépasse la taille maximale acceptée"
  | .invalidCbor => "attestationObject n'est pas un CBOR valide"
  | .malformedAttestationObject =>
      "attestationObject : champ obligatoire manquant ou de type incorrect"
  | .malformedAuthenticatorData => "authenticatorData tronqué ou incohérent"
  | .rpIdMismatch => "rpIdHash ne correspond pas au rpId attendu"
  | .missingAttestedCredentialData => "le drapeau attestedCredentialData n'est pas positionné"
  | .userNotPresent => "le drapeau user present (UP) n'est pas positionné"
  | .cose e => "clé publique COSE invalide : " ++ e.toString
  | .unsupportedAttestationFormat fmt =>
      "format d'attestation '" ++ fmt ++ "' non supporté (seuls 'none' et 'packed' le sont)"
  | .attestationRequiredButAbsent =>
      "attestation exigée par la politique, mais absente (fmt: none)"
  | .attestationCertificateChainUnsupported =>
      "attestation 'packed' avec chaîne de certificats (x5c) non supportée"
  | .malformedAttestationStatement => "statement d'attestation 'packed' malformé"
  | .invalidAttestationSignature => "signature d'attestation invalide"

structure AttestedCredentialData where
  aaguid : Bytes
  credentialId : Bytes
  publicKeyCbor : Bytes
deriving DecidableEq

structure ParsedAuthenticatorData where
  rpIdHash : Bytes
  flags : UInt8
  signCount : UInt32
  attestedCredentialData : Option AttestedCredentialData
deriving DecidableEq

/-- `aaguid(16) ‖ credentialIdLength(2) ‖ credentialId ‖ credentialPublicKey`:
the key is as long as the decoder says. -/
def parseAttestedCredentialData (L : Libraries) (rest : Bytes) :
    Except RegistrationError AttestedCredentialData := do
  require (decide (18 ≤ rest.length)) .malformedAuthenticatorData
  let credIdLen := BigEndian.read ((rest.drop 16).take 2)
  let credIdEnd := 18 + credIdLen
  require (decide (credIdEnd ≤ rest.length)) .malformedAuthenticatorData
  let keyBytes := rest.drop credIdEnd
  let (_, consumed) ← okOr .malformedAuthenticatorData (L.cborFromReader keyBytes)
  .ok {
    aaguid := rest.take 16
    credentialId := (rest.drop 18).take credIdLen
    publicKeyCbor := keyBytes.take consumed }

/-- `registration::parse_authenticator_data`. -/
def parseAuthenticatorData (L : Libraries) (data : Bytes) :
    Except RegistrationError ParsedAuthenticatorData :=
  match data.drop 32 with
  | flags :: a :: b :: c :: d :: rest =>
      if flags &&& flagAttestedCredData ≠ 0 then do
        let cred ← parseAttestedCredentialData L rest
        .ok ⟨data.take 32, flags, u32FromBeBytes a b c d, some cred⟩
      else .ok ⟨data.take 32, flags, u32FromBeBytes a b c d, none⟩
  | _ => .error .malformedAuthenticatorData

/-- Self-attestation only: a certificate chain is refused. -/
def verifyPackedAttestation (L : Libraries) (attStmt : Option CborValue)
    (authData clientDataJson : Bytes) (key : AcceptedKey) : Except RegistrationError Unit := do
  let kvs ← okOr .malformedAttestationStatement (attStmt.bind CborValue.asMap)
  require (getText kvs "x5c").isNone .attestationCertificateChainUnsupported
  let sig ← okOr .malformedAttestationStatement ((getText kvs "sig").bind CborValue.asBytes)
  (AuthenticatorProof.verify L.toVerifiers key
    (signedMessage L.toPrimitives authData clientDataJson) sig).mapError
      fun _ => .invalidAttestationSignature

def verifyRegistrationCeremony (L : Libraries) (input : RegistrationCeremonyInput) :
    Except RegistrationError RegistrationOutcome := do
  (ClientData.verify L.readClientData input.clientDataJson "webauthn.create" input.expectedOrigin
    input.expectedChallenge).mapError .clientData
  require (decide (input.attestationObject.length ≤ maxAttestationObjectLen))
    .attestationObjectTooLarge
  let (cbor, _) ← okOr .invalidCbor (L.cborFromReader input.attestationObject)
  let kvs ← okOr .malformedAttestationObject cbor.asMap
  let fmt ← okOr .malformedAttestationObject ((getText kvs "fmt").bind CborValue.asText)
  let authData ← okOr .malformedAttestationObject
    ((getText kvs "authData").bind CborValue.asBytes)
  require (fmt == "none" || fmt == "packed") (.unsupportedAttestationFormat fmt)
  require (!(input.policy == .required && fmt == "none")) .attestationRequiredButAbsent
  let parsed ← parseAuthenticatorData L authData
  require (parsed.rpIdHash == rpIdHash L.toPrimitives input.expectedRpId) .rpIdMismatch
  require (parsed.flags &&& flagUserPresent != 0) .userNotPresent
  require (parsed.flags &&& flagAttestedCredData != 0) .missingAttestedCredentialData
  let cred ← okOr .missingAttestedCredentialData parsed.attestedCredentialData
  let material ← (Cose.extractPublicKeyMaterial L cred.publicKeyCbor).mapError .cose
  let key ← (acceptKey suiteV1 material).mapError fun _ => .malformedAttestationObject
  if fmt = "packed" then
    verifyPackedAttestation L (getText kvs "attStmt") authData input.clientDataJson key
  .ok {
    credentialId := cred.credentialId
    signCount := parsed.signCount
    attestationFormat := if fmt = "none" then "none" else "packed"
    aaguid := cred.aaguid
    publicKeyAlgorithm := material.algorithm
    publicKeyRaw := material.raw }

end ZeroSecret.Webauthn
