import ZeroSecret.Webauthn.Registration

/-!
# What a registration succeeds on

The checks of `verify_registration_ceremony` as facts about the parts its
input is read into, and the outcome as those parts.
-/

namespace ZeroSecret.Webauthn

open Crypto Crypto.AuthenticatorProof
open Fallible

/-- What a registration is read into, step by step. -/
structure RegistrationParts where
  object : List (CborValue × CborValue)
  fmt : String
  authData : Bytes
  parsed : ParsedAuthenticatorData
  cred : AttestedCredentialData
  material : PublicKeyMaterial
  key : AcceptedKey

def RegistrationParts.attStmt (parts : RegistrationParts) : Option CborValue :=
  getText parts.object "attStmt"

def RegistrationParts.outcome (parts : RegistrationParts) : RegistrationOutcome where
  credentialId := parts.cred.credentialId
  signCount := parts.parsed.signCount
  attestationFormat := if parts.fmt = "none" then "none" else "packed"
  aaguid := parts.cred.aaguid
  publicKeyAlgorithm := parts.material.algorithm
  publicKeyRaw := parts.material.raw

/-- The checks, in the order of the source. -/
structure Registered (L : Libraries) (input : RegistrationCeremonyInput)
    (parts : RegistrationParts) : Prop where
  clientData : ClientData.verify L.readClientData input.clientDataJson "webauthn.create"
    input.expectedOrigin input.expectedChallenge = .ok ()
  size : input.attestationObject.length ≤ maxAttestationObjectLen
  object : ∃ consumed, L.cborFromReader input.attestationObject = some (.map parts.object, consumed)
  fmt : (getText parts.object "fmt").bind CborValue.asText = some parts.fmt
  authData : (getText parts.object "authData").bind CborValue.asBytes = some parts.authData
  supported : parts.fmt = "none" ∨ parts.fmt = "packed"
  policy : input.policy = .required → parts.fmt ≠ "none"
  parsed : parseAuthenticatorData L parts.authData = .ok parts.parsed
  rpId : parts.parsed.rpIdHash = rpIdHash L.toPrimitives input.expectedRpId
  userPresent : parts.parsed.flags &&& flagUserPresent ≠ 0
  attested : parts.parsed.flags &&& flagAttestedCredData ≠ 0
  cred : parts.parsed.attestedCredentialData = some parts.cred
  material : Cose.extractPublicKeyMaterial L parts.cred.publicKeyCbor = .ok parts.material
  key : acceptKey suiteV1 parts.material = .ok parts.key
  statement : parts.fmt = "packed" →
    verifyPackedAttestation L parts.attStmt parts.authData input.clientDataJson parts.key = .ok ()

theorem asMap_eq_some {v : CborValue} {kvs : List (CborValue × CborValue)}
    (h : v.asMap = some kvs) : v = .map kvs := by
  cases v with
  | map kvs' => rw [Option.some.inj h]
  | _ => cases h

/-- **The registration ceremony succeeds exactly on parts that pass its
checks**, and its outcome is read off them. -/
theorem verifyRegistrationCeremony_eq_ok_iff {L : Libraries} {input : RegistrationCeremonyInput}
    {outcome : RegistrationOutcome} :
    verifyRegistrationCeremony L input = .ok outcome ↔
      ∃ parts, Registered L input parts ∧ outcome = parts.outcome := by
  unfold verifyRegistrationCeremony
  constructor
  · intro h
    obtain ⟨⟨⟩, hclient, h⟩ := mapError_bind_eq_ok_iff.mp h
    obtain ⟨hsize, h⟩ := require_bind_eq_ok_iff.mp h
    obtain ⟨⟨cbor, consumed⟩, hcbor, h⟩ := okOr_bind_eq_ok_iff.mp h
    obtain ⟨kvs, hkvs, h⟩ := okOr_bind_eq_ok_iff.mp h
    obtain ⟨fmt, hfmt, h⟩ := okOr_bind_eq_ok_iff.mp h
    obtain ⟨authData, hauth, h⟩ := okOr_bind_eq_ok_iff.mp h
    obtain ⟨hsupported, h⟩ := require_bind_eq_ok_iff.mp h
    obtain ⟨hpolicy, h⟩ := require_bind_eq_ok_iff.mp h
    obtain ⟨parsed, hparsed, h⟩ := bind_eq_ok_iff.mp h
    obtain ⟨hrp, h⟩ := require_bind_eq_ok_iff.mp h
    obtain ⟨hup, h⟩ := require_bind_eq_ok_iff.mp h
    obtain ⟨hat, h⟩ := require_bind_eq_ok_iff.mp h
    obtain ⟨cred, hcred, h⟩ := okOr_bind_eq_ok_iff.mp h
    obtain ⟨material, hmaterial, h⟩ := mapError_bind_eq_ok_iff.mp h
    obtain ⟨key, hkey, h⟩ := mapError_bind_eq_ok_iff.mp h
    rw [asMap_eq_some hkvs] at hcbor
    obtain ⟨hstatement, h⟩ := ite_bind_eq_ok_iff.mp h
    refine ⟨⟨kvs, fmt, authData, parsed, cred, material, key⟩, ?_, (Except.ok.inj h).symm⟩
    exact {
      clientData := hclient
      size := of_decide_eq_true hsize
      object := ⟨consumed, hcbor⟩
      fmt := hfmt
      authData := hauth
      supported := by simpa using hsupported
      policy := by
        intro hp (hnone : fmt = "none")
        rw [hp, hnone] at hpolicy
        exact absurd hpolicy (by decide)
      parsed := hparsed
      rpId := eq_of_beq hrp
      userPresent := by simpa using hup
      attested := by simpa using hat
      cred := hcred
      material := hmaterial
      key := hkey
      statement := hstatement }
  · rintro ⟨parts, hr, rfl⟩
    obtain ⟨consumed, hobject⟩ := hr.object
    refine mapError_bind_eq_ok_iff.mpr ⟨(), hr.clientData, ?_⟩
    refine require_bind_eq_ok_iff.mpr ⟨decide_eq_true hr.size, ?_⟩
    refine okOr_bind_eq_ok_iff.mpr ⟨_, hobject, ?_⟩
    refine okOr_bind_eq_ok_iff.mpr ⟨_, rfl, ?_⟩
    refine okOr_bind_eq_ok_iff.mpr ⟨_, hr.fmt, ?_⟩
    refine okOr_bind_eq_ok_iff.mpr ⟨_, hr.authData, ?_⟩
    refine require_bind_eq_ok_iff.mpr ⟨by simpa using hr.supported, ?_⟩
    refine require_bind_eq_ok_iff.mpr ⟨?_, ?_⟩
    · cases hp : input.policy with
      | any => rfl
      | required => simpa using hr.policy hp
    refine bind_eq_ok_iff.mpr ⟨_, hr.parsed, ?_⟩
    refine require_bind_eq_ok_iff.mpr ⟨beq_iff_eq.mpr hr.rpId, ?_⟩
    refine require_bind_eq_ok_iff.mpr ⟨by simpa using hr.userPresent, ?_⟩
    refine require_bind_eq_ok_iff.mpr ⟨by simpa using hr.attested, ?_⟩
    refine okOr_bind_eq_ok_iff.mpr ⟨_, hr.cred, ?_⟩
    refine mapError_bind_eq_ok_iff.mpr ⟨_, hr.material, ?_⟩
    refine mapError_bind_eq_ok_iff.mpr ⟨_, hr.key, ?_⟩
    exact ite_bind_eq_ok_iff.mpr ⟨hr.statement, rfl⟩

end ZeroSecret.Webauthn
