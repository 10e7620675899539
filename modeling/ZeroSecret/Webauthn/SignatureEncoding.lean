import ZeroSecret.Base.Der
import ZeroSecret.Webauthn.Authentication

/-!
# The encoding of ES256 signatures

WebAuthn prescribes the DER encoding of `Ecdsa-Sig-Value` for ES256, and the
console relays what the browser returns; `authenticator_proof::verify` checks
with the verifier of the fixed 64-octet form. A genuine DER signature is
therefore refused, unless it is itself 64 octets long and these spell a valid
pair.
-/

namespace ZeroSecret.Webauthn

open Crypto Crypto.AuthenticatorProof BigEndian

/-- `r ‖ s`, 32 octets each. -/
def fixedSignature (r s : Nat) : Bytes := write 32 r ++ write 32 s

/-- What `aws-lc-rs` documents of `ECDSA_P256_SHA256_FIXED`, where `Valid` says
which pairs are signatures: it accepts exactly their fixed form. -/
structure FixedVerifier (P : Primitives) (Valid : Bytes → Bytes → Nat → Nat → Prop) : Prop where
  accepts_iff : ∀ key message signature, P.ecdsaP256Sha256Fixed key message signature = true ↔
    ∃ r s, Valid key message r s ∧ signature = fixedSignature r s
  range : ∀ {key message r s}, Valid key message r s → r < 2 ^ 256 ∧ s < 2 ^ 256

/-- The DER encoding of the pair is 64 octets long and its halves are a valid
pair. The two integers of an ordinary signature take 64 to 66 octets. -/
def SpellsFixedPair (Valid : Bytes → Bytes → Nat → Nat → Prop) (key message : Bytes)
    (r s : Nat) : Prop :=
  Der.integerWidth r + Der.integerWidth s = 58 ∧
    Valid key message (read ((Der.ecdsaSigValue r s).take 32))
      (read ((Der.ecdsaSigValue r s).drop 32))

/-- 64 octets are a fixed form, that of their halves. -/
theorem fixedSignature_halves {signature : Bytes} (h : signature.length = 64) :
    fixedSignature (read (signature.take 32)) (read (signature.drop 32)) = signature := by
  have h1 : (signature.take 32).length = 32 := by
    rw [List.length_take, h]
    rfl
  have h2 : (signature.drop 32).length = 32 := by
    rw [List.length_drop, h]
  have hw1 := write_read (signature.take 32)
  have hw2 := write_read (signature.drop 32)
  rw [h1] at hw1
  rw [h2] at hw2
  rw [fixedSignature, hw1, hw2, List.take_append_drop]

theorem read_take_fixedSignature {r s : Nat} (hr : r < 2 ^ 256) :
    read ((fixedSignature r s).take 32) = r := by
  rw [fixedSignature, List.take_left' (length_write 32 r)]
  exact read_write (by rwa [show (256 : Nat) ^ 32 = 2 ^ 256 by norm_num])

theorem read_drop_fixedSignature {r s : Nat} (hs : s < 2 ^ 256) :
    read ((fixedSignature r s).drop 32) = s := by
  rw [fixedSignature, List.drop_left' (length_write 32 r)]
  exact read_write (by rwa [show (256 : Nat) ^ 32 = 2 ^ 256 by norm_num])

section

variable {V : Verifiers} {Valid : Bytes → Bytes → Nat → Nat → Prop}

/-- What the verifier makes of a DER signature. -/
theorem fixed_accepts_der_iff (hV : FixedVerifier V.toPrimitives Valid) {key message : Bytes}
    {r s : Nat} (hr : r < 2 ^ 256) (hs : s < 2 ^ 256) :
    V.ecdsaP256Sha256Fixed key message (Der.ecdsaSigValue r s) = true ↔
      SpellsFixedPair Valid key message r s := by
  rw [hV.accepts_iff]
  constructor
  · rintro ⟨r', s', hvalid, hsig⟩
    obtain ⟨hr', hs'⟩ := hV.range hvalid
    have hlen := Der.length_ecdsaSigValue hr hs
    have hfixed : (fixedSignature r' s').length = 64 := by simp [fixedSignature]
    refine ⟨by rw [hsig, hfixed] at hlen; omega, ?_⟩
    rw [hsig, read_take_fixedSignature hr', read_drop_fixedSignature hs']
    exact hvalid
  · rintro ⟨hwidth, hvalid⟩
    have hlen : (Der.ecdsaSigValue r s).length = 64 := by
      rw [Der.length_ecdsaSigValue hr hs, hwidth]
    exact ⟨_, _, hvalid, (fixedSignature_halves hlen).symm⟩

theorem proven_es256_iff {input : AuthenticationCeremonyInput}
    (halg : input.credential.publicKeyAlgorithm = .es256)
    (hkey : KeyOk .es256 input.credential.publicKeyRaw) :
    Proven V input ↔ V.ecdsaP256Sha256Fixed input.credential.publicKeyRaw
      (signedMessage V.toPrimitives input.authenticatorData input.clientDataJson)
      input.signature = true := by
  constructor
  · rintro ⟨key, haccept, hverify⟩
    obtain ⟨hkalg, hkraw⟩ := acceptKey_eq_ok_iff.mp haccept
    rw [halg] at hkalg
    simpa [AuthenticatorProof.verify, hkalg, hkraw] using hverify
  · intro h
    refine ⟨⟨.es256, _, hkey⟩, acceptKey_eq_ok_iff.mpr ⟨halg.symm, rfl⟩, ?_⟩
    simp [AuthenticatorProof.verify, h]

/-- **When a standard ES256 assertion is accepted.** On input that passes every
other check, the DER encoding of a valid pair is accepted exactly when its
octets happen to spell the fixed form of a valid pair. -/
theorem es256_der_accepted_iff (hV : FixedVerifier V.toPrimitives Valid)
    {read : Bytes → Option ClientData} {input : AuthenticationCeremonyInput}
    {parsed : ParsedAssertionAuthData} (hp : Presented V read input parsed)
    (halg : input.credential.publicKeyAlgorithm = .es256)
    (hkey : KeyOk .es256 input.credential.publicKeyRaw) {r s : Nat}
    (hvalid : Valid input.credential.publicKeyRaw
      (signedMessage V.toPrimitives input.authenticatorData input.clientDataJson) r s)
    (hsig : input.signature = Der.ecdsaSigValue r s) :
    (∃ claims, verifyAuthenticationCeremony V read input = .ok claims) ↔
      SpellsFixedPair Valid input.credential.publicKeyRaw
        (signedMessage V.toPrimitives input.authenticatorData input.clientDataJson) r s := by
  obtain ⟨hr, hs⟩ := hV.range hvalid
  rw [← fixed_accepts_der_iff hV hr hs, ← hsig, ← proven_es256_iff halg hkey]
  constructor
  · rintro ⟨claims, h⟩
    obtain ⟨-, -, hproven, -⟩ := verifyAuthenticationCeremony_eq_ok_iff.mp h
    exact hproven
  · intro hproven
    exact ⟨_, verifyAuthenticationCeremony_eq_ok_iff.mpr ⟨parsed, hp, hproven, rfl⟩⟩

end

/-! ## A login with a standard signature -/

/-- The pairs the ECDSA equation accepts. -/
def StandardValid (key message : Bytes) (r s : Nat) : Prop :=
  r < P256.groupOrder ∧ s < P256.groupOrder ∧
    P256.verifySha256 key message (fixedSignature r s) = true

theorem lt_of_verifySha256 {key message signature : Bytes}
    (h : P256.verifySha256 key message signature = true) :
    signature.length = 64 ∧ read (signature.take 32) < P256.groupOrder ∧
      read (signature.drop 32) < P256.groupOrder := by
  rw [P256.verifySha256, P256.verifyDigest] at h
  simp only [Bool.and_eq_true, decide_eq_true_eq, beq_iff_eq] at h
  obtain ⟨⟨⟨⟨⟨-, hlen⟩, -⟩, hr⟩, -⟩, hs⟩ := h.1
  exact ⟨hlen, hr, hs⟩

theorem standard_fixedVerifier : FixedVerifier Primitives.standard StandardValid where
  accepts_iff key message signature := by
    constructor
    · intro h
      obtain ⟨hlen, hr, hs⟩ := lt_of_verifySha256 h
      have hhalves := fixedSignature_halves hlen
      exact ⟨_, _, ⟨hr, hs, by rw [hhalves]; exact h⟩, hhalves.symm⟩
    · rintro ⟨r, s, ⟨-, -, h⟩, rfl⟩
      exact h
  range := by
    rintro key message r s ⟨hr, hs, -⟩
    have hn : P256.groupOrder < 2 ^ 256 := by decide
    exact ⟨hr.trans hn, hs.trans hn⟩

def loginR : Nat := 0xb93964971e5bb84d5e47d56351c3adee3b52cd6cf79c830531e17c5b01a8979d
def loginS : Nat := 0xaab0d0cbd8ed1e89c5b946451125cddae612bf993b6a5ce08c07e815d1d20cb0

/-- What a browser returns for a P-256 authenticator. -/
def derLogin : AuthenticationCeremonyInput where
  clientDataJson := octets ("\x7b\"type\":\"webauthn.get\"," ++
    "\"challenge\":\"AAECAwQFBgcICQoLDA0ODxAREhMUFRYXGBkaGxwdHh8\"," ++
    "\"origin\":\"https://zero-secret.example\"\x7d")
  authenticatorData := (hexDecode ("0f9186b5e141cf27ed04db0effae0106f120d2a89091f40c06ffa39e34bd595b"
    ++ "0500000001")).getD []
  signature := Der.ecdsaSigValue loginR loginS
  expectedOrigin := "https://zero-secret.example"
  expectedRpId := "zero-secret.example"
  expectedChallenge := ⟨(List.range 32).map UInt8.ofNat, by decide⟩
  credential := {
    subjectId := "alice"
    credentialId := [1]
    publicKeyAlgorithm := .es256
    publicKeyRaw := sampleKey
    counterSupported := false
    storedSignCount := 0
    revoked := false }

def derLoginAuthData : ParsedAssertionAuthData :=
  ⟨rpIdHash .standard "zero-secret.example", 0x05, 1⟩

theorem derLogin_presented : Presented .standard ClientData.fromSlice derLogin derLoginAuthData where
  notRevoked := rfl
  clientData := by decide +kernel
  authData := by decide +kernel
  rpId := rfl
  userPresent := by decide
  counter := by
    intro h
    cases h

theorem derLogin_valid : StandardValid derLogin.credential.publicKeyRaw
    (signedMessage .standard derLogin.authenticatorData derLogin.clientDataJson) loginR loginS :=
  ⟨by decide, by decide, by decide +kernel⟩

theorem derLogin_key : KeyOk .es256 derLogin.credential.publicKeyRaw := by
  decide +kernel

theorem es256_der_accepted_iff_derLogin :
    (∃ claims, verifyAuthenticationCeremony .standard ClientData.fromSlice derLogin = .ok claims) ↔
      SpellsFixedPair StandardValid derLogin.credential.publicKeyRaw
        (signedMessage .standard derLogin.authenticatorData derLogin.clientDataJson)
        loginR loginS :=
  es256_der_accepted_iff standard_fixedVerifier derLogin_presented rfl derLogin_key
    derLogin_valid rfl

/-- **A genuine DER signature is refused as invalid.** -/
theorem es256_der_refused :
    Presented .standard ClientData.fromSlice derLogin derLoginAuthData ∧
    StandardValid derLogin.credential.publicKeyRaw
      (signedMessage .standard derLogin.authenticatorData derLogin.clientDataJson) loginR loginS ∧
    derLogin.signature = Der.ecdsaSigValue loginR loginS ∧
    verifyAuthenticationCeremony .standard ClientData.fromSlice derLogin =
      .error .invalidSignature :=
  ⟨derLogin_presented, derLogin_valid, rfl, by decide +kernel⟩

end ZeroSecret.Webauthn
