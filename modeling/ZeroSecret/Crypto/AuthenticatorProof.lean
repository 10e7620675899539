import ZeroSecret.Base.Fallible
import ZeroSecret.Crypto.Common

/-!
# `zs-crypto/src/authenticator_proof.rs`

Proof of possession by an external authenticator. The algorithm is the one of
the registered key, never one the caller declares: `verify` has no parameter
for it. An accepted key and a challenge carry what their constructors check.
-/

namespace ZeroSecret.Crypto.AuthenticatorProof

def suiteV1 : String := "authenticator-proof/v1"
def challengeLen : Nat := 32

/-- The primitives of the workspace, with the second verifier this suite
composes. -/
structure Verifiers extends Primitives where
  /-- `ED25519`: public key, message, signature. -/
  ed25519 : Bytes → Bytes → Bytes → Bool

/-- The functions of that name where a concrete input needs them; none here
reaches Ed25519. -/
def Verifiers.standard : Verifiers := ⟨.standard, fun _ _ _ => false⟩

inductive Algorithm where
  | es256
  | edDsa
deriving DecidableEq

inductive Error where
  | unknownSuite
  | malformedKey
  | invalidSignature
  | malformedChallenge
deriving DecidableEq

/-! ## Keys -/

/-- An uncompressed SEC1 point, or the 32 octets of an Ed25519 key. -/
def KeyOk : Algorithm → Bytes → Prop
  | .es256, raw => raw.length = 65 ∧ raw.head? = some 0x04
  | .edDsa, raw => raw.length = 32

instance : (algorithm : Algorithm) → (raw : Bytes) → Decidable (KeyOk algorithm raw)
  | .es256, _ => inferInstanceAs (Decidable (_ ∧ _))
  | .edDsa, _ => inferInstanceAs (Decidable (_ = _))

structure PublicKeyMaterial where
  algorithm : Algorithm
  raw : Bytes
deriving DecidableEq

structure AcceptedKey where
  algorithm : Algorithm
  raw : Bytes
  wellFormed : KeyOk algorithm raw

def acceptKey (suite : String) (material : PublicKeyMaterial) : Except Error AcceptedKey :=
  if suite ≠ suiteV1 then .error .unknownSuite
  else if h : KeyOk material.algorithm material.raw then .ok ⟨_, _, h⟩
  else .error .malformedKey

theorem acceptKey_eq_ok_iff {material : PublicKeyMaterial} {key : AcceptedKey} :
    acceptKey suiteV1 material = .ok key ↔
      key.algorithm = material.algorithm ∧ key.raw = material.raw := by
  obtain ⟨algorithm, raw, hkey⟩ := key
  obtain ⟨algorithm', raw'⟩ := material
  rw [acceptKey, if_neg (by simp)]
  constructor
  · intro h
    split at h
    · cases h
      exact ⟨rfl, rfl⟩
    · cases h
  · rintro ⟨rfl, rfl⟩
    rw [dif_pos hkey]

/-- Whether a proof of possession holds. -/
def verify (V : Verifiers) (key : AcceptedKey) (message signature : Bytes) : Except Error Unit :=
  let valid := match key.algorithm with
    | .es256 => V.ecdsaP256Sha256Fixed key.raw message signature
    | .edDsa => V.ed25519 key.raw message signature
  if valid then .ok () else .error .invalidSignature

/-! ## Challenges -/

structure Challenge where
  bytes : Bytes
  length_eq : bytes.length = challengeLen

def acceptChallenge (suite : String) (bytes : Bytes) : Except Error Challenge :=
  if suite ≠ suiteV1 then .error .unknownSuite
  else if h : bytes.length = challengeLen then .ok ⟨bytes, h⟩
  else .error .malformedChallenge

/-- The constant-time comparison, as the equality it computes. -/
def challengeMatches (expected : Challenge) (presented : Bytes) : Bool :=
  expected.bytes == presented

end ZeroSecret.Crypto.AuthenticatorProof
