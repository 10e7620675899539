import ZeroSecret.Crypto.Common

/-!
# `zs-crypto/src/decision_seal.rs`

The suite that authenticates a decision: what is signed, sealing and
verification. `signedMessage_inj` says that the signed octets leave nothing of
the signed fields out.
-/

namespace ZeroSecret.Crypto.DecisionSeal

def suiteV1 : String := "decision-seal/v1"
def domainPrefix : String := "zero-secret/decision-seal/v1"

structure DecisionFields where
  requestId : String
  decisionHash : Bytes
  policyVersion : String
  effectAllow : Bool
  reasons : List String
  maxTtlSeconds : Nat
  constraints : List String
  issuedAt : Timestamp

inductive SealError where
  | sealingUnavailable
deriving DecidableEq

def SealError.toString : SealError → String
  | .sealingUnavailable => "scellement indisponible"

inductive VerifyError where
  | unknownSuite
  | malformedKey
  | missingSignature
  | unknownKeyId
  | invalidSignature
deriving DecidableEq

def VerifyError.toString : VerifyError → String
  | .unknownSuite => "suite inconnue ou retirée"
  | .malformedKey => "clé publique malformée"
  | .missingSignature => "signature ou identifiant de clé absent"
  | .unknownKeyId => "identifiant de clé inconnu"
  | .invalidSignature => "signature invalide"

def signedMembers (fields : DecisionFields) : List (String × Json) :=
  [("suite", .str suiteV1),
    ("request_id", .str fields.requestId),
    ("decision_hash", .str (hexEncode fields.decisionHash)),
    ("policy_version", .str fields.policyVersion),
    ("effect", .str (if fields.effectAllow then "ALLOW" else "DENY")),
    ("reasons", .arr (fields.reasons.map .str)),
    ("max_ttl_seconds", .num fields.maxTtlSeconds),
    ("constraints", .arr (fields.constraints.map .str)),
    ("issued_at", .str fields.issuedAt.val)]

/-- Domain prefix, NUL, canonical object. -/
def signedMessage (fields : DecisionFields) : Bytes :=
  octets domainPrefix ++ 0x00 :: canonicalBytes (.obj (signedMembers fields))

/-! ## Sealing and verification -/

structure DecisionSealer where
  keyId : String
  publicKeySec1 : Bytes

/-- `open`: the identifier is the one of the key. -/
def DecisionSealer.ofPublicKey (P : Primitives) (publicKey : Bytes) : DecisionSealer :=
  ⟨keyIdFromPublicKey P publicKey, publicKey⟩

/-- `hsm` is what the HSM answers for a digest; none is an HSM error. -/
def DecisionSealer.seal (P : Primitives) (sealer : DecisionSealer) (hsm : Digest → Option Bytes)
    (fields : DecisionFields) : Except SealError (Bytes × String) :=
  match hsm (P.sha256 (signedMessage fields)) with
  | none => .error .sealingUnavailable
  | some signature => .ok (signature, sealer.keyId)

structure AcceptedVerifyingKey where
  keyId : String
  raw : Bytes

def acceptVerifyingKey (suite keyId : String) (sec1Uncompressed : Bytes) :
    Except VerifyError AcceptedVerifyingKey :=
  if suite ≠ suiteV1 then .error .unknownSuite
  else if sec1Uncompressed.length ≠ 65 ∨ sec1Uncompressed.head? ≠ some 0x04 then
    .error .malformedKey
  else .ok ⟨keyId, sec1Uncompressed⟩

def DecisionSealer.acceptedVerifyingKey (sealer : DecisionSealer) :
    Except VerifyError AcceptedVerifyingKey :=
  acceptVerifyingKey suiteV1 sealer.keyId sealer.publicKeySec1

def verify (P : Primitives) (keys : List AcceptedVerifyingKey) (fields : DecisionFields)
    (signatureKeyId : String) (signature : Bytes) : Except VerifyError Unit :=
  if signatureKeyId = "" ∨ signature = [] then .error .missingSignature
  else
    match keys.find? fun k => k.keyId == signatureKeyId with
    | none => .error .unknownKeyId
    | some key =>
        if P.ecdsaP256Sha256Fixed key.raw (signedMessage fields) signature then .ok ()
        else .error .invalidSignature

/-! ## What the signed octets determine -/

theorem signedMembers_nodup (fields : DecisionFields) :
    ((signedMembers fields).map Prod.fst).Nodup := by
  simp [signedMembers]

/-- **A signed message signs one decision**: every field can be read back. -/
theorem signedMessage_inj {f g : DecisionFields} (h : signedMessage f = signedMessage g) :
    f = g := by
  have hdoc := canonicalBytes_inj (List.cons.inj (List.append_cancel_left h)).2
  have hmem := lookup_eq_of_sortKeys_eq (signedMembers_nodup f) (signedMembers_nodup g) hdoc
  have h1 := hmem "request_id"
  have h2 := hmem "decision_hash"
  have h3 := hmem "policy_version"
  have h4 := hmem "effect"
  have h5 := hmem "reasons"
  have h6 := hmem "max_ttl_seconds"
  have h7 := hmem "constraints"
  have h8 := hmem "issued_at"
  simp [signedMembers, List.lookup_cons] at h1 h2 h3 h4 h5 h6 h7 h8
  have heffect : f.effectAllow = g.effectAllow := by
    revert h4
    cases f.effectAllow <;> cases g.effectAllow <;> simp
  obtain ⟨_, _, _, _, _, _, _, ⟨_, _⟩⟩ := f
  obtain ⟨_, _, _, _, _, _, _, ⟨_, _⟩⟩ := g
  obtain rfl := h1
  obtain rfl := hexEncode_injective h2
  obtain rfl := h3
  obtain rfl := heffect
  obtain rfl := map_sortKeys_str_injective h5
  obtain rfl := h6
  obtain rfl := map_sortKeys_str_injective h7
  obtain rfl := h8
  rfl

end ZeroSecret.Crypto.DecisionSeal
