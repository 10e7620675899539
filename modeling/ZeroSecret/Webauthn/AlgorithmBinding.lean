import ZeroSecret.Webauthn.RegistrationOutcome

/-!
# The algorithm a registration declares

ADR-006 refuses a key without `alg` and any divergence between the algorithm
declared and the one of the key. `cose.rs` derives the algorithm from the key
type and the curve, and `registration.rs` never reads the other two places
where one is declared.
-/

namespace ZeroSecret.Webauthn

open Crypto Crypto.AuthenticatorProof
open Fallible

/-! ## The places where an algorithm is declared -/

/-- `alg` of ES256 and of EdDSA, by key type and curve. -/
def algorithmOfKey (key : CoseKey) : Option Int :=
  if key.kty = Cose.ec2 ∧ Cose.intParam key (-1) = some 1 then some (-7)
  else if key.kty = Cose.okp ∧ Cose.intParam key (-1) = some 6 then some (-8)
  else none

def attestationFields (L : Libraries) (input : RegistrationCeremonyInput) :
    Option (List (CborValue × CborValue)) := do
  let (v, _) ← L.cborFromReader input.attestationObject
  v.asMap

def attestationFormat (L : Libraries) (input : RegistrationCeremonyInput) : Option String := do
  let kvs ← attestationFields L input
  (getText kvs "fmt").bind CborValue.asText

/-- The COSE key inside `authData`. -/
def embeddedKey (L : Libraries) (input : RegistrationCeremonyInput) : Option CoseKey := do
  let kvs ← attestationFields L input
  let authData ← (getText kvs "authData").bind CborValue.asBytes
  let parsed ← (parseAuthenticatorData L authData).toOption
  let cred ← parsed.attestedCredentialData
  L.coseKeyFromSlice cred.publicKeyCbor

def CborValue.asInteger : CborValue → Option Int
  | .integer n => some n
  | _ => none

/-- `alg` of the attestation statement. -/
def statementAlgorithm (L : Libraries) (input : RegistrationCeremonyInput) : Option Int := do
  let kvs ← attestationFields L input
  let statement ← (getText kvs "attStmt").bind CborValue.asMap
  (getText statement "alg").bind CborValue.asInteger

/-- The key declares the algorithm of its type and curve, and a packed
statement declares the same. -/
def DeclaresItsAlgorithm (L : Libraries) (input : RegistrationCeremonyInput) : Prop :=
  ∃ key alg, embeddedKey L input = some key ∧ algorithmOfKey key = some alg ∧
    key.alg = some (.int alg) ∧
    (attestationFormat L input = some "packed" → statementAlgorithm L input = some alg)

/-- What ADR-006 decides of a registration. -/
def AlgorithmBound (L : Libraries) (input : RegistrationCeremonyInput) : Prop :=
  ∀ outcome, verifyRegistrationCeremony L input = .ok outcome → DeclaresItsAlgorithm L input

/-! ## What the checks leave open -/

def coseAlgorithm : Algorithm → Int
  | .es256 => -7
  | .edDsa => -8

/-- The algorithm of the key material is read off type and curve. -/
theorem algorithmOfKey_of_extracted {L : Libraries} {bytes : Bytes} {material : PublicKeyMaterial}
    (h : Cose.extractPublicKeyMaterial L bytes = .ok material) :
    ∃ key, L.coseKeyFromSlice bytes = some key ∧
      algorithmOfKey key = some (coseAlgorithm material.algorithm) := by
  obtain ⟨key, hkey, h⟩ := okOr_bind_eq_ok_iff.mp h
  refine ⟨key, hkey, ?_⟩
  unfold algorithmOfKey
  split at h
  · rename_i hkty
    obtain ⟨hcrv, h⟩ := require_bind_eq_ok_iff.mp h
    obtain ⟨x, -, h⟩ := okOr_bind_eq_ok_iff.mp h
    obtain ⟨y, -, h⟩ := okOr_bind_eq_ok_iff.mp h
    obtain ⟨-, h⟩ := require_bind_eq_ok_iff.mp h
    rw [← Except.ok.inj h, if_pos ⟨hkty, eq_of_beq hcrv⟩]
    rfl
  · rename_i hkty
    split at h
    · rename_i hkty'
      obtain ⟨hcrv, h⟩ := require_bind_eq_ok_iff.mp h
      obtain ⟨x, -, h⟩ := okOr_bind_eq_ok_iff.mp h
      obtain ⟨-, h⟩ := require_bind_eq_ok_iff.mp h
      rw [← Except.ok.inj h, if_neg (fun hec => hkty hec.1), if_pos ⟨hkty', eq_of_beq hcrv⟩]
      rfl
    · cases h

section Parts

variable {L : Libraries} {input : RegistrationCeremonyInput} {parts : RegistrationParts}

theorem Registered.attestationFields_eq (hr : Registered L input parts) :
    attestationFields L input = some parts.object := by
  obtain ⟨consumed, hobject⟩ := hr.object
  rw [attestationFields, hobject]
  rfl

theorem Registered.attestationFormat_eq (hr : Registered L input parts) :
    attestationFormat L input = some parts.fmt := by
  rw [attestationFormat, hr.attestationFields_eq]
  exact hr.fmt

theorem Registered.embeddedKey_eq (hr : Registered L input parts) :
    embeddedKey L input = L.coseKeyFromSlice parts.cred.publicKeyCbor := by
  rw [embeddedKey, hr.attestationFields_eq]
  show ((getText parts.object "authData").bind CborValue.asBytes).bind _ = _
  rw [hr.authData]
  show ((parseAuthenticatorData L parts.authData).toOption).bind _ = _
  rw [hr.parsed]
  show parts.parsed.attestedCredentialData.bind _ = _
  rw [hr.cred]
  rfl

/-- No algorithm is declared that is the one of the key material: the key or a
packed statement has another, or none. -/
def Divergent (L : Libraries) (input : RegistrationCeremonyInput) (parts : RegistrationParts) :
    Prop :=
  (∀ key, L.coseKeyFromSlice parts.cred.publicKeyCbor = some key →
    key.alg ≠ some (.int (coseAlgorithm parts.material.algorithm))) ∨
  (parts.fmt = "packed" ∧
    statementAlgorithm L input ≠ some (coseAlgorithm parts.material.algorithm))

theorem Registered.declares_iff (hr : Registered L input parts) :
    DeclaresItsAlgorithm L input ↔ ¬ Divergent L input parts := by
  obtain ⟨key, hkey, halgorithm⟩ := algorithmOfKey_of_extracted hr.material
  constructor
  · rintro ⟨key', alg, hembedded, hof, hdeclared, hpacked⟩ hdivergent
    rw [hr.embeddedKey_eq, hkey] at hembedded
    obtain rfl := Option.some.inj hembedded
    obtain rfl := Option.some.inj (hof.symm.trans halgorithm)
    rcases hdivergent with hother | ⟨hfmt, hother⟩
    · exact hother key hkey hdeclared
    · exact hother (hpacked (by rw [hr.attestationFormat_eq, hfmt]))
  · intro h
    refine ⟨key, _, hr.embeddedKey_eq.trans hkey, halgorithm, ?_, ?_⟩
    · by_contra hother
      refine h (Or.inl fun key' hkey' => ?_)
      obtain rfl := Option.some.inj (hkey.symm.trans hkey')
      exact hother
    · intro hpacked
      rw [hr.attestationFormat_eq] at hpacked
      by_contra hother
      exact h (Or.inr ⟨Option.some.inj hpacked, hother⟩)

end Parts

/-- **The algorithm is bound unless a registration that passes the checks of
the ceremony declares another one, or none.** -/
theorem algorithmBound_iff (L : Libraries) (input : RegistrationCeremonyInput) :
    AlgorithmBound L input ↔ ¬ ∃ parts, Registered L input parts ∧ Divergent L input parts := by
  constructor
  · rintro h ⟨parts, hr, hdivergent⟩
    have hok := verifyRegistrationCeremony_eq_ok_iff.mpr ⟨parts, hr, rfl⟩
    exact hr.declares_iff.mp (h _ hok) hdivergent
  · intro h outcome hok
    obtain ⟨parts, hr, -⟩ := verifyRegistrationCeremony_eq_ok_iff.mp hok
    exact hr.declares_iff.mpr fun hdivergent => h ⟨parts, hr, hdivergent⟩

/-! ## A key without `alg` -/

def undeclaredClientData : Json := .obj [("type", .str "webauthn.create"),
  ("challenge", .str (Base64.encodeUrl (List.replicate 32 0))),
  ("origin", .str "https://zero-secret.example")]

/-- `{1: 2, -1: 1, -2: …, -3: …}`. -/
def undeclaredKey : Bytes :=
  [0xa4, 0x01, 0x02, 0x20, 0x01, 0x21, 0x58, 0x20] ++ List.replicate 32 0x01 ++
    [0x22, 0x58, 0x20] ++ List.replicate 32 0x02

def undeclaredAuthData : Bytes :=
  [0x0f, 0x91, 0x86, 0xb5, 0xe1, 0x41, 0xcf, 0x27, 0xed, 0x04, 0xdb, 0x0e, 0xff, 0xae, 0x01, 0x06,
    0xf1, 0x20, 0xd2, 0xa8, 0x90, 0x91, 0xf4, 0x0c, 0x06, 0xff, 0xa3, 0x9e, 0x34, 0xbd, 0x59, 0x5b,
    0x41, 0x00, 0x00, 0x00, 0x01] ++ List.replicate 16 0x00 ++
    [0x00, 0x04, 0x01, 0x02, 0x03, 0x04] ++ undeclaredKey

/-- `{"fmt": "none", "attStmt": {}, "authData": …}`. -/
def undeclaredObject : Bytes :=
  [0xa3, 0x63, 0x66, 0x6d, 0x74, 0x64, 0x6e, 0x6f, 0x6e, 0x65, 0x67, 0x61, 0x74, 0x74, 0x53, 0x74,
    0x6d, 0x74, 0xa0, 0x68, 0x61, 0x75, 0x74, 0x68, 0x44, 0x61, 0x74, 0x61, 0x58,
    UInt8.ofNat undeclaredAuthData.length] ++ undeclaredAuthData

def undeclaredInput : RegistrationCeremonyInput where
  clientDataJson := undeclaredClientData.toVec
  attestationObject := undeclaredObject
  expectedOrigin := "https://zero-secret.example"
  expectedRpId := "zero-secret.example"
  expectedChallenge := ⟨List.replicate 32 0, Bytes.length_zeros⟩
  policy := .any

def undeclaredParts : RegistrationParts where
  object := [(.text "fmt", .text "none"), (.text "attStmt", .map []),
    (.text "authData", .bytes undeclaredAuthData)]
  fmt := "none"
  authData := undeclaredAuthData
  parsed := ⟨undeclaredAuthData.take 32, 0x41, 1,
    some ⟨List.replicate 16 0, [1, 2, 3, 4], undeclaredKey⟩⟩
  cred := ⟨List.replicate 16 0, [1, 2, 3, 4], undeclaredKey⟩
  material := ⟨.es256, 0x04 :: (List.replicate 32 0x01 ++ List.replicate 32 0x02)⟩
  key := ⟨.es256, 0x04 :: (List.replicate 32 0x01 ++ List.replicate 32 0x02), ⟨rfl, rfl⟩⟩

theorem undeclaredClientData_verified : ClientData.verify Libraries.standard.readClientData
    undeclaredInput.clientDataJson "webauthn.create" undeclaredInput.expectedOrigin
    undeclaredInput.expectedChallenge = .ok () := by
  have hread : ClientData.fromSlice undeclaredClientData.toVec =
      some ⟨"webauthn.create", Base64.encodeUrl (List.replicate 32 0),
        "https://zero-secret.example"⟩ := by
    rw [ClientData.fromSlice, Json.fromSlice_toVec]
    rfl
  have hstandard : Libraries.standard.readClientData undeclaredInput.clientDataJson = _ := hread
  rw [ClientData.verify, hstandard]
  simp only [okOr_some, ok_bind, Base64.decodeUrl_encodeUrl]
  rfl

set_option maxRecDepth 10000 in
theorem undeclaredObject_read : Libraries.standard.cborFromReader undeclaredObject =
    some (.map undeclaredParts.object, undeclaredObject.length) := rfl

set_option maxRecDepth 10000 in
theorem undeclared_registered : Registered .standard undeclaredInput undeclaredParts where
  clientData := undeclaredClientData_verified
  size := by decide
  object := ⟨_, undeclaredObject_read⟩
  fmt := rfl
  authData := rfl
  supported := Or.inl rfl
  policy := fun h => (by cases h)
  parsed := rfl
  rpId := by decide +kernel
  userPresent := by decide
  attested := by decide
  cred := rfl
  material := rfl
  key := rfl
  statement := fun h => absurd h (by decide)

/-- A key that declares no algorithm is registered. -/
theorem undeclared_algorithm_registered : ¬ AlgorithmBound .standard undeclaredInput := by
  intro h
  have hok := verifyRegistrationCeremony_eq_ok_iff.mpr ⟨undeclaredParts, undeclared_registered, rfl⟩
  refine undeclared_registered.declares_iff.mp (h _ hok) (Or.inl ?_)
  intro key hkey halg
  have hread : Libraries.standard.coseKeyFromSlice undeclaredKey = some ⟨.int 2, none,
      [(.int (-1), .integer 1), (.int (-2), .bytes (List.replicate 32 1)),
        (.int (-3), .bytes (List.replicate 32 2))]⟩ := rfl
  obtain rfl := Option.some.inj (hread.symm.trans hkey)
  cases halg

end ZeroSecret.Webauthn
