import ZeroSecret.Base.Fallible
import ZeroSecret.Crypto.AuditSealRoundTrip

/-!
# `zs-crypto/src/identity_assertion.rs`: the sealed identity assertion

The same construction as the audit seal with a flat document: the claims are
written canonically, a domain prefix is put before them, the HSM signs, and
the signature joins the document as the array `signatures`. Unlike the audit
seal nothing bounds the size when sealing.

The wire form of a signature component is the one of `audit_seal.rs`.
-/

namespace ZeroSecret.Crypto.IdentityAssertion

open Json (fieldTable required asStr asNat asList)
open AuditSeal (Members HsmAnswer WireSignatureComponent canonicalField bind_fields bind_required
  bind_text)
open Fallible (okOr require bind_eq_ok_iff okOr_bind_eq_ok_iff require_bind_eq_ok_iff)

def suiteV1 : String := "identity-assertion/v1"
def domainPrefix : String := "zero-secret/identity-assertion/v1"
def maxBytes : Nat := 4096
def requiredComponentsV1 : List String := ["ecdsa-p256"]

abbrev Audience : Type := BoundedAscii 256 "audience"

def Audience.new : String → Except FieldError Audience := BoundedAscii.new 256 "audience"

/-! ## Sealing -/

structure AssertionClaims where
  authorityDomain : String
  subjectId : SubjectId
  aal : AssuranceLevel
  authMethod : AuthMethod
  audience : Audience
  issuedAt : Timestamp
  expiresAt : Timestamp
  auditEventId : EventId

inductive SealError where
  | invalidClaims (field : String)
  | sealingUnavailable
deriving DecidableEq

def SealError.toString : SealError → String
  | .invalidClaims field => "contenu d'assertion invalide : champ '" ++ field ++ "'"
  | .sealingUnavailable => "scellement indisponible"

def unsignedDocument (claims : AssertionClaims) : Members :=
  [("schema_version", .num 1),
    ("suite", .str suiteV1),
    ("authority_domain", .str claims.authorityDomain),
    ("subject_id", .str claims.subjectId.val),
    ("aal", .str claims.aal.asStr),
    ("auth_method", .str claims.authMethod.val),
    ("audience", .str claims.audience.val),
    ("issued_at", .str claims.issuedAt.val),
    ("expires_at", .str claims.expiresAt.val),
    ("audit_event_id", .str claims.auditEventId.val)]

/-- `m = prefix ‖ 0x00 ‖ jcs(document without "signatures")`. -/
def signedMessage (unsigned : Members) : Bytes :=
  octets domainPrefix ++ [0x00] ++ canonicalBytes (.obj unsigned)

structure AssertionSealer where
  keyId : String

/-- `AssertionSealer::open` once the HSM has published its key. -/
def AssertionSealer.ofPublicKey (P : Primitives) (publicKey : Bytes) : AssertionSealer :=
  ⟨keyIdFromPublicKey P publicKey⟩

structure SealedAssertion where
  bytes : Bytes
deriving DecidableEq

def SealedAssertion.digest (P : Primitives) (assertion : SealedAssertion) : Digest :=
  P.sha256 assertion.bytes

/-- The complete document around a signature. -/
def sealedDocument (unsigned : Members) (keyId : String) (signature : Bytes) : Bytes :=
  canonicalBytes (.obj (unsigned ++ [("signatures", .arr [.obj [("component", .str "ecdsa-p256"),
    ("key_id", .str keyId), ("value", .str (hexEncode signature))]])]))

def AssertionSealer.seal (P : Primitives) (sealer : AssertionSealer) (hsm : HsmAnswer)
    (claims : AssertionClaims) : Except SealError SealedAssertion :=
  let unsigned := unsignedDocument claims
  let digest := P.sha256 (signedMessage unsigned)
  match hsm digest with
  | none => .error .sealingUnavailable
  | some signature => .ok ⟨sealedDocument unsigned sealer.keyId signature⟩

/-! ## The wire form -/

structure WireDocument where
  schemaVersion : Nat
  suite : String
  authorityDomain : String
  subjectId : String
  aal : String
  authMethod : String
  audience : String
  issuedAt : String
  expiresAt : String
  auditEventId : String
  signatures : List WireSignatureComponent

def WireDocument.read (v : Json) : Option WireDocument := do
  let f ← fieldTable ["schema_version", "suite", "authority_domain", "subject_id", "aal",
    "auth_method", "audience", "issued_at", "expires_at", "audit_event_id", "signatures"] v
  some {
    schemaVersion := ← required f "schema_version" (asNat (2 ^ 32))
    suite := ← required f "suite" asStr
    authorityDomain := ← required f "authority_domain" asStr
    subjectId := ← required f "subject_id" asStr
    aal := ← required f "aal" asStr
    authMethod := ← required f "auth_method" asStr
    audience := ← required f "audience" asStr
    issuedAt := ← required f "issued_at" asStr
    expiresAt := ← required f "expires_at" asStr
    auditEventId := ← required f "audit_event_id" asStr
    signatures := ← required f "signatures" (asList WireSignatureComponent.read) }

/-- `serde_json::from_slice::<WireDocument>`. -/
def WireDocument.fromSlice (bytes : Bytes) : Option WireDocument :=
  (Json.fromSlice bytes).bind WireDocument.read

def unsignedDocumentFromWire (doc : WireDocument) : Members :=
  [("schema_version", .num doc.schemaVersion),
    ("suite", .str doc.suite),
    ("authority_domain", .str doc.authorityDomain),
    ("subject_id", .str doc.subjectId),
    ("aal", .str doc.aal),
    ("auth_method", .str doc.authMethod),
    ("audience", .str doc.audience),
    ("issued_at", .str doc.issuedAt),
    ("expires_at", .str doc.expiresAt),
    ("audit_event_id", .str doc.auditEventId)]

def signaturesFromWire (signatures : List WireSignatureComponent) : Json :=
  .arr (signatures.map fun c =>
    .obj [("component", .str c.component), ("key_id", .str c.keyId), ("value", .str c.value)])

/-! ## Verification -/

structure AcceptedVerifyingKey where
  keyId : String
  raw : Bytes

inductive VerifyError where
  | unknownSuite
  | malformedKey
  | tooLarge
  | malformedDocument
  | nonCanonical
  | invalidSignatureArity
  | unknownKeyId
  | invalidSignature
  | unexpectedAuthorityDomain
  | notYetValidOrExpired
deriving DecidableEq

def acceptVerifyingKey (suite keyId : String) (sec1Uncompressed : Bytes) :
    Except VerifyError AcceptedVerifyingKey :=
  if suite ≠ suiteV1 then .error .unknownSuite
  else if sec1Uncompressed.length ≠ 65 ∨ sec1Uncompressed.head? ≠ some 0x04 then
    .error .malformedKey
  else .ok ⟨keyId, sec1Uncompressed⟩

structure AcceptancePolicy where
  acceptedSuites : List String
  now : Timestamp
  expectedAuthorityDomain : String

structure VerifiedAssertion where
  subjectId : String
  aal : String
  authMethod : String
  audience : String
  issuedAt : String
  expiresAt : String
  auditEventId : String
deriving DecidableEq

def requiredComponents (suite : String) : Except VerifyError (List String) :=
  if suite = suiteV1 then .ok requiredComponentsV1 else .error .unknownSuite

/-- The loop over the components: resolution failures stop it, an invalid
signature does not. -/
def verifyComponents (P : Primitives) (keys : List AcceptedVerifyingKey) (message : Bytes) :
    List WireSignatureComponent → Bool → Except VerifyError Bool
  | [], allValid => .ok allValid
  | c :: cs, allValid => do
      let key ← okOr .unknownKeyId (keys.find? fun k => k.keyId == c.keyId)
      let sig ← okOr .invalidSignature (hexDecode c.value)
      verifyComponents P keys message cs
        (allValid && P.ecdsaP256Sha256Fixed key.raw message sig)

/-- `issued_at ≤ now < expires_at`, compared as texts. -/
def withinWindow (doc : WireDocument) (now : Timestamp) : Bool :=
  octets doc.issuedAt ≤ octets now.val && octets now.val < octets doc.expiresAt

def verify (P : Primitives) (keys : List AcceptedVerifyingKey) (bytes : Bytes)
    (policy : AcceptancePolicy) : Except VerifyError VerifiedAssertion := do
  require (bytes.length ≤ maxBytes) .tooLarge
  let doc ← okOr .malformedDocument (WireDocument.fromSlice bytes)
  require (doc.schemaVersion == 1) .malformedDocument
  require (policy.acceptedSuites.contains doc.suite) .unknownSuite
  let wanted ← requiredComponents doc.suite
  require (doc.signatures.length == wanted.length &&
    (doc.signatures.zip wanted).all fun p => p.1.component == p.2) .invalidSignatureArity
  let unsigned := unsignedDocumentFromWire doc
  require (canonicalBytes (.obj (unsigned ++ [("signatures", signaturesFromWire doc.signatures)]))
    == bytes) .nonCanonical
  let allValid ← verifyComponents P keys (signedMessage unsigned) doc.signatures true
  require allValid .invalidSignature
  require (doc.authorityDomain == policy.expectedAuthorityDomain) .unexpectedAuthorityDomain
  require (withinWindow doc policy.now) .notYetValidOrExpired
  .ok {
    subjectId := doc.subjectId
    aal := doc.aal
    authMethod := doc.authMethod
    audience := doc.audience
    issuedAt := doc.issuedAt
    expiresAt := doc.expiresAt
    auditEventId := doc.auditEventId }

/-! ## Reading back -/

/-- The members of a complete document, in insertion order. -/
def wireMembers (doc : WireDocument) : Members :=
  unsignedDocumentFromWire doc ++ [("signatures", signaturesFromWire doc.signatures)]

theorem read_signatures (signatures : List WireSignatureComponent) :
    asList WireSignatureComponent.read (sortKeysRecursively (signaturesFromWire signatures)) =
      some signatures := by
  rw [signaturesFromWire, sortKeys_arr, asList, List.map_map, List.mapM_map]
  induction signatures with
  | nil => rfl
  | cons c cs ih =>
      rw [List.mapM_cons]
      simp only [Function.comp_apply] at ih ⊢
      rw [AuditSeal.read_signatureComponent, ih]
      rfl

/-- **A canonical document is read back as the wire form it was written
from.** -/
theorem fromSlice_wireMembers {doc : WireDocument} (hv : doc.schemaVersion < 2 ^ 32) :
    WireDocument.fromSlice (canonicalBytes (.obj (wireMembers doc))) = some doc := by
  rw [WireDocument.fromSlice, canonicalBytes, Json.fromSlice_toVec, Option.bind_some,
    WireDocument.read,
    bind_fields ["schema_version", "suite", "authority_domain", "subject_id", "aal",
      "auth_method", "audience", "issued_at", "expires_at", "audit_event_id", "signatures"]
      (List.Sublist.refl _) (by decide) (by decide),
    bind_required (k := "schema_version")
      (by simp [wireMembers, unsignedDocumentFromWire]) (Json.asNat_num hv),
    bind_text (k := "suite") (s := doc.suite) (by simp [wireMembers, unsignedDocumentFromWire]),
    bind_text (k := "authority_domain") (s := doc.authorityDomain)
      (by simp [wireMembers, unsignedDocumentFromWire]),
    bind_text (k := "subject_id") (s := doc.subjectId)
      (by simp [wireMembers, unsignedDocumentFromWire]),
    bind_text (k := "aal") (s := doc.aal) (by simp [wireMembers, unsignedDocumentFromWire]),
    bind_text (k := "auth_method") (s := doc.authMethod)
      (by simp [wireMembers, unsignedDocumentFromWire]),
    bind_text (k := "audience") (s := doc.audience)
      (by simp [wireMembers, unsignedDocumentFromWire]),
    bind_text (k := "issued_at") (s := doc.issuedAt)
      (by simp [wireMembers, unsignedDocumentFromWire]),
    bind_text (k := "expires_at") (s := doc.expiresAt)
      (by simp [wireMembers, unsignedDocumentFromWire]),
    bind_text (k := "audit_event_id") (s := doc.auditEventId)
      (by simp [wireMembers, unsignedDocumentFromWire]),
    bind_required (k := "signatures")
      (by simp [wireMembers, unsignedDocumentFromWire]) (read_signatures doc.signatures)]

/-- The wire form of sealed claims. -/
def AssertionClaims.toWire (claims : AssertionClaims) (keyId : String) (signature : Bytes) :
    WireDocument where
  schemaVersion := 1
  suite := suiteV1
  authorityDomain := claims.authorityDomain
  subjectId := claims.subjectId.val
  aal := claims.aal.asStr
  authMethod := claims.authMethod.val
  audience := claims.audience.val
  issuedAt := claims.issuedAt.val
  expiresAt := claims.expiresAt.val
  auditEventId := claims.auditEventId.val
  signatures := [⟨"ecdsa-p256", keyId, hexEncode signature⟩]

/-- **A sealed assertion is read back as the wire form of its claims.** -/
theorem fromSlice_of_seal {P : Primitives} {sealer : AssertionSealer} {hsm : HsmAnswer}
    {claims : AssertionClaims} {assertion : SealedAssertion}
    (h : sealer.seal P hsm claims = .ok assertion) :
    ∃ signature, WireDocument.fromSlice assertion.bytes =
      some (claims.toWire sealer.keyId signature) := by
  unfold AssertionSealer.seal at h
  dsimp only at h
  split at h
  · cases h
  · rename_i signature _
    obtain rfl := Except.ok.inj h
    have hversion : (claims.toWire sealer.keyId signature).schemaVersion < 2 ^ 32 :=
      Nat.one_lt_two_pow (by decide)
    have hmembers : wireMembers (claims.toWire sealer.keyId signature) = unsignedDocument claims ++
        [("signatures", .arr [.obj [("component", .str "ecdsa-p256"),
          ("key_id", .str sealer.keyId), ("value", .str (hexEncode signature))]])] := rfl
    have hread := fromSlice_wireMembers hversion
    rw [hmembers] at hread
    exact ⟨signature, hread⟩

/-! ## What `verify` accepts -/

/-- The checks of `verify` that look at the document, and what is reported of
it. -/
structure Accepts (P : Primitives) (keys : List AcceptedVerifyingKey) (policy : AcceptancePolicy)
    (doc : WireDocument) (assertion : VerifiedAssertion) : Prop where
  version : doc.schemaVersion = 1
  suite : doc.suite = suiteV1
  accepted : suiteV1 ∈ policy.acceptedSuites
  signature : ∃ keyId value key sig, doc.signatures = [⟨"ecdsa-p256", keyId, value⟩] ∧
    keys.find? (fun k => k.keyId == keyId) = some key ∧ hexDecode value = some sig ∧
    P.ecdsaP256Sha256Fixed key.raw (signedMessage (unsignedDocumentFromWire doc)) sig = true
  domain : doc.authorityDomain = policy.expectedAuthorityDomain
  window : withinWindow doc policy.now = true
  reported : assertion = ⟨doc.subjectId, doc.aal, doc.authMethod, doc.audience, doc.issuedAt,
    doc.expiresAt, doc.auditEventId⟩

theorem requiredComponents_eq_ok_iff {suite : String} {wanted : List String} :
    requiredComponents suite = .ok wanted ↔ suite = suiteV1 ∧ wanted = requiredComponentsV1 := by
  unfold requiredComponents
  by_cases h : suite = suiteV1
  · rw [if_pos h, Except.ok.injEq]
    exact ⟨fun e => ⟨h, e.symm⟩, fun e => e.2.symm⟩
  · rw [if_neg h]
    exact ⟨fun e => (by cases e), fun e => absurd e.1 h⟩

/-- The arity test leaves one component, the one `v1` prescribes. -/
theorem arity_iff {signatures : List WireSignatureComponent} :
    (signatures.length == requiredComponentsV1.length &&
      (signatures.zip requiredComponentsV1).all fun p => p.1.component == p.2) = true ↔
    ∃ keyId value, signatures = [⟨"ecdsa-p256", keyId, value⟩] := by
  constructor
  · intro h
    match signatures, h with
    | [⟨name, keyId, value⟩], h =>
        have hname : name = "ecdsa-p256" := by
          simpa [requiredComponentsV1] using h
        exact ⟨keyId, value, by rw [hname]⟩
  · rintro ⟨keyId, value, rfl⟩
    rfl

theorem verifyComponents_single_iff {P : Primitives} {keys : List AcceptedVerifyingKey}
    {message : Bytes} {c : WireSignatureComponent} :
    verifyComponents P keys message [c] true = .ok true ↔
    ∃ key sig, keys.find? (fun k => k.keyId == c.keyId) = some key ∧
      hexDecode c.value = some sig ∧ P.ecdsaP256Sha256Fixed key.raw message sig = true := by
  unfold verifyComponents
  rw [okOr_bind_eq_ok_iff]
  constructor
  · rintro ⟨key, hkey, h⟩
    obtain ⟨sig, hsig, h⟩ := okOr_bind_eq_ok_iff.mp h
    exact ⟨key, sig, hkey, hsig, by simpa [verifyComponents] using h⟩
  · rintro ⟨key, sig, hkey, hsig, h⟩
    exact ⟨key, hkey, okOr_bind_eq_ok_iff.mpr ⟨sig, hsig, by simpa [verifyComponents] using h⟩⟩

/-- **`verify` accepts exactly the canonical octets of an accepted
document.** -/
theorem verify_eq_ok_iff {P : Primitives} {keys : List AcceptedVerifyingKey} {bytes : Bytes}
    {policy : AcceptancePolicy} {assertion : VerifiedAssertion} :
    verify P keys bytes policy = .ok assertion ↔
    bytes.length ≤ maxBytes ∧ ∃ doc, WireDocument.fromSlice bytes = some doc ∧
      canonicalBytes (.obj (wireMembers doc)) = bytes ∧ Accepts P keys policy doc assertion := by
  constructor
  · intro h
    unfold verify at h
    obtain ⟨hsize, h⟩ := require_bind_eq_ok_iff.mp h
    obtain ⟨doc, hdoc, h⟩ := okOr_bind_eq_ok_iff.mp h
    obtain ⟨hversion, h⟩ := require_bind_eq_ok_iff.mp h
    obtain ⟨haccepted, h⟩ := require_bind_eq_ok_iff.mp h
    obtain ⟨wanted, hwanted, h⟩ := bind_eq_ok_iff.mp h
    obtain ⟨hsuite, rfl⟩ := requiredComponents_eq_ok_iff.mp hwanted
    obtain ⟨harity, h⟩ := require_bind_eq_ok_iff.mp h
    obtain ⟨keyId, value, hsigs⟩ := arity_iff.mp harity
    obtain ⟨hcanonical, h⟩ := require_bind_eq_ok_iff.mp h
    obtain ⟨allValid, hall, h⟩ := bind_eq_ok_iff.mp h
    obtain ⟨hvalid, h⟩ := require_bind_eq_ok_iff.mp h
    obtain ⟨hdomain, h⟩ := require_bind_eq_ok_iff.mp h
    obtain ⟨hwindow, h⟩ := require_bind_eq_ok_iff.mp h
    rw [hsigs, hvalid] at hall
    obtain ⟨key, sig, hkey, hdecode, hecdsa⟩ := verifyComponents_single_iff.mp hall
    rw [hsuite] at haccepted
    refine ⟨of_decide_eq_true hsize, doc, hdoc, eq_of_beq hcanonical, ?_⟩
    exact {
      version := eq_of_beq hversion
      suite := hsuite
      accepted := List.mem_of_elem_eq_true haccepted
      signature := ⟨keyId, value, key, sig, hsigs, hkey, hdecode, hecdsa⟩
      domain := eq_of_beq hdomain
      window := hwindow
      reported := (Except.ok.inj h).symm }
  · rintro ⟨hsize, doc, hdoc, hcanonical, hacc⟩
    obtain ⟨keyId, value, key, sig, hsigs, hkey, hdecode, hecdsa⟩ := hacc.signature
    have hall : verifyComponents P keys (signedMessage (unsignedDocumentFromWire doc))
        doc.signatures true = .ok true := by
      rw [hsigs]
      exact verifyComponents_single_iff.mpr ⟨key, sig, hkey, hdecode, hecdsa⟩
    refine require_bind_eq_ok_iff.mpr ⟨decide_eq_true hsize, ?_⟩
    refine okOr_bind_eq_ok_iff.mpr ⟨doc, hdoc, ?_⟩
    refine require_bind_eq_ok_iff.mpr ⟨by rw [hacc.version]; rfl, ?_⟩
    refine require_bind_eq_ok_iff.mpr
      ⟨by rw [hacc.suite]; exact List.elem_eq_true_of_mem hacc.accepted, ?_⟩
    refine bind_eq_ok_iff.mpr ⟨_, requiredComponents_eq_ok_iff.mpr ⟨hacc.suite, rfl⟩, ?_⟩
    refine require_bind_eq_ok_iff.mpr ⟨arity_iff.mpr ⟨keyId, value, hsigs⟩, ?_⟩
    refine require_bind_eq_ok_iff.mpr ⟨beq_iff_eq.mpr hcanonical, ?_⟩
    refine bind_eq_ok_iff.mpr ⟨true, hall, ?_⟩
    refine require_bind_eq_ok_iff.mpr ⟨rfl, ?_⟩
    refine require_bind_eq_ok_iff.mpr ⟨beq_iff_eq.mpr hacc.domain, ?_⟩
    refine require_bind_eq_ok_iff.mpr ⟨hacc.window, ?_⟩
    rw [hacc.reported]

/-! ### One login -/

/-- The claims of one login, under any domain. -/
def loginClaims (domain : String) : AssertionClaims where
  authorityDomain := domain
  subjectId := sampleSubject
  aal := .aal2
  authMethod := ⟨"webauthn/device-bound", by decide, by decide, by decide⟩
  audience := ⟨"policy-engine", by decide, by decide, by decide⟩
  issuedAt := ⟨"2026-08-23T10:00:00Z", by decide⟩
  expiresAt := ⟨"2026-08-23T10:02:00Z", by decide⟩
  auditEventId := ⟨"0198e6c1-0000-7000-8000-000000000000", by decide⟩

end ZeroSecret.Crypto.IdentityAssertion
