import ZeroSecret.Crypto.AuditSealSize
import ZeroSecret.Crypto.IdentityAssertion

/-!
# Round trip of the identity assertion

A sealed assertion is accepted inside its window, and refused outside of it as
not yet valid or expired, as long as it is not larger than what `verify` reads.
`seal` does not look at the size, which every claim bounds but one: the
authority domain is a plain text. The size of a sealed assertion is known from
the claims, so which claims come back is known before sealing.
-/

namespace ZeroSecret.Crypto.IdentityAssertion

open AuditSeal (HsmAnswer HsmSigns canonicalBytes_singleton_size keyId_short)
open Fallible (require okOr)

/-! ## What comes back -/

/-- `issued_at ≤ now < expires_at`; timestamps of one format are in the order
of their texts. -/
def AssertionClaims.validAt (claims : AssertionClaims) (now : Timestamp) : Bool :=
  octets claims.issuedAt.val ≤ octets now.val && octets now.val < octets claims.expiresAt.val

/-- What `verify` reports of accepted claims. -/
def AssertionClaims.verified (claims : AssertionClaims) : VerifiedAssertion where
  subjectId := claims.subjectId.val
  aal := claims.aal.asStr
  authMethod := claims.authMethod.val
  audience := claims.audience.val
  issuedAt := claims.issuedAt.val
  expiresAt := claims.expiresAt.val
  auditEventId := claims.auditEventId.val

/-- The assertion comes back: under every policy that takes the suite and
expects the sealed domain, the claims are reported inside their window, and the
window is what is refused outside of it. -/
def ComesBack (P : Primitives) (keys : List AcceptedVerifyingKey) (claims : AssertionClaims)
    (bytes : Bytes) : Prop :=
  ∀ policy : AcceptancePolicy, suiteV1 ∈ policy.acceptedSuites →
    policy.expectedAuthorityDomain = claims.authorityDomain →
    verify P keys bytes policy = if claims.validAt policy.now then .ok claims.verified
      else .error .notYetValidOrExpired

/-! ## The size of a sealed assertion -/

/-- Octets of a text between quotes, escapes included. -/
def writtenSize (s : String) : Nat := (Json.utf8 (Json.writeStr s)).length

/-- The octets of the claims whose size varies. -/
def AssertionClaims.varyingSize (claims : AssertionClaims) : Nat :=
  writtenSize claims.authorityDomain + (octets claims.subjectId.val).length +
    (octets claims.authMethod.val).length + (octets claims.audience.val).length

/-- The octets of a sealed assertion around them. -/
def fixedSize : Nat := 468

/-- The sealed assertion is no larger than what `verify` reads. -/
def AssertionClaims.Fits (claims : AssertionClaims) : Prop :=
  claims.varyingSize + fixedSize ≤ maxBytes

instance (claims : AssertionClaims) : Decidable claims.Fits :=
  inferInstanceAs (Decidable (_ ≤ _))

theorem size_timestamp (t : Timestamp) : (canonicalBytes (.str t.val)).length = 22 := by
  have h := t.valid
  rw [timestampValid, Bool.and_eq_true, beq_iff_eq] at h
  rw [canonicalBytes_str_size, h.1]
  refine AuditSeal.shapeOk_printable ?_ AuditSeal.isAsciiDigit_printable h.2
  intro i b hb
  unfold timestampSeparator at hb
  split at hb
  all_goals first
    | (obtain rfl := Option.some.inj hb; rfl)
    | cases hb

theorem size_uuid {field : String} {requireV7 : Bool} (u : UuidString field requireV7) :
    (canonicalBytes (.str u.val)).length = 38 := by
  have h := u.valid
  rw [uuidValid, Bool.and_eq_true, Bool.and_eq_true, beq_iff_eq] at h
  rw [canonicalBytes_str_size, h.1.1]
  refine AuditSeal.shapeOk_printable ?_ AuditSeal.isAsciiHexdigit_printable h.1.2
  intro i b hb
  unfold uuidSeparator at hb
  split at hb
  all_goals first
    | (obtain rfl := Option.some.inj hb; rfl)
    | cases hb

theorem size_aal (a : AssuranceLevel) : (canonicalBytes (.str a.asStr)).length = 6 := by
  cases a <;> decide

theorem size_str (s : String) : (canonicalBytes (.str s)).length = writtenSize s := by
  rw [canonicalBytes, sortKeys_str, Json.toVec, Json.write, writtenSize]

/-- **The size of a sealed assertion**, from its claims. -/
theorem sealedDocument_length (claims : AssertionClaims) {keyId : String} {signature : Bytes}
    (hprintable : ∀ b ∈ octets keyId, isPrintable b = true) (hkey : (octets keyId).length = 16)
    (hsig : signature.length = 64) :
    (sealedDocument (unsignedDocument claims) keyId signature).length =
      claims.varyingSize + fixedSize := by
  have hvalue : (canonicalBytes (.str (hexEncode signature))).length = 130 := by
    rw [canonicalBytes_str_size (hexEncode_printable signature), hexEncode_size, hsig]
  have hid : (canonicalBytes (.str keyId)).length = 18 := by
    rw [canonicalBytes_str_size hprintable, hkey]
  have hschema : (canonicalBytes (.num 1)).length = 1 := by decide
  have hsuite : (canonicalBytes (.str suiteV1)).length = 23 := by decide
  have hcomponent : (canonicalBytes (.str "ecdsa-p256")).length = 12 := by decide
  have hkeys : ["schema_version", "suite", "authority_domain", "subject_id", "aal", "auth_method",
      "audience", "issued_at", "expires_at", "audit_event_id", "signatures", "component", "key_id",
      "value"].map writtenSize = [16, 7, 18, 12, 5, 13, 10, 11, 12, 16, 12, 11, 8, 7] := by decide
  simp only [List.map_cons, List.map_nil, List.cons.injEq, writtenSize, and_true] at hkeys
  obtain ⟨k1, k2, k3, k4, k5, k6, k7, k8, k9, k10, k11, k12, k13, k14⟩ := hkeys
  rw [sealedDocument, unsignedDocument, canonicalBytes_obj_size (by simp)]
  simp only [List.cons_append, List.nil_append, List.map_cons, List.map_nil, List.sum_cons,
    List.sum_nil, List.length_cons, List.length_nil, canonicalMemberSize,
    canonicalBytes_singleton_size, canonicalBytes_obj_size (List.cons_ne_nil _ _), hvalue, hid,
    hschema, hsuite, hcomponent, size_timestamp, size_uuid, size_aal,
    size_str claims.authorityDomain, canonicalBytes_str_size claims.subjectId.printable,
    canonicalBytes_str_size claims.authMethod.printable,
    canonicalBytes_str_size claims.audience.printable, k1, k2, k3, k4, k5, k6, k7, k8, k9, k10,
    k11, k12, k13, k14]
  rw [AssertionClaims.varyingSize, fixedSize]
  omega

/-! ## Verification of a sealed assertion -/

theorem verify_tooLarge {P : Primitives} {keys : List AcceptedVerifyingKey} {bytes : Bytes}
    {policy : AcceptancePolicy} (h : maxBytes < bytes.length) :
    verify P keys bytes policy = .error .tooLarge := by
  have hsize : decide (bytes.length ≤ maxBytes) = false := decide_eq_false (Nat.not_le_of_lt h)
  rw [verify, hsize]
  rfl

section Steps

variable {ε α β : Type}

theorem bind_require {b : Bool} (h : b = true) (e : ε) (g : Unit → Except ε β) :
    (require b e >>= g) = g () := by
  rw [h]
  rfl

theorem bind_okOr {o : Option α} {a : α} (h : o = some a) (e : ε) (g : α → Except ε β) :
    (okOr e o >>= g) = g a := by
  rw [h]
  rfl

end Steps

/-- What `verify` reports of a document. -/
def WireDocument.reported (doc : WireDocument) : VerifiedAssertion where
  subjectId := doc.subjectId
  aal := doc.aal
  authMethod := doc.authMethod
  audience := doc.audience
  issuedAt := doc.issuedAt
  expiresAt := doc.expiresAt
  auditEventId := doc.auditEventId

/-- **Only the window is left to decide** once every other check passes. -/
theorem verify_eq_window {P : Primitives} {keys : List AcceptedVerifyingKey} {bytes : Bytes}
    {policy : AcceptancePolicy} {doc : WireDocument} {keyId value : String}
    (hsize : bytes.length ≤ maxBytes) (hread : WireDocument.fromSlice bytes = some doc)
    (hversion : doc.schemaVersion = 1) (hsuite : doc.suite = suiteV1)
    (haccepted : suiteV1 ∈ policy.acceptedSuites)
    (hsigs : doc.signatures = [⟨"ecdsa-p256", keyId, value⟩])
    (hcanonical : canonicalBytes (.obj (wireMembers doc)) = bytes)
    (hvalid : verifyComponents P keys (signedMessage (unsignedDocumentFromWire doc))
      doc.signatures true = .ok true)
    (hdomain : doc.authorityDomain = policy.expectedAuthorityDomain) :
    verify P keys bytes policy =
      if withinWindow doc policy.now then .ok doc.reported else .error .notYetValidOrExpired := by
  have hcomponents : requiredComponents doc.suite = .ok requiredComponentsV1 :=
    requiredComponents_eq_ok_iff.mpr ⟨hsuite, rfl⟩
  refine (bind_require (decide_eq_true hsize) _ _).trans ?_
  refine (bind_okOr hread _ _).trans ?_
  refine (bind_require (beq_iff_eq.mpr hversion) _ _).trans ?_
  refine (bind_require (by rw [hsuite]; exact List.elem_eq_true_of_mem haccepted) _ _).trans ?_
  rw [hcomponents, Fallible.ok_bind]
  refine (bind_require (arity_iff.mpr ⟨keyId, value, hsigs⟩) _ _).trans ?_
  refine (bind_require (beq_iff_eq.mpr hcanonical) _ _).trans ?_
  rw [hvalid, Fallible.ok_bind]
  refine (bind_require rfl _ _).trans ?_
  refine (bind_require (beq_iff_eq.mpr hdomain) _ _).trans ?_
  cases withinWindow doc policy.now with
  | false => rfl
  | true => rfl

/-- What `seal` returns, and the signature in it. -/
theorem seal_eq_ok_iff {P : Primitives} {sealer : AssertionSealer} {hsm : HsmAnswer}
    {claims : AssertionClaims} {assertion : SealedAssertion} :
    sealer.seal P hsm claims = .ok assertion ↔
      ∃ signature, hsm (P.sha256 (signedMessage (unsignedDocument claims))) = some signature ∧
        assertion = ⟨sealedDocument (unsignedDocument claims) sealer.keyId signature⟩ := by
  unfold AssertionSealer.seal
  dsimp only
  cases hsm (P.sha256 (signedMessage (unsignedDocument claims))) with
  | none => simp
  | some signature => simp [eq_comm]

/-- The sealed octets are the canonical octets of the wire form. -/
theorem canonicalBytes_toWire (claims : AssertionClaims) (keyId : String) (signature : Bytes) :
    canonicalBytes (.obj (wireMembers (claims.toWire keyId signature))) =
      sealedDocument (unsignedDocument claims) keyId signature := rfl

theorem fromSlice_sealedDocument (claims : AssertionClaims) (keyId : String) (signature : Bytes) :
    WireDocument.fromSlice (sealedDocument (unsignedDocument claims) keyId signature) =
      some (claims.toWire keyId signature) := by
  have hversion : (claims.toWire keyId signature).schemaVersion < 2 ^ 32 :=
    Nat.one_lt_two_pow (by decide)
  rw [← canonicalBytes_toWire]
  exact fromSlice_wireMembers hversion

section Sealed

variable {P : Primitives} {publicKey : Bytes} {hsm : HsmAnswer} {claims : AssertionClaims}
  {keys : List AcceptedVerifyingKey} {assertion : SealedAssertion}
  (hhsm : HsmSigns P publicKey hsm)
  (hseal : (AssertionSealer.ofPublicKey P publicKey).seal P hsm claims = .ok assertion)

include hhsm hseal

theorem sealed_length : assertion.bytes.length = claims.varyingSize + fixedSize := by
  obtain ⟨signature, hsig, rfl⟩ := seal_eq_ok_iff.mp hseal
  obtain ⟨hprintable, h16⟩ := keyId_short P publicKey
  exact sealedDocument_length claims hprintable h16 (hhsm _ _ hsig).1

theorem comesBack_of_fits
    (hkey : keys.find? (fun k => k.keyId == (AssertionSealer.ofPublicKey P publicKey).keyId) =
      some ⟨(AssertionSealer.ofPublicKey P publicKey).keyId, publicKey⟩) (hfits : claims.Fits) :
    ComesBack P keys claims assertion.bytes := by
  have hsize := sealed_length hhsm hseal
  obtain ⟨signature, hsig, rfl⟩ := seal_eq_ok_iff.mp hseal
  obtain ⟨-, hvalid⟩ := hhsm _ _ hsig
  intro policy hsuite hdomain
  have hcomponents : verifyComponents P keys (signedMessage (unsignedDocument claims))
      [⟨"ecdsa-p256", (AssertionSealer.ofPublicKey P publicKey).keyId, hexEncode signature⟩]
      true = .ok true :=
    verifyComponents_single_iff.mpr ⟨_, signature, hkey, hexDecode_hexEncode signature, hvalid⟩
  exact verify_eq_window (hsize.trans_le hfits) (fromSlice_sealedDocument claims _ signature) rfl
    rfl hsuite rfl (canonicalBytes_toWire claims _ signature) hcomponents hdomain.symm

end Sealed

/-- **A sealed assertion comes back exactly when its claims fit.** `seal`
does not bound the size that `verify` bounds: claims that do not fit are sealed,
and refused as too large under every policy. -/
theorem sealed_assertion_comes_back_iff (P : Primitives) (publicKey : Bytes) (hsm : HsmAnswer)
    (claims : AssertionClaims) (keys : List AcceptedVerifyingKey) (assertion : SealedAssertion)
    (hhsm : HsmSigns P publicKey hsm)
    (hkey : keys.find? (fun k => k.keyId == (AssertionSealer.ofPublicKey P publicKey).keyId) =
      some ⟨(AssertionSealer.ofPublicKey P publicKey).keyId, publicKey⟩)
    (hseal : (AssertionSealer.ofPublicKey P publicKey).seal P hsm claims = .ok assertion) :
    ComesBack P keys claims assertion.bytes ↔ claims.Fits := by
  constructor
  · intro h
    by_contra hlarge
    have hpolicy := h ⟨[suiteV1], claims.issuedAt, claims.authorityDomain⟩ List.mem_cons_self rfl
    have hsize := (Nat.lt_of_not_le hlarge).trans_eq (sealed_length hhsm hseal).symm
    have htoo := (verify_tooLarge hsize).symm.trans hpolicy
    split at htoo
    · cases htoo
    · cases htoo
  · intro hfits
    exact comesBack_of_fits hhsm hseal hkey hfits

/-! ### Claims of two sizes -/

def loginKey : Bytes :=
  (hexDecode ("04a5556b8d97669b900cfe5fa8c5307b9b834579c5a6371fc7d0a11f1cd0b7fef" ++
    "055acbc48bdbc314eaf49450f787e2e98fe23c1264df9b60548d1b18d291a8b33")).getD []

/-- What the HSM has signed: the digests of the claims under the domain
`identity-provider`, and under a domain of 3600 letters. -/
def loginSignatures : List (Bytes × Bytes) :=
  [((hexDecode "76b78f475a3dc71ac3d93e11e78ded9b5ef732e858c2fc4c244f9be790b23a65").getD [],
      (hexDecode ("a05edcc3b84d53092d46066d534ef1818fdea325d231a7d9777ed80c827c1334" ++
        "338044fc960189baa63c19cdef0cd2454f68b0257235c45138c0a9e6ab02626c")).getD []),
    ((hexDecode "9e441e1822f6cd6eac74e79b492a1e8c44430ce6dc99a4c820c29b19b92ca76a").getD [],
      (hexDecode ("2bbde245173501427b09e8351f1f74e3a2e7d6070e4442918d7a413b2becda3e" ++
        "c587914a0222f48ee4b56e87d67ead6c58841e107e18c401d1251d523563fe16")).getD [])]

def loginHsm : HsmAnswer := fun digest =>
  (loginSignatures.find? fun p => p.1 = digest.val).map Prod.snd

theorem loginHsm_signs : HsmSigns Primitives.standard loginKey loginHsm := by
  have hall : ∀ p ∈ loginSignatures, p.2.length = 64 ∧
      P256.verifyDigest loginKey p.1 p.2 = true := by
    decide +kernel
  intro m sig h
  obtain ⟨p, hp, rfl⟩ := Option.map_eq_some_iff.mp h
  obtain ⟨h64, hvalid⟩ := hall p (List.mem_of_find?_eq_some hp)
  have hdigest : p.1 = (Primitives.standard.sha256 m).val := by
    simpa using List.find?_some hp
  exact ⟨h64, by rw [Primitives.standard_ecdsa, ← hdigest, hvalid]⟩

/-- The canonical text of the claims, around the domain. -/
def loginTextBefore : List Char :=
  Json.chars ("\x7b\"aal\":\"AAL2\",\"audience\":\"policy-engine\"," ++
    "\"audit_event_id\":\"0198e6c1-0000-7000-8000-000000000000\"," ++
    "\"auth_method\":\"webauthn/device-bound\",\"authority_domain\":")

def loginTextAfter : List Char :=
  Json.chars (",\"expires_at\":\"2026-08-23T10:02:00Z\",\"issued_at\":\"2026-08-23T10:00:00Z\"," ++
    "\"schema_version\":1,\"subject_id\":\"alice\",\"suite\":\"identity-assertion/v1\"\x7d")

set_option maxRecDepth 100000 in
theorem write_loginClaims (domain : String) :
    (sortKeysRecursively (.obj (unsignedDocument (loginClaims domain)))).write =
      loginTextBefore ++ (Json.writeStr domain ++ loginTextAfter) := rfl

theorem signedMessage_loginClaims (domain : String) :
    signedMessage (unsignedDocument (loginClaims domain)) = octets domainPrefix ++ [0x00] ++
      (Json.utf8 loginTextBefore ++
        (Json.utf8 (Json.writeStr domain) ++ Json.utf8 loginTextAfter)) := by
  rw [signedMessage, canonicalBytes, Json.toVec, write_loginClaims, Json.utf8_append,
    Json.utf8_append]

/-- A run of one letter, as it is written. -/
theorem utf8_writeStr_letters (n : Nat) :
    Json.utf8 (Json.writeStr (String.ofList (List.replicate n 'a'))) =
      0x22 :: (List.replicate n 0x61 ++ [0x22]) := by
  have hutf8 : ∀ n, Json.utf8 (List.replicate n 'a') = List.replicate n 0x61 := by
    intro n
    induction n with
    | zero => rfl
    | succ n ih => exact congrArg (0x61 :: ·) ih
  have hescape : Json.escape (List.replicate n 'a') = List.replicate n 'a' := by
    refine escape_printable fun b hb => ?_
    rw [hutf8] at hb
    rw [List.eq_of_mem_replicate hb]
    rfl
  rw [Json.writeStr, Json.chars_eq_toList, String.toList_ofList, hescape]
  show 0x22 :: Json.utf8 (List.replicate n 'a' ++ ['"']) = _
  rw [Json.utf8_append, hutf8]
  rfl

theorem login_sealed : ∃ assertion,
    (AssertionSealer.ofPublicKey Primitives.standard loginKey).seal Primitives.standard loginHsm
      (loginClaims "identity-provider") = .ok assertion := by
  have hsigned : ∃ signature, loginHsm (Primitives.standard.sha256
      (signedMessage (unsignedDocument (loginClaims "identity-provider")))) = some signature := by
    rw [Primitives.standard_eq_evaluated]
    exact Option.isSome_iff_exists.mp (by decide +kernel)
  obtain ⟨signature, hsig⟩ := hsigned
  exact ⟨_, seal_eq_ok_iff.mpr ⟨signature, hsig, rfl⟩⟩

theorem login_fits : (loginClaims "identity-provider").Fits := by
  decide +kernel

theorem find?_own_keyId (keyId : String) (raw : Bytes) :
    [(⟨keyId, raw⟩ : AcceptedVerifyingKey)].find? (fun k => k.keyId == keyId) =
      some ⟨keyId, raw⟩ := by
  rw [List.find?_cons, beq_self_eq_true]

/-- Under the provider's own domain the login comes back. -/
theorem login_comes_back : ∃ assertion,
    (AssertionSealer.ofPublicKey Primitives.standard loginKey).seal Primitives.standard loginHsm
      (loginClaims "identity-provider") = .ok assertion ∧
    ComesBack Primitives.standard
      [⟨(AssertionSealer.ofPublicKey Primitives.standard loginKey).keyId, loginKey⟩]
      (loginClaims "identity-provider") assertion.bytes := by
  obtain ⟨assertion, hseal⟩ := login_sealed
  exact ⟨assertion, hseal, (sealed_assertion_comes_back_iff Primitives.standard loginKey loginHsm
    (loginClaims "identity-provider") _ assertion loginHsm_signs (find?_own_keyId _ _)
    hseal).mpr login_fits⟩

/-- The same login, under a domain of 3600 letters. -/
def longDomainClaims : AssertionClaims := loginClaims (String.ofList (List.replicate 3600 'a'))

theorem longDomainClaims_signed : (loginHsm (Primitives.standard.sha256
    (signedMessage (unsignedDocument longDomainClaims)))).isSome = true := by
  rw [longDomainClaims, signedMessage_loginClaims, utf8_writeStr_letters,
    Primitives.standard_eq_evaluated]
  decide +kernel

/-- **Sealed, and refused in its window**: nothing bounded the domain. -/
theorem long_domain_sealed_and_refused : ∃ assertion,
    (AssertionSealer.ofPublicKey Primitives.standard loginKey).seal Primitives.standard loginHsm
      longDomainClaims = .ok assertion ∧
    HsmSigns Primitives.standard loginKey loginHsm ∧
    longDomainClaims.validAt longDomainClaims.issuedAt = true ∧
    verify Primitives.standard
      [⟨(AssertionSealer.ofPublicKey Primitives.standard loginKey).keyId, loginKey⟩]
      assertion.bytes ⟨[suiteV1], longDomainClaims.issuedAt, longDomainClaims.authorityDomain⟩ =
        .error .tooLarge := by
  obtain ⟨signature, hsig⟩ := Option.isSome_iff_exists.mp longDomainClaims_signed
  obtain ⟨hprintable, h16⟩ := keyId_short Primitives.standard loginKey
  have hsize := sealedDocument_length longDomainClaims hprintable h16 (loginHsm_signs _ _ hsig).1
  have hwritten : writtenSize longDomainClaims.authorityDomain = 3602 := by
    rw [writtenSize, longDomainClaims, loginClaims, utf8_writeStr_letters, List.length_cons,
      List.length_append, List.length_replicate]
    rfl
  have hothers : (octets longDomainClaims.subjectId.val).length +
      (octets longDomainClaims.authMethod.val).length +
      (octets longDomainClaims.audience.val).length = 39 := by decide
  refine ⟨_, seal_eq_ok_iff.mpr ⟨signature, hsig, rfl⟩, loginHsm_signs, by decide +kernel, ?_⟩
  apply verify_tooLarge
  refine Nat.lt_of_lt_of_eq ?_ hsize.symm
  rw [AssertionClaims.varyingSize, hwritten, fixedSize, maxBytes]
  omega

end ZeroSecret.Crypto.IdentityAssertion
