import ZeroSecret.Base.Framing
import ZeroSecret.Crypto.CanonicalForm
import ZeroSecret.Crypto.DecisionSeal
import ZeroSecret.Crypto.IdentityAssertion

/-!
# The octets that are signed

Three suites sign with the same construction: a domain prefix, a NUL, a
canonical document. Over all of them together no two contents share a message.
The prefix can be cut off, being free of NUL, and tells the suites apart; the
canonical document tells the contents of one suite apart. For the two suites
with a wire form the content is read back with the reader of the suite, once a
signature, the same on both sides, is put where the reader wants one.
-/

namespace ZeroSecret.Crypto

open AuditSeal (Members)

/-! ## Documents without their signature -/

/-- A member added to equal canonical objects leaves them equal. -/
theorem sortKeys_snoc_congr {kvs kvs' : Members} (m : String × Json)
    (hn : ((kvs ++ [m]).map Prod.fst).Nodup)
    (h : sortKeysRecursively (.obj kvs) = sortKeysRecursively (.obj kvs')) :
    sortKeysRecursively (.obj (kvs ++ [m])) = sortKeysRecursively (.obj (kvs' ++ [m])) := by
  rw [sortKeys_obj, sortKeys_obj, Json.obj.injEq] at h
  have hperm : (sortMembers kvs).Perm (sortMembers kvs') :=
    (sorted_perm kvs).symm.trans ((List.Perm.of_eq h).trans (sorted_perm kvs'))
  have hsnoc : (sortMembers (kvs ++ [m])).Perm (sortMembers (kvs' ++ [m])) := by
    simp only [sortMembers_eq_map, List.map_append] at hperm ⊢
    exact hperm.append_right _
  rw [sortKeys_obj, sortKeys_obj,
    (KeyOrder.insertionSort_eq_iff_perm keyLe_antisymm (by rwa [sortMembers_keys])).mpr hsnoc]

namespace AuditSeal

/-- **The canonical unsigned document leaves out the signature and nothing
else.** -/
theorem wire_eq_of_unsigned_eq {doc doc' : WireDocument} (hb : doc.Bounded) (hb' : doc'.Bounded)
    (h : sortKeysRecursively (.obj (unsignedDocumentFromWire doc)) =
      sortKeysRecursively (.obj (unsignedDocumentFromWire doc'))) :
    doc = { doc' with signature := doc.signature } := by
  have hnodup : ((wireMembers doc).map Prod.fst).Nodup :=
    (wireMembers_keys doc).nodup (by decide)
  have hread : WireDocument.read (sortKeysRecursively
      (.obj (wireMembers { doc' with signature := doc.signature }))) = some doc := by
    rw [← read_wireMembers hb]
    exact congrArg WireDocument.read (sortKeys_snoc_congr _ hnodup h).symm
  have hbounded : WireDocument.Bounded { doc' with signature := doc.signature } :=
    ⟨hb'.schemaVersion, hb'.sequence, hb'.ttl⟩
  rw [read_wireMembers hbounded] at hread
  exact (Option.some.inj hread).symm

/-- The unsigned documents: what `unsigned_document_from_wire` builds.
`unsigned_document` builds no other (`UnsignedDocument.ofFields`). -/
abbrev UnsignedDocument : Type :=
  { members : Members // ∃ doc : WireDocument, doc.Bounded ∧
    unsignedDocumentFromWire doc = members }

def UnsignedDocument.ofFields (fields : AuditEventFields) : UnsignedDocument :=
  ⟨unsignedDocument fields, fields.toWire (wireSignature "" ""),
    toWire_bounded fields (wireSignature "" ""),
    unsignedDocumentFromWire_toWire fields (wireSignature "" "")⟩

end AuditSeal

namespace IdentityAssertion

theorem wireMembers_keys (doc : WireDocument) : (wireMembers doc).map Prod.fst =
    ["schema_version", "suite", "authority_domain", "subject_id", "aal", "auth_method",
      "audience", "issued_at", "expires_at", "audit_event_id", "signatures"] := rfl

/-- **The canonical unsigned document leaves out the signatures and nothing
else.** -/
theorem wire_eq_of_unsigned_eq {doc doc' : WireDocument} (hv : doc.schemaVersion < 2 ^ 32)
    (hv' : doc'.schemaVersion < 2 ^ 32)
    (h : sortKeysRecursively (.obj (unsignedDocumentFromWire doc)) =
      sortKeysRecursively (.obj (unsignedDocumentFromWire doc'))) :
    doc = { doc' with signatures := doc.signatures } := by
  have hnodup : ((wireMembers doc).map Prod.fst).Nodup := by
    rw [wireMembers_keys]
    decide
  have hbytes : canonicalBytes (.obj (wireMembers doc)) =
      canonicalBytes (.obj (wireMembers { doc' with signatures := doc.signatures })) :=
    congrArg Json.toVec (sortKeys_snoc_congr _ hnodup h)
  have hversion : WireDocument.schemaVersion { doc' with signatures := doc.signatures } < 2 ^ 32 :=
    hv'
  have hread := fromSlice_wireMembers hv
  rw [hbytes, fromSlice_wireMembers hversion] at hread
  exact (Option.some.inj hread).symm

/-- The unsigned documents: what `unsigned_document_from_wire` builds.
`unsigned_document` builds no other (`UnsignedDocument.ofClaims`). -/
abbrev UnsignedDocument : Type :=
  { members : Members // ∃ doc : WireDocument, doc.schemaVersion < 2 ^ 32 ∧
    unsignedDocumentFromWire doc = members }

def UnsignedDocument.ofClaims (claims : AssertionClaims) : UnsignedDocument :=
  ⟨unsignedDocument claims, claims.toWire "" [], Nat.one_lt_two_pow (by decide), rfl⟩

end IdentityAssertion

/-! ## Validated fields are their texts -/

theorem BoundedAscii.val_injective {maxLen : Nat} {field : String} :
    Function.Injective (@BoundedAscii.val maxLen field) := by
  rintro ⟨s, _, _, _⟩ ⟨t, _, _, _⟩ h
  obtain rfl : s = t := h
  rfl

theorem Timestamp.val_injective : Function.Injective Timestamp.val := by
  rintro ⟨s, _⟩ ⟨t, _⟩ h
  obtain rfl : s = t := h
  rfl

theorem UuidString.val_injective {field : String} {requireV7 : Bool} :
    Function.Injective (@UuidString.val field requireV7) := by
  rintro ⟨s, _⟩ ⟨t, _⟩ h
  obtain rfl : s = t := h
  rfl

theorem AssuranceLevel.asStr_injective : Function.Injective AssuranceLevel.asStr := by
  intro a b h
  cases a <;> cases b <;> first | rfl | exact absurd h (by decide)

namespace AuditSeal

theorem EventType.asContractStr_injective : Function.Injective EventType.asContractStr := by
  intro a b h
  have h' := congrArg EventType.fromContractStr h
  rw [EventType.fromContractStr_asContractStr, EventType.fromContractStr_asContractStr] at h'
  exact Option.some.inj h'

theorem ActorKind.asContractStr_injective : Function.Injective ActorKind.asContractStr := by
  intro a b h
  have h' := congrArg ActorKind.fromContractStr h
  rw [ActorKind.fromContractStr_asContractStr, ActorKind.fromContractStr_asContractStr] at h'
  exact Option.some.inj h'

theorem Outcome.asContractStr_injective : Function.Injective Outcome.asContractStr := by
  intro a b h
  have h' := congrArg Outcome.fromContractStr h
  rw [Outcome.fromContractStr_asContractStr, Outcome.fromContractStr_asContractStr] at h'
  exact Option.some.inj h'

theorem Actor.toWire_injective : Function.Injective Actor.toWire := by
  rintro ⟨s, k, a, m⟩ ⟨s', k', a', m'⟩ h
  simp only [Actor.toWire, WireActor.mk.injEq] at h
  obtain ⟨hs, hk, ha, hm⟩ := h
  rw [BoundedAscii.val_injective hs, ActorKind.asContractStr_injective hk,
    Option.map_injective AssuranceLevel.asStr_injective ha,
    Option.map_injective BoundedAscii.val_injective hm]

theorem Target.toWire_injective : Function.Injective Target.toWire := by
  rintro ⟨t, i⟩ ⟨t', i'⟩ h
  simp only [Target.toWire, WireTarget.mk.injEq] at h
  obtain ⟨ht, hi⟩ := h
  rw [BoundedAscii.val_injective ht, BoundedAscii.val_injective hi]

theorem Context.toWire_injective : Function.Injective Context.toWire := by
  rintro ⟨n, t, j⟩ ⟨n', t', j'⟩ h
  simp only [Context.toWire, WireContext.mk.injEq] at h
  obtain ⟨hn, ht, hj⟩ := h
  rw [Option.map_injective BoundedAscii.val_injective hn,
    Option.map_injective BoundedAscii.val_injective ht,
    Option.map_injective BoundedAscii.val_injective hj]

theorem DecisionInfo.toWire_injective : Function.Injective DecisionInfo.toWire := by
  rintro ⟨r, d, p, rs, t, s, k⟩ ⟨r', d', p', rs', t', s', k'⟩ h
  simp only [DecisionInfo.toWire, WireDecision.mk.injEq] at h
  obtain ⟨hr, hd, hp, hrs, ht, hs, hk⟩ := h
  rw [UuidString.val_injective hr, Subtype.ext (hexEncode_injective hd),
    BoundedAscii.val_injective hp, List.map_injective_iff.mpr BoundedAscii.val_injective hrs,
    Option.map_injective (fun a b => UInt32.toNat_inj.mp) ht,
    Option.map_injective hexEncode_injective hs,
    Option.map_injective BoundedAscii.val_injective hk]

/-- **The wire form keeps every field.** -/
theorem AuditEventFields.toWire_injective (signature : WireSignature) :
    Function.Injective fun f : AuditEventFields => f.toWire signature := by
  rintro ⟨e, n, p, o, d, ty, a, t, out, c, dec⟩ ⟨e', n', p', o', d', ty', a', t', out', c', dec'⟩ h
  simp only [AuditEventFields.toWire, WireDocument.mk.injEq] at h
  obtain ⟨-, he, hn, ho, hd, hty, ha, ht, hout, hc, hdec, hp, -⟩ := h
  rw [UuidString.val_injective he, Subtype.ext hn, Subtype.ext (hexEncode_injective hp),
    Timestamp.val_injective ho, BoundedAscii.val_injective hd,
    EventType.asContractStr_injective hty, Actor.toWire_injective ha,
    Option.map_injective Target.toWire_injective ht, Outcome.asContractStr_injective hout,
    Option.map_injective Context.toWire_injective hc,
    Option.map_injective DecisionInfo.toWire_injective hdec]

theorem UnsignedDocument.ofFields_injective : Function.Injective UnsignedDocument.ofFields := by
  intro f f' h
  have hmembers : unsignedDocument f = unsignedDocument f' := congrArg Subtype.val h
  rw [← unsignedDocumentFromWire_toWire f (wireSignature "" ""),
    ← unsignedDocumentFromWire_toWire f' (wireSignature "" "")] at hmembers
  refine AuditEventFields.toWire_injective (wireSignature "" "") ?_
  exact wire_eq_of_unsigned_eq (toWire_bounded f _) (toWire_bounded f' _)
    (by rw [hmembers])

end AuditSeal

namespace IdentityAssertion

theorem AssertionClaims.toWire_injective (keyId : String) (signature : Bytes) :
    Function.Injective fun c : AssertionClaims => c.toWire keyId signature := by
  rintro ⟨d, s, a, m, au, i, e, ev⟩ ⟨d', s', a', m', au', i', e', ev'⟩ h
  simp only [AssertionClaims.toWire, WireDocument.mk.injEq] at h
  obtain ⟨-, -, hd, hs, ha, hm, hau, hi, he, hev, -⟩ := h
  rw [hd, BoundedAscii.val_injective hs, AssuranceLevel.asStr_injective ha,
    BoundedAscii.val_injective hm, BoundedAscii.val_injective hau, Timestamp.val_injective hi,
    Timestamp.val_injective he, UuidString.val_injective hev]

theorem UnsignedDocument.ofClaims_injective : Function.Injective UnsignedDocument.ofClaims := by
  intro c c' h
  have hmembers : unsignedDocument c = unsignedDocument c' := congrArg Subtype.val h
  refine AssertionClaims.toWire_injective "" [] ?_
  have hversion : ∀ claims : AssertionClaims, (claims.toWire "" []).schemaVersion < 2 ^ 32 :=
    fun _ => Nat.one_lt_two_pow (by decide)
  refine wire_eq_of_unsigned_eq (hversion c) (hversion c') ?_
  exact congrArg (fun m => sortKeysRecursively (.obj m)) hmembers

end IdentityAssertion

/-! ## The union of the suites -/

/-- What is signed, over the three suites. -/
inductive SignedContent where
  | decision (fields : DecisionSeal.DecisionFields)
  | auditEvent (unsigned : AuditSeal.UnsignedDocument)
  | identityAssertion (unsigned : IdentityAssertion.UnsignedDocument)

namespace SignedContent

/-- The octets that are hashed and signed. -/
def message : SignedContent → Bytes
  | .decision fields => DecisionSeal.signedMessage fields
  | .auditEvent unsigned => AuditSeal.signedMessage AuditSeal.domainPrefixV1 unsigned.val
  | .identityAssertion unsigned => IdentityAssertion.signedMessage unsigned.val

def domainPrefix : SignedContent → String
  | .decision _ => DecisionSeal.domainPrefix
  | .auditEvent _ => AuditSeal.domainPrefixV1
  | .identityAssertion _ => IdentityAssertion.domainPrefix

def document : SignedContent → Json
  | .decision fields => .obj (DecisionSeal.signedMembers fields)
  | .auditEvent unsigned => .obj unsigned.val
  | .identityAssertion unsigned => .obj unsigned.val

theorem message_eq (c : SignedContent) :
    c.message = (octets c.domainPrefix ++ [0x00]) ++ canonicalBytes c.document := by
  cases c with
  | decision fields =>
      rw [List.append_assoc]
      rfl
  | auditEvent unsigned => rfl
  | identityAssertion unsigned => rfl

theorem domainPrefix_noNul (c : SignedContent) : 0x00 ∉ octets c.domainPrefix := by
  have hdecision : 0x00 ∉ octets DecisionSeal.domainPrefix := by decide +kernel
  have haudit : 0x00 ∉ octets AuditSeal.domainPrefixV1 := by decide +kernel
  have hidentity : 0x00 ∉ octets IdentityAssertion.domainPrefix := by decide +kernel
  cases c with
  | decision fields => exact hdecision
  | auditEvent unsigned => exact haudit
  | identityAssertion unsigned => exact hidentity

/-- The message gives the prefix and the canonical document. -/
theorem parts_of_message_eq {c c' : SignedContent} (h : c.message = c'.message) :
    c.domainPrefix = c'.domainPrefix ∧
      sortKeysRecursively c.document = sortKeysRecursively c'.document := by
  rw [message_eq, message_eq] at h
  obtain ⟨htag, hdocument⟩ :=
    Framing.terminated 0x00 c.domainPrefix_noNul c'.domainPrefix_noNul h
  exact ⟨octets_injective htag, canonicalBytes_inj hdocument⟩

theorem prefix_decision_ne_auditEvent :
    DecisionSeal.domainPrefix ≠ AuditSeal.domainPrefixV1 := by decide

theorem prefix_decision_ne_identityAssertion :
    DecisionSeal.domainPrefix ≠ IdentityAssertion.domainPrefix := by decide

theorem prefix_auditEvent_ne_identityAssertion :
    AuditSeal.domainPrefixV1 ≠ IdentityAssertion.domainPrefix := by decide

/-- **No two contents share a message**, in one suite or across suites. -/
theorem message_injective : Function.Injective message := by
  intro c c' h
  obtain ⟨htag, hdocument⟩ := parts_of_message_eq h
  cases c with
  | decision fields =>
      cases c' with
      | decision fields' => exact congrArg _ (DecisionSeal.signedMessage_inj h)
      | auditEvent => exact absurd htag prefix_decision_ne_auditEvent
      | identityAssertion => exact absurd htag prefix_decision_ne_identityAssertion
  | auditEvent unsigned =>
      cases c' with
      | decision => exact absurd htag prefix_decision_ne_auditEvent.symm
      | auditEvent unsigned' =>
          obtain ⟨_, doc, hb, rfl⟩ := unsigned
          obtain ⟨_, doc', hb', rfl⟩ := unsigned'
          have hdoc := AuditSeal.wire_eq_of_unsigned_eq hb hb' hdocument
          have hmembers := congrArg AuditSeal.unsignedDocumentFromWire hdoc
          exact congrArg _ (Subtype.ext hmembers)
      | identityAssertion => exact absurd htag prefix_auditEvent_ne_identityAssertion
  | identityAssertion unsigned =>
      cases c' with
      | decision => exact absurd htag prefix_decision_ne_identityAssertion.symm
      | auditEvent => exact absurd htag prefix_auditEvent_ne_identityAssertion.symm
      | identityAssertion unsigned' =>
          obtain ⟨_, doc, hv, rfl⟩ := unsigned
          obtain ⟨_, doc', hv', rfl⟩ := unsigned'
          have hdoc := IdentityAssertion.wire_eq_of_unsigned_eq hv hv' hdocument
          have hmembers := congrArg IdentityAssertion.unsignedDocumentFromWire hdoc
          exact congrArg _ (Subtype.ext hmembers)

end SignedContent

/-- **Signed messages never collide.** The octets that are signed determine
the suite and the content; the content determines the typed fields or claims it
was built from, and the wire document it was rebuilt from but for the
signature. So a signature that is accepted for the messages of two contents,
and is not one of two different messages, is accepted for one content, of one
suite. -/
theorem signed_messages_never_collide :
    Function.Injective SignedContent.message ∧
    Function.Injective AuditSeal.UnsignedDocument.ofFields ∧
    Function.Injective IdentityAssertion.UnsignedDocument.ofClaims ∧
    (∀ doc doc' : AuditSeal.WireDocument, doc.Bounded → doc'.Bounded →
      AuditSeal.unsignedDocumentFromWire doc = AuditSeal.unsignedDocumentFromWire doc' →
      doc = { doc' with signature := doc.signature }) ∧
    (∀ doc doc' : IdentityAssertion.WireDocument, doc.schemaVersion < 2 ^ 32 →
      doc'.schemaVersion < 2 ^ 32 → IdentityAssertion.unsignedDocumentFromWire doc =
        IdentityAssertion.unsignedDocumentFromWire doc' →
      doc = { doc' with signatures := doc.signatures }) ∧
    (∀ (P : Primitives) (publicKey signature : Bytes) (c c' : SignedContent),
      (P.ecdsaP256Sha256Fixed publicKey c.message signature = true →
        P.ecdsaP256Sha256Fixed publicKey c'.message signature = true → c.message = c'.message) →
      P.ecdsaP256Sha256Fixed publicKey c.message signature = true →
      P.ecdsaP256Sha256Fixed publicKey c'.message signature = true → c = c') := by
  refine ⟨SignedContent.message_injective, AuditSeal.UnsignedDocument.ofFields_injective,
    IdentityAssertion.UnsignedDocument.ofClaims_injective, ?_, ?_, ?_⟩
  · intro doc doc' hb hb' h
    exact AuditSeal.wire_eq_of_unsigned_eq hb hb' (by rw [h])
  · intro doc doc' hv hv' h
    exact IdentityAssertion.wire_eq_of_unsigned_eq hv hv' (by rw [h])
  · intro P publicKey signature c c' hone hc hc'
    exact SignedContent.message_injective (hone hc hc')

/-- A decision, granted or refused. -/
def decisionContent (effectAllow : Bool) : SignedContent :=
  .decision {
    requestId := "01890000-0000-7000-8000-000000000000"
    decisionHash := []
    policyVersion := "decision-binding/v1:"
    effectAllow := effectAllow
    reasons := []
    maxTtlSeconds := 0
    constraints := []
    issuedAt := sampleInstant }

/-- Signing where the signature of a message is the message. -/
def messageAsSignature : Primitives where
  sha256 := Primitives.standard.sha256
  ecdsaP256Sha256Fixed _ message signature := message == signature

/-- The signature of a grant is none of the refusal. -/
theorem signed_messages_never_collide_decision :
    messageAsSignature.ecdsaP256Sha256Fixed sampleKey (decisionContent false).message
      (decisionContent true).message = false := by
  rw [← Bool.not_eq_true]
  intro hrefused
  obtain ⟨-, -, -, -, -, hone⟩ := signed_messages_never_collide
  have hgranted : messageAsSignature.ecdsaP256Sha256Fixed sampleKey (decisionContent true).message
      (decisionContent true).message = true := beq_self_eq_true _
  have hsame := hone messageAsSignature sampleKey (decisionContent true).message
    (decisionContent true) (decisionContent false)
    (fun h h' => (beq_iff_eq.mp h).trans (beq_iff_eq.mp h').symm) hgranted hrefused
  cases hsame

end ZeroSecret.Crypto
