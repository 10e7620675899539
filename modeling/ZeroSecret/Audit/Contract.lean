import ZeroSecret.Audit.Sealer
import ZeroSecret.Base.JsonSchema
import ZeroSecret.Crypto.AuditSealRoundTrip
import ZeroSecret.Crypto.CanonicalForm

/-!
# The published contract of an event

`contracts/events/audit-event.schema.json`, and the document that is sealed.
The encoder meets the contract member by member, but for one: a
`decision_signature` that is there and empty is written as an empty text, where
the contract asks for a digit at least.
-/

namespace ZeroSecret.Audit

open Crypto Crypto.AuditSeal Fallible
open Json (Schema Pattern)

/-! ## The contract -/

namespace Contract

/-- `[0-9a-f]` -/
def isLowerHex (c : Char) : Bool := ('0' ≤ c && c ≤ '9') || ('a' ≤ c && c ≤ 'f')

/-- `^[0-9a-f]{64}$` -/
def digestPattern : Pattern := ⟨isLowerHex, 64, some 64⟩

/-- `^[0-9a-f]+$` -/
def hexPattern : Pattern := ⟨isLowerHex, 1, none⟩

def string : Schema := { type := some .string }

def oneOf (texts : List String) : Schema :=
  { type := some .string, enum := some (texts.map .str) }

def strings : Schema := { type := some .array, items := some string }

def count : Schema := { type := some .integer, minimum := some 0 }

def digest : Schema := { type := some .string, pattern := some digestPattern }

def hex : Schema := { type := some .string, pattern := some hexPattern }

def eventType : Schema := oneOf [
  "authenticator.registered", "authenticator.revoked", "authentication.attempted",
  "authentication.succeeded", "authentication.failed", "access.requested", "access.approved",
  "access.denied", "policy.decided", "credential.issued", "credential.expired",
  "credential.revoked", "policy.modified", "quorum.operation", "recovery.initiated",
  "audit.chain_verified"]

def actor : Schema where
  type := some .object
  additionalProperties := false
  required := ["subject_id", "kind"]
  properties := [
    ("subject_id", string),
    ("kind", oneOf ["human", "workload", "system"]),
    ("aal", oneOf ["AAL1", "AAL2", "AAL3"]),
    ("auth_method", string)]

def target : Schema where
  type := some .object
  additionalProperties := false
  properties := [("type", string), ("id", string)]

def decision : Schema where
  type := some .object
  additionalProperties := false
  required := ["request_id", "decision_hash", "policy_version"]
  properties := [
    ("request_id", string),
    ("decision_hash", digest),
    ("policy_version", string),
    ("reasons", strings),
    ("granted_ttl_seconds", count),
    ("decision_signature", hex),
    ("decision_signature_key_id", string)]

def context : Schema where
  type := some .object
  additionalProperties := false
  properties := [
    ("source_network", string),
    ("ticket_ref", string),
    ("justification", { type := some .string, maxLength := some 512 })]

def component : Schema where
  type := some .object
  additionalProperties := false
  required := ["component", "value"]
  properties := [("component", string), ("value", hex), ("key_id", string)]

def signature : Schema where
  type := some .object
  additionalProperties := false
  required := ["suite", "components"]
  properties := [
    ("suite", oneOf ["audit-seal/v1", "audit-seal/v2"]),
    ("components", { type := some .array, minItems := some 1, items := some component })]

/-- `audit-event.schema.json` -/
def auditEvent : Schema where
  type := some .object
  additionalProperties := false
  required := ["schema_version", "event_id", "sequence", "occurred_at", "authority_domain",
    "event_type", "actor", "outcome", "prev_hash", "signature"]
  properties := [
    ("schema_version", { const := some (.num 1) }),
    ("event_id", string),
    ("sequence", count),
    ("occurred_at", string),
    ("authority_domain", string),
    ("event_type", eventType),
    ("actor", actor),
    ("target", target),
    ("outcome", oneOf ["success", "denied", "error"]),
    ("decision", decision),
    ("context", context),
    ("prev_hash", digest),
    ("signature", signature)]

/-! ## Texts and numbers -/

theorem string_validates (s : String) : string.validates (.str s) = true := rfl

theorem oneOf_validates {texts : List String} {s : String} (h : s ∈ texts) :
    (oneOf texts).validates (.str s) = true := by
  have henum : (texts.map Json.str).any (Json.sameScalar (.str s)) = true :=
    List.any_eq_true.mpr ⟨.str s, List.mem_map_of_mem h, beq_self_eq_true s⟩
  rw [Schema.validates, oneOf, Schema.admits]
  · simp only [Option.all_some, henum]
    rfl
  · intro xs hxs
    cases hxs
  · intro ms hms
    cases hms

theorem count_validates (n : Nat) : count.validates (.num n) = true :=
  decide_eq_true (Int.natCast_nonneg n)

theorem hexByte_lower (b : UInt8) : (hexByte b).all isLowerHex = true := by
  have h : ∀ n : Fin 256, (hexByte (UInt8.ofNat n)).all isLowerHex = true := by
    decide +kernel
  have hb := h ⟨b.toNat, b.toNat_lt⟩
  rwa [UInt8.ofNat_toNat] at hb

theorem hexEncode_toList (bytes : Bytes) :
    (hexEncode bytes).toList.all isLowerHex = true ∧
      (hexEncode bytes).toList.length = 2 * bytes.length := by
  rw [hexEncode, String.toList_ofList]
  induction bytes with
  | nil => exact ⟨rfl, rfl⟩
  | cons b bytes ih =>
      obtain ⟨hall, hlength⟩ := ih
      rw [List.flatMap_cons, List.all_append, hexByte_lower, hall, List.length_append, hlength,
        List.length_cons]
      refine ⟨rfl, ?_⟩
      change 2 + _ = _
      omega

theorem digest_validates (d : Digest) : digest.validates (.str (hexEncode d.val)) = true := by
  obtain ⟨hall, hlength⟩ := hexEncode_toList d.val
  change digestPattern.accepts _ = true
  rw [Pattern.accepts, digestPattern, hall, hlength, d.property]
  rfl

/-- Octets have digits exactly when there are octets. -/
theorem hex_validates_iff (bytes : Bytes) :
    hex.validates (.str (hexEncode bytes)) = true ↔ bytes ≠ [] := by
  obtain ⟨hall, hlength⟩ := hexEncode_toList bytes
  change hexPattern.accepts _ = true ↔ _
  rw [Pattern.accepts, hexPattern, hall, hlength]
  cases bytes with
  | nil => decide
  | cons b bytes =>
      have hone : 1 ≤ 2 * (b :: bytes).length := by
        rw [List.length_cons]
        omega
      rw [decide_eq_true hone]
      exact ⟨fun _ => List.cons_ne_nil b bytes, fun _ => rfl⟩

/-! ## The parts of a document -/

theorem forall_member? {key : String} {o : Option Json} {P : String × Json → Prop} :
    (∀ m ∈ member? key o, P m) ↔ ∀ v, o = some v → P (key, v) := by
  cases o with
  | none => simp [member?]
  | some v => simp [member?]

theorem actor_validates (a : Actor) : actor.validates (actorValue a) = true := by
  refine (Schema.validates_object rfl rfl rfl).mpr ⟨by simp [actor], ?_⟩
  simp only [List.forall_mem_append, List.forall_mem_cons, forall_member?,
    Option.map_eq_some_iff]
  refine ⟨⟨⟨string_validates _, ?_, nofun⟩, ?_⟩, ?_⟩
  · cases a.kind <;> exact oneOf_validates (by decide)
  · rintro _ ⟨level, -, rfl⟩
    cases level <;> exact oneOf_validates (by decide)
  · rintro _ ⟨method, -, rfl⟩
    exact string_validates _

theorem target_validates (t : Target) : target.validates (targetValue t) = true := by
  refine (Schema.validates_object rfl rfl rfl).mpr ⟨nofun, ?_⟩
  simp only [List.forall_mem_cons]
  exact ⟨string_validates _, string_validates _, nofun⟩

/-- A text of bounded octets has at most as many characters. -/
theorem length_le_octets (s : String) : s.toList.length ≤ (octets s).length := by
  rw [octets_eq_utf8, Json.utf8]
  induction s.toList with
  | nil => exact Nat.le_refl 0
  | cons c cs ih =>
      have hc : 0 < (String.utf8EncodeChar c).length := by
        rw [String.length_utf8EncodeChar]
        exact c.utf8Size_pos
      rw [List.flatMap_cons, List.length_append, List.length_cons]
      omega

theorem context_validates (c : Context) : context.validates (contextValue c) = true := by
  refine (Schema.validates_object rfl rfl rfl).mpr ⟨nofun, ?_⟩
  simp only [List.forall_mem_append, forall_member?, Option.map_eq_some_iff]
  refine ⟨⟨?_, ?_⟩, ?_⟩
  · rintro _ ⟨network, -, rfl⟩
    exact string_validates _
  · rintro _ ⟨ticket, -, rfl⟩
    exact string_validates _
  · rintro _ ⟨justification, -, rfl⟩
    have hle : justification.val.toList.length ≤ 512 :=
      (length_le_octets _).trans justification.len_le
    change decide (justification.val.toList.length ≤ 512) && true = true
    rw [decide_eq_true hle]
    rfl

/-- A decision meets the contract unless its signature is there and empty. -/
theorem decision_validates_iff (d : DecisionInfo) :
    decision.validates (decisionValue d) = true ↔ d.decisionSignature ≠ some [] := by
  have hreasons : strings.validates (.arr (d.reasons.map fun r => .str r.val)) = true := by
    refine Schema.validates_arr_iff.mpr ⟨rfl, fun x hx p hp => ?_⟩
    obtain ⟨reason, -, rfl⟩ := List.mem_map.mp hx
    rw [← Option.some.inj hp]
    exact string_validates _
  have hsignature : (∀ v, d.decisionSignature.map (fun sig => Json.str (hexEncode sig)) = some v →
      decision.validatesMember ("decision_signature", v)) ↔ d.decisionSignature ≠ some [] := by
    cases d.decisionSignature with
    | none => simp
    | some sig =>
        have hhex : decision.validatesMember ("decision_signature", .str (hexEncode sig)) ↔
            sig ≠ [] := hex_validates_iff sig
        simp [hhex]
  refine (Schema.validates_object rfl rfl rfl).trans ?_
  simp only [List.forall_mem_append, List.forall_mem_cons, forall_member?, hsignature]
  constructor
  · exact fun h => h.2.1.2
  · intro h
    refine ⟨by simp [decision], ⟨⟨⟨string_validates _, digest_validates _, string_validates _,
      hreasons, nofun⟩, ?_⟩, h⟩, ?_⟩
    · intro v hv
      obtain ⟨ttl, -, rfl⟩ := Option.map_eq_some_iff.mp hv
      exact count_validates _
    · intro v hv
      obtain ⟨keyId, -, rfl⟩ := Option.map_eq_some_iff.mp hv
      exact string_validates _

theorem signature_validates (keyId : String) {raw : Bytes} (h : raw ≠ []) :
    signature.validates (signatureValue keyId (hexEncode raw)) = true := by
  have hcomponent : component.validates (.obj [("component", .str "ecdsa-p256"),
      ("key_id", .str keyId), ("value", .str (hexEncode raw))]) = true := by
    refine (Schema.validates_object rfl rfl rfl).mpr ⟨by simp [component], ?_⟩
    simp only [List.forall_mem_cons]
    exact ⟨string_validates _, string_validates _, (hex_validates_iff raw).mpr h, nofun⟩
  refine (Schema.validates_object rfl rfl rfl).mpr ⟨by simp [signature], ?_⟩
  simp only [List.forall_mem_cons]
  refine ⟨oneOf_validates (by decide), ?_, nofun⟩
  refine Schema.validates_arr_iff.mpr ⟨rfl, fun x hx p hp => ?_⟩
  rw [List.mem_singleton.mp hx, ← Option.some.inj hp]
  exact hcomponent

/-- The document of accepted fields meets the contract unless its decision does not. -/
theorem auditEvent_validates_iff (f : AuditEventFields) (keyId : String) {raw : Bytes}
    (h : raw ≠ []) :
    auditEvent.validates (.obj (unsignedDocument f ++
        [("signature", signatureValue keyId (hexEncode raw))])) = true ↔
      ∀ d, f.decision = some d → d.decisionSignature ≠ some [] := by
  have hdecision : (∀ v, f.decision.map decisionValue = some v →
      auditEvent.validatesMember ("decision", v)) ↔
      ∀ d, f.decision = some d → d.decisionSignature ≠ some [] := by
    cases f.decision with
    | none => simp
    | some d =>
        have hone : auditEvent.validatesMember ("decision", decisionValue d) ↔
            d.decisionSignature ≠ some [] := decision_validates_iff d
        simp [hone]
  refine (Schema.validates_object rfl rfl rfl).trans ?_
  simp only [unsignedDocument, List.forall_mem_append, List.forall_mem_cons, forall_member?,
    hdecision]
  constructor
  · exact fun h => h.2.1.2
  · intro hd
    refine ⟨by simp [auditEvent], ⟨⟨⟨⟨⟨rfl, string_validates _, count_validates _,
      digest_validates _, string_validates _, string_validates _, ?_, actor_validates _,
      List.forall_mem_nil _⟩, ?_⟩, ?_, List.forall_mem_nil _⟩, ?_⟩, hd⟩,
      signature_validates keyId h, List.forall_mem_nil _⟩
    · cases f.eventType <;> exact oneOf_validates (by decide)
    · intro v hv
      obtain ⟨t, -, rfl⟩ := Option.map_eq_some_iff.mp hv
      exact target_validates t
    · cases f.outcome <;> exact oneOf_validates (by decide)
    · intro v hv
      obtain ⟨c, -, rfl⟩ := Option.map_eq_some_iff.mp hv
      exact context_validates c

end Contract

/-! ## Sealed documents -/

/-- `decision_signature` is absent, or it is not empty. -/
def SignatureNotEmpty (req : SealRequest) : Prop :=
  ∀ d, req.decision = some d → d.decisionSignature ≠ some []

theorem decisionSignature_of_proto {decision : ProtoDecision} {info : DecisionInfo}
    (h : decisionFromProto decision = .ok info) :
    info.decisionSignature = decision.decisionSignature := by
  rw [decisionFromProto] at h
  obtain ⟨_, -, h⟩ := bind_eq_ok h
  obtain ⟨_, -, h⟩ := bind_eq_ok h
  obtain ⟨_, -, h⟩ := bind_eq_ok h
  obtain ⟨_, -, h⟩ := bind_eq_ok h
  obtain ⟨_, -, h⟩ := bind_eq_ok h
  obtain rfl := Except.ok.inj h
  rfl

/-- The condition on a request is the one on its fields. -/
theorem signatureNotEmpty_iff {req : SealRequest} {fields : AuditEventFields}
    (h : fieldsFromRequest req = .ok fields) : SignatureNotEmpty req ↔
      ∀ d, fields.decision = some d → d.decisionSignature ≠ some [] := by
  have hdecision := (fieldsFromRequest_eq_ok_iff.mp h).decision
  rw [SignatureNotEmpty]
  cases hreq : req.decision with
  | none =>
      rw [hreq] at hdecision
      have hnone := Except.ok.inj hdecision
      rw [← hnone]
      simp
  | some decision =>
      rw [hreq, transpose] at hdecision
      cases hinfo : decisionFromProto decision with
      | error e =>
          rw [hinfo] at hdecision
          cases hdecision
      | ok info =>
          rw [hinfo] at hdecision
          have hsome := Except.ok.inj hdecision
          rw [← hsome]
          simp [decisionSignature_of_proto hinfo]

/-- The document of sealed octets, against the contract. -/
theorem document_of_sealed {P : Primitives} {sealer : AuditSealer} {hsm : HsmAnswer}
    {req : SealRequest} {out : Bytes}
    (hhsm : ∀ digest signature, hsm digest = some signature → signature.length = 64)
    (h : SealerService.seal P sealer hsm req = .ok out) :
    ∃ fields document, fieldsFromRequest req = .ok fields ∧ Json.fromSlice out = some document ∧
      (Contract.auditEvent.validates document = true ↔
        ∀ d, fields.decision = some d → d.decisionSignature ≠ some []) := by
  obtain ⟨fields, hfields, hseal⟩ := SealerService.seal_eq_ok h
  obtain ⟨-, -, signature, hsigned, rfl⟩ := AuditSeal.seal_eq_ok hseal
  have hraw : signature ≠ [] := by
    refine List.ne_nil_of_length_pos ?_
    rw [hhsm _ _ hsigned]
    decide
  refine ⟨fields, _, hfields, Json.fromSlice_toVec _, ?_⟩
  rw [← Schema.validates_iff_of_rearranged (rearranged_sortKeys _)]
  exact Contract.auditEvent_validates_iff fields sealer.keyId hraw

/-- **A sealed event meets the published contract exactly when no empty
`decision_signature` was asked for.** -/
theorem sealed_event_validates_iff {P : Primitives} {sealer : AuditSealer} {hsm : HsmAnswer}
    {req : SealRequest} {out : Bytes}
    (hhsm : ∀ digest signature, hsm digest = some signature → signature.length = 64)
    (h : SealerService.seal P sealer hsm req = .ok out) :
    ∃ document, Json.fromSlice out = some document ∧
      (Contract.auditEvent.validates document = true ↔ SignatureNotEmpty req) := by
  obtain ⟨fields, document, hfields, hdocument, hvalid⟩ := document_of_sealed hhsm h
  exact ⟨document, hdocument, hvalid.trans (signatureNotEmpty_iff hfields).symm⟩

/-! ### A decision and its signature -/

/-- A decision of the policy engine, as it is to be sealed. -/
def decidedRequest (decisionSignature : Option Bytes) : SealRequest where
  eventId := "01890000-0000-7000-8000-000000000000"
  sequence := 7
  prevHash := List.replicate 32 0xab
  occurredAt := some ⟨1756000000, 0⟩
  authorityDomain := "access-broker"
  eventType := "policy.decided"
  actor := some ⟨"alice", "human", some "AAL2", some "webauthn"⟩
  target := some ⟨"Database", "db-1"⟩
  outcome := "success"
  context := none
  decision := some ⟨"01890000-0000-7000-8000-000000000001", List.replicate 32 0xcd, "v1",
    ["db-connect-production"], some 3600, decisionSignature, some "0123456789abcdef"⟩

def decidedHsm : HsmAnswer := fun _ => some (List.replicate 64 0x01)

theorem decidedHsm_length : ∀ digest signature, decidedHsm digest = some signature →
    signature.length = 64 := by
  intro _ signature h
  rw [← Option.some.inj h]
  rfl

theorem decidedRequest_sealed (decisionSignature : Option Bytes)
    (h : decisionSignature ∈ [some [], some (List.replicate 64 0x02)]) :
    ∃ out, SealerService.seal .standard ⟨"0123456789abcdef"⟩ decidedHsm
      (decidedRequest decisionSignature) = .ok out := by
  have hsealed : ∀ decisionSignature ∈ [some [], some (List.replicate 64 0x02)],
      (SealerService.seal .standard ⟨"0123456789abcdef"⟩ decidedHsm
        (decidedRequest decisionSignature)).toOption.isSome = true := by
    decide +kernel
  have hsome := hsealed decisionSignature h
  revert hsome
  cases SealerService.seal .standard ⟨"0123456789abcdef"⟩ decidedHsm
      (decidedRequest decisionSignature) with
  | error e => exact nofun
  | ok out => exact fun _ => ⟨out, rfl⟩

theorem sealed_event_validates_iff_decided :
    ∃ out, SealerService.seal .standard ⟨"0123456789abcdef"⟩ decidedHsm
        (decidedRequest (some (List.replicate 64 0x02))) = .ok out ∧
      ∃ document, Json.fromSlice out = some document ∧
        (Contract.auditEvent.validates document = true ↔
          SignatureNotEmpty (decidedRequest (some (List.replicate 64 0x02)))) := by
  obtain ⟨out, hout⟩ :=
    decidedRequest_sealed (some (List.replicate 64 0x02)) (by decide)
  exact ⟨out, hout, sealed_event_validates_iff decidedHsm_length hout⟩

/-- The same decision with a signature of no octets is sealed all the same. -/
theorem empty_signature_breaks_contract :
    ∃ out document, SealerService.seal .standard ⟨"0123456789abcdef"⟩ decidedHsm
        (decidedRequest (some [])) = .ok out ∧
      Json.fromSlice out = some document ∧
      ¬ Contract.auditEvent.validates document = true := by
  obtain ⟨out, hout⟩ := decidedRequest_sealed (some []) (by decide)
  obtain ⟨fields, document, hfields, hdocument, hvalid⟩ := document_of_sealed decidedHsm_length hout
  refine ⟨out, document, hout, hdocument, fun hvalidates => ?_⟩
  have hne := (signatureNotEmpty_iff hfields).mpr (hvalid.mp hvalidates)
  exact hne _ rfl rfl

end ZeroSecret.Audit
