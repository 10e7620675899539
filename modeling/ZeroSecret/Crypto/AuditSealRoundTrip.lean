import ZeroSecret.Crypto.AuditSeal

/-!
# What is sealed verifies

The sealed octets are read back as the wire form of the typed fields, the
document rebuilt from the wire form is the document that was sealed, and the
size guard predicts the final size exactly. The three together give the round
trip `seal` / `verify`.
-/

namespace ZeroSecret.Crypto.AuditSeal

open Json (fieldTable required asStr asNat asList)

/-! ## Reading canonical members -/

/-- The field `k` of a canonical object. -/
def canonicalField (kvs : Members) (k : String) : Option Json :=
  (kvs.lookup k).map sortKeysRecursively

@[simp] theorem canonicalField_nil (k : String) : canonicalField [] k = none := rfl

@[simp] theorem canonicalField_cons (key k : String) (v : Json) (kvs : Members) :
    canonicalField ((key, v) :: kvs) k =
      if k = key then some (sortKeysRecursively v) else canonicalField kvs k := by
  by_cases h : k = key
  · simp [canonicalField, h]
  · have hb : (k == key) = false := beq_false_of_ne h
    simp [canonicalField, h, hb, List.lookup_cons]

@[simp] theorem canonicalField_append (kvs kvs' : Members) (k : String) :
    canonicalField (kvs ++ kvs') k = (canonicalField kvs k).or (canonicalField kvs' k) := by
  rw [canonicalField, List.lookup_append]
  cases h : kvs.lookup k with
  | none => simp [canonicalField, h]
  | some v => simp [canonicalField, h]

@[simp] theorem canonicalField_member (key k : String) (v : Option Json) :
    canonicalField (member? key v) k =
      if k = key then v.map sortKeysRecursively else none := by
  cases v with
  | none => simp [member?]
  | some v => simp [member?]

theorem member_keys_sublist (key : String) (v : Option Json) :
    ((member? key v).map Prod.fst).Sublist [key] := by
  cases v with
  | none => exact List.nil_sublist _
  | some v => exact List.Sublist.refl _

/-! One rewrite rule for each kind of field of a reader's `do` block. -/

theorem bind_fields {β : Type} {names : List String} (order : List String) {kvs : Members}
    (hs : (kvs.map Prod.fst).Sublist order) (hn : order.Nodup) (hsub : order ⊆ names)
    (g : (String → Option Json) → Option β) :
    (fieldTable names (sortKeysRecursively (.obj kvs)) >>= g) = g (canonicalField kvs) := by
  rw [fieldTable_sorted (hs.nodup hn) fun _ hk => hsub (hs.subset hk)]
  rfl

section Fields

variable {α β γ : Type} {field : String → Option Json} {k : String}

theorem bind_required {rd : Json → Option β} {v : Json} {b : β} (hf : field k = some v)
    (hrd : rd v = some b) (g : β → Option γ) : (required field k rd >>= g) = g b := by
  rw [required, hf, Option.bind_some, hrd]
  rfl

theorem bind_text {s : String} (hf : field k = some (.str s)) (g : String → Option γ) :
    (required field k asStr >>= g) = g s :=
  bind_required hf (Json.asStr_str s) g

theorem bind_optional {rd : Json → Option β} {o : Option β} {e : β → Json}
    (hf : field k = o.map e) (hnull : ∀ b, e b ≠ .null)
    (hrd : ∀ b, o = some b → rd (e b) = some b)
    (g : Option β → Option γ) : (Json.optional field k rd >>= g) = g o := by
  suffices h : Json.optional field k rd = some o by rw [h]; rfl
  cases o with
  | none => simp [Json.optional, hf]
  | some b =>
      rw [Json.optional, hf, Option.map_some]
      split
      · contradiction
      · rename_i h
        exact absurd (Option.some.inj h) (hnull b)
      · rename_i v _ h
        rw [← Option.some.inj h, hrd b rfl, Option.map_some]

theorem bind_optional_text {o : Option String} (hf : field k = o.map .str)
    (g : Option String → Option γ) : (Json.optional field k asStr >>= g) = g o :=
  bind_optional hf (fun _ => Json.noConfusion) (fun s _ => Json.asStr_str s) g

end Fields

/-! ## The wire form of typed fields -/

def Actor.toWire (a : Actor) : WireActor where
  subjectId := a.subjectId.val
  kind := a.kind.asContractStr
  aal := a.aal.map AssuranceLevel.asStr
  authMethod := a.authMethod.map (·.val)

def Target.toWire (t : Target) : WireTarget := ⟨t.targetType.val, t.id.val⟩

def Context.toWire (c : Context) : WireContext where
  sourceNetwork := c.sourceNetwork.map (·.val)
  ticketRef := c.ticketRef.map (·.val)
  justification := c.justification.map (·.val)

def DecisionInfo.toWire (d : DecisionInfo) : WireDecision where
  requestId := d.requestId.val
  decisionHash := hexEncode d.decisionHash.val
  policyVersion := d.policyVersion.val
  reasons := d.reasons.map (·.val)
  grantedTtlSeconds := d.grantedTtlSeconds.map UInt32.toNat
  decisionSignature := d.decisionSignature.map hexEncode
  decisionSignatureKeyId := d.decisionSignatureKeyId.map (·.val)

def wireSignature (keyId value : String) : WireSignature :=
  ⟨suiteV1, [⟨"ecdsa-p256", keyId, value⟩]⟩

def AuditEventFields.toWire (f : AuditEventFields) (signature : WireSignature) :
    WireDocument where
  schemaVersion := 1
  eventId := f.eventId.val
  sequence := f.sequence.val
  occurredAt := f.occurredAt.val
  authorityDomain := f.authorityDomain.val
  eventType := f.eventType.asContractStr
  actor := f.actor.toWire
  target := f.target.map Target.toWire
  outcome := f.outcome.asContractStr
  context := f.context.map Context.toWire
  decision := f.decision.map DecisionInfo.toWire
  prevHash := hexEncode f.prevHash.val
  signature := signature

/-! ## Reading back -/

/-! The parts of `unsignedDocumentFromWire`. -/

def actorFromWire (a : WireActor) : Json :=
  .obj ([("subject_id", .str a.subjectId), ("kind", .str a.kind)] ++
    member? "aal" (a.aal.map .str) ++ member? "auth_method" (a.authMethod.map .str))

def targetFromWire (t : WireTarget) : Json :=
  .obj [("type", .str t.targetType), ("id", .str t.id)]

def contextFromWire (c : WireContext) : Json :=
  .obj (member? "source_network" (c.sourceNetwork.map .str) ++
    member? "ticket_ref" (c.ticketRef.map .str) ++
    member? "justification" (c.justification.map .str))

def decisionFromWire (d : WireDecision) : Json :=
  .obj ([("request_id", .str d.requestId), ("decision_hash", .str d.decisionHash),
      ("policy_version", .str d.policyVersion), ("reasons", .arr (d.reasons.map .str))] ++
    member? "granted_ttl_seconds" (d.grantedTtlSeconds.map fun (t : Nat) => .num t) ++
    member? "decision_signature" (d.decisionSignature.map .str) ++
    member? "decision_signature_key_id" (d.decisionSignatureKeyId.map .str))

theorem unsignedDocumentFromWire_eq (doc : WireDocument) : unsignedDocumentFromWire doc =
    [("schema_version", .num doc.schemaVersion),
      ("event_id", .str doc.eventId),
      ("sequence", .num doc.sequence),
      ("prev_hash", .str doc.prevHash),
      ("occurred_at", .str doc.occurredAt),
      ("authority_domain", .str doc.authorityDomain),
      ("event_type", .str doc.eventType),
      ("actor", actorFromWire doc.actor)] ++
    member? "target" (doc.target.map targetFromWire) ++
    [("outcome", .str doc.outcome)] ++
    member? "context" (doc.context.map contextFromWire) ++
    member? "decision" (doc.decision.map decisionFromWire) := rfl

section Read

theorem read_actor (a : WireActor) :
    WireActor.read (sortKeysRecursively (actorFromWire a)) = some a := by
  rw [actorFromWire, WireActor.read,
    bind_fields (["subject_id", "kind"] ++ ["aal"] ++ ["auth_method"]) ?_ (by decide)
      (by decide),
    bind_text (k := "subject_id") (s := a.subjectId) (by simp),
    bind_text (k := "kind") (s := a.kind) (by simp),
    bind_optional_text (k := "aal") (o := a.aal) (by simp [Function.comp_def]),
    bind_optional_text (k := "auth_method") (o := a.authMethod) (by simp [Function.comp_def])]
  simp only [List.map_append]
  exact ((List.Sublist.refl _).append (member_keys_sublist _ _)).append
    (member_keys_sublist _ _)

theorem read_target (t : WireTarget) :
    WireTarget.read (sortKeysRecursively (targetFromWire t)) = some t := by
  rw [targetFromWire, WireTarget.read,
    bind_fields ["type", "id"] (List.Sublist.refl _) (by decide) (by decide),
    bind_text (k := "type") (s := t.targetType) (by simp),
    bind_text (k := "id") (s := t.id) (by simp)]

theorem read_context (c : WireContext) :
    WireContext.read (sortKeysRecursively (contextFromWire c)) = some c := by
  rw [contextFromWire, WireContext.read,
    bind_fields (["source_network"] ++ ["ticket_ref"] ++ ["justification"]) ?_ (by decide)
      (by decide),
    bind_optional_text (k := "source_network") (o := c.sourceNetwork)
      (by simp [Function.comp_def]),
    bind_optional_text (k := "ticket_ref") (o := c.ticketRef) (by simp [Function.comp_def]),
    bind_optional_text (k := "justification") (o := c.justification)
      (by simp [Function.comp_def])]
  simp only [List.map_append]
  exact ((member_keys_sublist _ _).append (member_keys_sublist _ _)).append
    (member_keys_sublist _ _)

theorem read_decision (d : WireDecision) (httl : ∀ t, d.grantedTtlSeconds = some t → t < 2 ^ 64) :
    WireDecision.read (sortKeysRecursively (decisionFromWire d)) = some d := by
  rw [decisionFromWire, WireDecision.read,
    bind_fields (["request_id", "decision_hash", "policy_version", "reasons"] ++
      ["granted_ttl_seconds"] ++ ["decision_signature"] ++ ["decision_signature_key_id"])
      ?_ (by decide) (by decide),
    bind_text (k := "request_id") (s := d.requestId) (by simp),
    bind_text (k := "decision_hash") (s := d.decisionHash) (by simp),
    bind_text (k := "policy_version") (s := d.policyVersion) (by simp),
    bind_required (k := "reasons") (v := .arr (d.reasons.map .str))
      (by simp [Function.comp_def]) (Json.asList_strs d.reasons),
    bind_optional (k := "granted_ttl_seconds") (o := d.grantedTtlSeconds)
      (e := fun t => .num t) (by simp [Function.comp_def])
      (fun _ => Json.noConfusion) (fun t ht => Json.asNat_num (httl t ht)),
    bind_optional_text (k := "decision_signature") (o := d.decisionSignature)
      (by simp [Function.comp_def]),
    bind_optional_text (k := "decision_signature_key_id") (o := d.decisionSignatureKeyId)
      (by simp [Function.comp_def])]
  simp only [List.map_append]
  exact (((List.Sublist.refl _).append (member_keys_sublist _ _)).append
    (member_keys_sublist _ _)).append (member_keys_sublist _ _)

theorem read_signatureComponent (c : WireSignatureComponent) :
    WireSignatureComponent.read (sortKeysRecursively
      (.obj [("component", .str c.component), ("key_id", .str c.keyId),
        ("value", .str c.value)])) = some c := by
  rw [WireSignatureComponent.read,
    bind_fields ["component", "key_id", "value"] (List.Sublist.refl _) (by decide)
      (by decide),
    bind_text (k := "component") (s := c.component) (by simp),
    bind_text (k := "key_id") (s := c.keyId) (by simp),
    bind_text (k := "value") (s := c.value) (by simp)]

theorem read_signature (sig : WireSignature) :
    WireSignature.read (sortKeysRecursively (signatureFromWire sig)) = some sig := by
  have hcomponents : asList WireSignatureComponent.read (.arr ((sig.components.map fun c =>
      .obj [("component", .str c.component), ("key_id", .str c.keyId),
        ("value", .str c.value)]).map sortKeysRecursively)) = some sig.components := by
    rw [asList, List.map_map, List.mapM_map]
    induction sig.components with
    | nil => rfl
    | cons c cs ih =>
        rw [List.mapM_cons]
        simp only [Function.comp_apply] at ih ⊢
        rw [read_signatureComponent, ih]
        rfl
  rw [signatureFromWire, WireSignature.read,
    bind_fields ["suite", "components"] (List.Sublist.refl _) (by decide) (by decide),
    bind_text (k := "suite") (s := sig.suite) (by simp),
    bind_required (k := "components")
      (by simp only [canonicalField_cons, sortKeys_arr]; rfl) hcomponents]

/-- The integers of a document that was read are in the range of their type. -/
structure WireDocument.Bounded (doc : WireDocument) : Prop where
  schemaVersion : doc.schemaVersion < 2 ^ 32
  sequence : doc.sequence < 2 ^ 64
  ttl : ∀ d t, doc.decision = some d → d.grantedTtlSeconds = some t → t < 2 ^ 64

/-- The members of a complete document, in insertion order. -/
def wireMembers (doc : WireDocument) : Members :=
  unsignedDocumentFromWire doc ++ [("signature", signatureFromWire doc.signature)]

theorem wireMembers_keys (doc : WireDocument) :
    ((wireMembers doc).map Prod.fst).Sublist
      (["schema_version", "event_id", "sequence", "prev_hash", "occurred_at",
        "authority_domain", "event_type", "actor"] ++ ["target"] ++ ["outcome"] ++
        ["context"] ++ ["decision"] ++ ["signature"]) := by
  simp only [wireMembers, unsignedDocumentFromWire_eq, List.map_append]
  refine List.Sublist.append ?_ (List.Sublist.refl _)
  refine List.Sublist.append ?_ (member_keys_sublist _ _)
  refine List.Sublist.append ?_ (member_keys_sublist _ _)
  refine List.Sublist.append ?_ (List.Sublist.refl _)
  exact (List.Sublist.refl _).append (member_keys_sublist _ _)

/-- **A canonical document is read back as the wire form it was written
from.** -/
theorem read_wireMembers {doc : WireDocument} (hb : doc.Bounded) :
    WireDocument.read (sortKeysRecursively (.obj (wireMembers doc))) = some doc := by
  rw [WireDocument.read,
    bind_fields _ (wireMembers_keys doc) (by decide) (by decide),
    bind_required (k := "schema_version")
      (by simp [wireMembers, unsignedDocumentFromWire_eq]) (Json.asNat_num hb.schemaVersion),
    bind_text (k := "event_id") (s := doc.eventId)
      (by simp [wireMembers, unsignedDocumentFromWire_eq]),
    bind_required (k := "sequence")
      (by simp [wireMembers, unsignedDocumentFromWire_eq]) (Json.asNat_num hb.sequence),
    bind_text (k := "occurred_at") (s := doc.occurredAt)
      (by simp [wireMembers, unsignedDocumentFromWire_eq]),
    bind_text (k := "authority_domain") (s := doc.authorityDomain)
      (by simp [wireMembers, unsignedDocumentFromWire_eq]),
    bind_text (k := "event_type") (s := doc.eventType)
      (by simp [wireMembers, unsignedDocumentFromWire_eq]),
    bind_required (k := "actor")
      (by simp [wireMembers, unsignedDocumentFromWire_eq]) (read_actor doc.actor),
    bind_optional (k := "target") (o := doc.target)
      (e := fun t => sortKeysRecursively (targetFromWire t))
      (by simp [wireMembers, unsignedDocumentFromWire_eq, Function.comp_def])
      (fun _ => sortKeys_obj_ne_null _) (fun t _ => read_target t),
    bind_text (k := "outcome") (s := doc.outcome)
      (by simp [wireMembers, unsignedDocumentFromWire_eq]),
    bind_optional (k := "context") (o := doc.context)
      (e := fun c => sortKeysRecursively (contextFromWire c))
      (by simp [wireMembers, unsignedDocumentFromWire_eq, Function.comp_def])
      (fun _ => sortKeys_obj_ne_null _) (fun c _ => read_context c),
    bind_optional (k := "decision") (o := doc.decision)
      (e := fun d => sortKeysRecursively (decisionFromWire d))
      (by simp [wireMembers, unsignedDocumentFromWire_eq, Function.comp_def])
      (fun _ => sortKeys_obj_ne_null _) (fun d hd => read_decision d fun t => hb.ttl d t hd),
    bind_text (k := "prev_hash") (s := doc.prevHash)
      (by simp [wireMembers, unsignedDocumentFromWire_eq]),
    bind_required (k := "signature")
      (by simp [wireMembers, unsignedDocumentFromWire_eq]) (read_signature doc.signature)]

theorem fromSlice_wireMembers {doc : WireDocument} (hb : doc.Bounded) :
    WireDocument.fromSlice (canonicalBytes (.obj (wireMembers doc))) = some doc := by
  rw [WireDocument.fromSlice, canonicalBytes, Json.fromSlice_toVec, Option.bind_some]
  exact read_wireMembers hb

end Read

/-! ### Sealed documents -/

/-- **The document rebuilt from the wire form is the document that was built
from the fields**, member for member. -/
theorem unsignedDocumentFromWire_toWire (f : AuditEventFields) (sig : WireSignature) :
    unsignedDocumentFromWire (f.toWire sig) = unsignedDocument f := by
  simp only [unsignedDocumentFromWire, unsignedDocument, AuditEventFields.toWire,
    Actor.toWire, actorValue, Option.map_map, Function.comp_def, Target.toWire,
    Context.toWire, DecisionInfo.toWire, List.map_map]
  rfl

theorem signatureFromWire_wireSignature (keyId value : String) :
    signatureFromWire (wireSignature keyId value) = signatureValue keyId value := rfl

/-! ## The size guard -/

theorem toWire_bounded (f : AuditEventFields) (sig : WireSignature) : (f.toWire sig).Bounded where
  schemaVersion := by
    change 1 < 2 ^ 32
    decide
  sequence := by
    have h : f.sequence.val ≤ 2 ^ 53 - 1 := f.sequence.property
    change f.sequence.val < 2 ^ 64
    omega
  ttl := by
    intro d t hd ht
    obtain ⟨d, -, rfl⟩ := Option.map_eq_some_iff.mp hd
    obtain ⟨t, -, rfl⟩ := Option.map_eq_some_iff.mp ht
    have := t.toNat_lt
    omega

/-- **The sealed document is read back as the wire form of its fields.** -/
theorem fromSlice_sealed (f : AuditEventFields) (keyId : String) (sig : Bytes) :
    WireDocument.fromSlice (sealedDocument (unsignedDocument f) keyId sig) =
      some (f.toWire (wireSignature keyId (hexEncode sig))) := by
  have h := fromSlice_wireMembers (toWire_bounded f (wireSignature keyId (hexEncode sig)))
  rw [wireMembers, unsignedDocumentFromWire_toWire] at h
  exact h

theorem canonicalBytes_singleton_size (v : Json) :
    (canonicalBytes (.arr [v])).length = (canonicalBytes v).length + 2 := by
  rw [canonicalBytes, sortKeys_arr, List.map_cons, List.map_nil, Json.toVec, Json.write,
    Json.writeElems, Json.utf8_length_cons (by decide), Json.utf8_append, List.length_append]
  rfl

/-- The signature member's size depends on the size of its value only. -/
theorem signatureValue_size {keyId v v' : String}
    (h : (canonicalBytes (.str v)).length = (canonicalBytes (.str v')).length) :
    (canonicalBytes (signatureValue keyId v)).length =
      (canonicalBytes (signatureValue keyId v')).length := by
  simp only [signatureValue, canonicalBytes_obj_size (List.cons_ne_nil _ _), List.map_cons,
    List.map_nil, canonicalMemberSize, canonicalBytes_singleton_size, h, List.length_cons]

theorem unsignedDocument_ne_nil (f : AuditEventFields) : unsignedDocument f ≠ [] := by
  simp [unsignedDocument]

/-- **The size guard is exact**: for a 64-octet signature the sealed document
has the predicted size. -/
theorem sealedDocument_size (f : AuditEventFields) (keyId : String) {sig : Bytes}
    (hsig : sig.length = 64) :
    (sealedDocument (unsignedDocument f) keyId sig).length =
      (canonicalBytes (.obj (unsignedDocument f))).length + signatureOverheadBytes keyId := by
  have hvalue : (canonicalBytes (.str (hexEncode sig))).length =
      (canonicalBytes (.str (String.ofList (List.replicate 128 '0')))).length := by
    rw [canonicalBytes_str_size (hexEncode_printable sig), hexEncode_size, hsig]
    decide +kernel
  have hkey : (Json.utf8 (Json.writeStr "signature")).length + 1 =
      (octets "\"signature\":").length := by
    decide
  rw [sealedDocument, canonicalBytes_snoc_size (unsignedDocument_ne_nil f),
    canonicalMemberSize, signatureValue_size hvalue, hkey, signatureOverheadBytes]
  omega

/-! ## What `seal` returns -/

/-- **The three ways `seal` ends once the decision coupling holds**: too large,
no signature, or the sealed document. -/
theorem seal_cases (P : Primitives) (sealer : AuditSealer) (hsm : HsmAnswer)
    {f : AuditEventFields} (hc : validateDecisionCoupling f.eventType f.decision = .ok ()) :
    (maxBytes < (canonicalBytes (.obj (unsignedDocument f))).length +
        signatureOverheadBytes sealer.keyId ∧
      sealer.seal P hsm f = .error (.invalidFields "size")) ∨
    ((canonicalBytes (.obj (unsignedDocument f))).length +
        signatureOverheadBytes sealer.keyId ≤ maxBytes ∧
      sealer.seal P hsm f =
        match hsm (P.sha256 (signedMessage domainPrefixV1 (unsignedDocument f))) with
        | none => .error .sealingUnavailable
        | some sig => .ok (sealedDocument (unsignedDocument f) sealer.keyId sig)) := by
  rw [AuditSealer.seal, hc]
  by_cases h : maxBytes < (canonicalBytes (.obj (unsignedDocument f))).length +
      signatureOverheadBytes sealer.keyId
  · left
    refine ⟨h, ?_⟩
    simp only [validateSize, if_pos h]
    rfl
  · right
    refine ⟨Nat.le_of_not_lt h, ?_⟩
    simp only [validateSize, if_neg h]
    rfl

theorem seal_eq_ok {P : Primitives} {sealer : AuditSealer} {hsm : HsmAnswer}
    {f : AuditEventFields} {out : Bytes} (h : sealer.seal P hsm f = .ok out) :
    validateDecisionCoupling f.eventType f.decision = .ok () ∧
    (canonicalBytes (.obj (unsignedDocument f))).length +
      signatureOverheadBytes sealer.keyId ≤ maxBytes ∧
    ∃ sig, hsm (P.sha256 (signedMessage domainPrefixV1 (unsignedDocument f))) = some sig ∧
      out = sealedDocument (unsignedDocument f) sealer.keyId sig := by
  cases hc : validateDecisionCoupling f.eventType f.decision with
  | error e =>
      rw [AuditSealer.seal, hc] at h
      cases h
  | ok u =>
      rcases seal_cases P sealer hsm hc with ⟨_, he⟩ | ⟨hle, he⟩
      · rw [he] at h
        cases h
      · refine ⟨rfl, hle, ?_⟩
        rw [he] at h
        split at h
        · cases h
        · rename_i sig hsig
          exact ⟨sig, hsig, (Except.ok.inj h).symm⟩

/-! ## Verification of a sealed document -/

/-- The HSM holds the private half of `publicKey`: whatever it returns for the
digest of a message is a 64-octet signature of that message. -/
def HsmSigns (P : Primitives) (publicKey : Bytes) (hsm : HsmAnswer) : Prop :=
  ∀ m sig, hsm (P.sha256 m) = some sig →
    sig.length = 64 ∧ P.ecdsaP256Sha256Fixed publicKey m sig = true

/-! One rewrite rule for each kind of step of `verify`. -/

section Steps

variable {α β : Type}

theorem bind_guard {b : Bool} (h : b = true) (e : VerifyError) (g : Unit → Except VerifyError β) :
    (guardThat b e >>= g) = g () := by
  rw [guardThat, if_pos h]
  rfl

theorem bind_orMalformed {o : Option α} {a : α} (h : o = some a)
    (g : α → Except VerifyError β) : (orMalformed o >>= g) = g a := by
  rw [h]
  rfl

theorem bind_ok {m : Except VerifyError α} {a : α} (h : m = .ok a)
    (g : α → Except VerifyError β) : (m >>= g) = g a := by
  rw [h]
  rfl

end Steps

theorem toDigest_val (d : Digest) : toDigest d.val = .ok d := by
  rw [toDigest, dif_pos d.property]

/-- A coupling that passes when sealing passes when verifying. -/
theorem coupling_toWire {t : EventType} {d : Option DecisionInfo}
    (h : validateDecisionCoupling t d = .ok ()) :
    (t.requiresDecision == (d.map DecisionInfo.toWire).isSome) = true ∧
      checkWireDecision (d.map DecisionInfo.toWire) = .ok () := by
  rw [validateDecisionCoupling.eq_def] at h
  split at h
  · cases h
  · rename_i hne
    refine ⟨by simpa using hne, ?_⟩
    cases d with
    | none => rfl
    | some d =>
        simp only at h
        split at h
        · cases h
        · rename_i hlen
          have hl : ¬ maxReasons < d.toWire.reasons.length := by
            rw [DecisionInfo.toWire, List.length_map]
            exact hlen
          have hd : ¬ d.decisionHash.val.length ≠ 32 := by
            simp [d.decisionHash.property]
          rw [Option.map_some, checkWireDecision, if_neg hl]
          simp only [DecisionInfo.toWire, hexDecode_hexEncode, if_neg hd]

/-- What `verify` reports of a sealed event. -/
def AuditEventFields.verified (f : AuditEventFields) : VerifiedAuditEvent where
  eventId := f.eventId.val
  sequence := f.sequence.val
  prevHash := f.prevHash
  occurredAt := f.occurredAt.val
  authorityDomain := f.authorityDomain.val
  eventType := f.eventType

/-- **A sealed document verifies**, and the event reported is the event
sealed. -/
theorem verify_sealedDocument {P : Primitives} {f : AuditEventFields} {keyId : String}
    {sig : Bytes} {keys : List AcceptedVerifyingKey} {key : AcceptedVerifyingKey}
    {policy : AcceptancePolicy}
    (hc : validateDecisionCoupling f.eventType f.decision = .ok ())
    (hlen : (sealedDocument (unsignedDocument f) keyId sig).length ≤ maxBytes)
    (hkey : keys.find? (fun k => k.keyId == keyId) = some key)
    (hsig : P.ecdsaP256Sha256Fixed key.raw
      (signedMessage domainPrefixV1 (unsignedDocument f)) sig = true)
    (hsuite : suiteV1 ∈ policy.acceptedSuites)
    (hdomain : policy.expectedAuthorityDomain = f.authorityDomain.val) :
    verify P keys (sealedDocument (unsignedDocument f) keyId sig) policy =
      .ok f.verified := by
  obtain ⟨hcoupled, hdecision⟩ := coupling_toWire hc
  have hcomponents : verifyComponents P keys
      (signedMessage domainPrefixV1 (unsignedDocument f))
      (wireSignature keyId (hexEncode sig)).components true = .ok true := by
    simp only [wireSignature, verifyComponents, hkey, hexDecode_hexEncode, hsig]
    rfl
  have hcanonical : (canonicalBytes (.obj (unsignedDocumentFromWire (f.toWire
      (wireSignature keyId (hexEncode sig))) ++ [("signature", signatureFromWire
      (wireSignature keyId (hexEncode sig)))])) ==
      sealedDocument (unsignedDocument f) keyId sig) = true := by
    rw [unsignedDocumentFromWire_toWire, signatureFromWire_wireSignature, sealedDocument]
    exact beq_self_eq_true _
  refine (bind_guard (by simpa using hlen) _ _).trans ?_
  refine (bind_orMalformed (fromSlice_sealed f keyId sig) _).trans ?_
  -- version, suite, and the three closed vocabularies
  refine (bind_guard (by rfl) _ _).trans ?_
  refine (bind_guard (List.elem_eq_true_of_mem hsuite) _ _).trans ?_
  refine (bind_orMalformed (EventType.fromContractStr_asContractStr f.eventType) _).trans ?_
  refine (bind_orMalformed (ActorKind.fromContractStr_asContractStr f.actor.kind) _).trans ?_
  refine (bind_orMalformed (Outcome.fromContractStr_asContractStr f.outcome) _).trans ?_
  refine (bind_guard hcoupled _ _).trans ?_
  refine (bind_ok hdecision _).trans ?_
  refine (bind_ok (a := requiredComponentsV1) (by rfl) _).trans ?_
  refine (bind_guard (by rfl) _ _).trans ?_
  -- the octets, then the signature over the rebuilt document
  refine (bind_guard hcanonical _ _).trans ?_
  refine (bind_ok (a := domainPrefixV1) (by rfl) _).trans ?_
  rw [unsignedDocumentFromWire_toWire]
  refine (bind_ok hcomponents _).trans ?_
  refine (bind_guard (by rfl) _ _).trans ?_
  refine (bind_guard (by rw [hdomain]; exact beq_self_eq_true _) _ _).trans ?_
  refine (bind_orMalformed (hexDecode_hexEncode f.prevHash.val) _).trans ?_
  exact bind_ok (toDigest_val f.prevHash) _

/-- What `seal` returns verifies. -/
theorem verify_sealed {P : Primitives} {publicKey : Bytes} {hsm : HsmAnswer}
    {f : AuditEventFields} {keys : List AcceptedVerifyingKey} {policy : AcceptancePolicy}
    {out : Bytes} (hhsm : HsmSigns P publicKey hsm)
    (hkey : keys.find? (fun k => k.keyId == (AuditSealer.ofPublicKey P publicKey).keyId) =
      some ⟨(AuditSealer.ofPublicKey P publicKey).keyId, publicKey⟩)
    (hsuite : suiteV1 ∈ policy.acceptedSuites)
    (hdomain : policy.expectedAuthorityDomain = f.authorityDomain.val)
    (hout : (AuditSealer.ofPublicKey P publicKey).seal P hsm f = .ok out) :
    out.length ≤ maxBytes ∧ verify P keys out policy = .ok f.verified := by
  obtain ⟨hc, hle, sig, hsig, rfl⟩ := seal_eq_ok hout
  obtain ⟨h64, hvalid⟩ := hhsm _ _ hsig
  rw [← sealedDocument_size f _ h64] at hle
  exact ⟨hle, verify_sealedDocument hc hle hkey hvalid hsuite hdomain⟩

/-- **Round trip of the audit seal.** Whatever `seal` returns fits in
`maxBytes` and verifies under the sealer's key as the event that was sealed;
and among coupled fields `seal` refuses for size exactly when the complete
document would exceed `maxBytes`. -/
theorem seal_verify_roundTrip (P : Primitives) (publicKey : Bytes) (hsm : HsmAnswer)
    (f : AuditEventFields) (keys : List AcceptedVerifyingKey) (policy : AcceptancePolicy)
    (hhsm : HsmSigns P publicKey hsm)
    (hkey : keys.find? (fun k => k.keyId == (AuditSealer.ofPublicKey P publicKey).keyId) =
      some ⟨(AuditSealer.ofPublicKey P publicKey).keyId, publicKey⟩)
    (hsuite : suiteV1 ∈ policy.acceptedSuites)
    (hdomain : policy.expectedAuthorityDomain = f.authorityDomain.val) :
    (∀ out, (AuditSealer.ofPublicKey P publicKey).seal P hsm f = .ok out →
      out.length ≤ maxBytes ∧ verify P keys out policy = .ok f.verified) ∧
    (validateDecisionCoupling f.eventType f.decision = .ok () →
      ∀ sig : Bytes, sig.length = 64 →
        ((AuditSealer.ofPublicKey P publicKey).seal P hsm f = .error (.invalidFields "size") ↔
          maxBytes < (sealedDocument (unsignedDocument f)
            (AuditSealer.ofPublicKey P publicKey).keyId sig).length)) := by
  constructor
  · intro out hout
    exact verify_sealed hhsm hkey hsuite hdomain hout
  · intro hc sig h64
    rw [sealedDocument_size f _ h64]
    rcases seal_cases P (AuditSealer.ofPublicKey P publicKey) hsm hc with ⟨hgt, he⟩ | ⟨hle, he⟩
    · exact ⟨fun _ => hgt, fun _ => he⟩
    · constructor
      · intro h
        rw [he] at h
        split at h <;> cases h
      · intro hgt
        omega

/-! ### One event -/

/-- An event with a target, a context and a decision. -/
def issuedEvent : AuditEventFields where
  eventId := sampleEventId
  sequence := ⟨7, by decide⟩
  prevHash := ⟨List.replicate 32 0xab, rfl⟩
  occurredAt := sampleInstant
  authorityDomain := sampleDomain
  eventType := .credentialIssued
  actor := {
    subjectId := sampleSubject
    kind := .human
    aal := some .aal3
    authMethod := some ⟨"webauthn", by decide, by decide, by decide⟩ }
  target := some {
    targetType := ⟨"Database", by decide, by decide, by decide⟩
    id := ⟨"db-1", by decide, by decide, by decide⟩ }
  outcome := .success
  context := some {
    sourceNetwork := none
    ticketRef := some ⟨"CHG-1", by decide, by decide, by decide⟩
    justification := none }
  decision := some {
    requestId := ⟨"01890000-0000-7000-8000-000000000001", by decide⟩
    decisionHash := ⟨List.replicate 32 0xcd, rfl⟩
    policyVersion := ⟨"v1", by decide, by decide, by decide⟩
    reasons := [⟨"db-connect-production", by decide, by decide, by decide⟩]
    grantedTtlSeconds := some 3600
    decisionSignature := none
    decisionSignatureKeyId := none }

def issuedSignature : Bytes :=
  (hexDecode ("791ca642785007c5b14c0e439b8d4a10e5b9feeaaabe3ec4e1705ebe5bba9445" ++
    "84c371727cba84ca7bdd98722b279dba5e77a4031c2ec64c1fe21384402a6bca")).getD []

def issuedDigest : Bytes :=
  (hexDecode "5ae510da1c35b1e2715c3c7432ac2594701ddcd97c88c8678ed72a53752268c8").getD []

/-- An HSM that has signed this event and nothing else. -/
def issuedHsm : HsmAnswer := fun digest =>
  if digest.val = issuedDigest then some issuedSignature else none

theorem issuedEvent_digest : (Primitives.standard.sha256
    (signedMessage domainPrefixV1 (unsignedDocument issuedEvent))).val = issuedDigest := by
  rw [Primitives.standard_eq_evaluated]
  decide +kernel

theorem issuedHsm_signs : HsmSigns Primitives.standard sampleKey issuedHsm := by
  have hv : P256.verifyDigest sampleKey issuedDigest issuedSignature = true := by
    decide +kernel
  intro m sig h
  rw [issuedHsm] at h
  split at h
  · rename_i hd
    obtain rfl := Option.some.inj h
    refine ⟨by decide +kernel, ?_⟩
    rw [Primitives.standard_ecdsa, hd, hv]
  · cases h

theorem seal_issuedEvent : ∃ out, (AuditSealer.ofPublicKey Primitives.standard sampleKey).seal
    Primitives.standard issuedHsm issuedEvent = .ok out := by
  rcases seal_cases Primitives.standard (AuditSealer.ofPublicKey Primitives.standard sampleKey)
    issuedHsm (f := issuedEvent) rfl with ⟨hgt, _⟩ | ⟨_, he⟩
  · exact absurd hgt (by decide +kernel)
  · rw [issuedHsm, if_pos issuedEvent_digest] at he
    exact ⟨_, he⟩

/-- The sealed octets of the event verify. -/
theorem verify_issuedEvent : ∃ out,
    verify Primitives.standard
      [⟨(AuditSealer.ofPublicKey Primitives.standard sampleKey).keyId, sampleKey⟩] out
      ⟨[suiteV1], "acme"⟩ = .ok issuedEvent.verified := by
  obtain ⟨out, hout⟩ := seal_issuedEvent
  exact ⟨out, (verify_sealed issuedHsm_signs (by rw [List.find?_cons, beq_self_eq_true])
    List.mem_cons_self rfl hout).2⟩

theorem seal_verify_issuedEvent :
    ∃ out, (AuditSealer.ofPublicKey Primitives.standard sampleKey).seal Primitives.standard
        issuedHsm issuedEvent = .ok out ∧
      out.length ≤ maxBytes ∧
      verify Primitives.standard
        [⟨(AuditSealer.ofPublicKey Primitives.standard sampleKey).keyId, sampleKey⟩] out
        ⟨[suiteV1], "acme"⟩ = .ok issuedEvent.verified := by
  obtain ⟨out, hout⟩ := seal_issuedEvent
  have h := (seal_verify_roundTrip Primitives.standard sampleKey issuedHsm issuedEvent
    [⟨(AuditSealer.ofPublicKey Primitives.standard sampleKey).keyId, sampleKey⟩]
    ⟨[suiteV1], "acme"⟩ issuedHsm_signs (by simp) (by decide) rfl).1 out hout
  exact ⟨out, hout, h.1, h.2⟩

end ZeroSecret.Crypto.AuditSeal
