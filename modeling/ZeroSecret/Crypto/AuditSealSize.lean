import ZeroSecret.Crypto.AuditSealRoundTrip

/-!
# How large a sealed audit event can be

Every text of an event is bounded by its type. Two things are not: the number
of reasons of a decision and the signature it quotes. An event with at most
four reasons and a signature of 64 octets always fits.

The bounds are coarse: a key is counted with the room of the longest one.
-/

namespace ZeroSecret.Crypto.AuditSeal

open Json (utf8)

/-- Octets of the canonical text. -/
def size (v : Json) : Nat := (canonicalBytes v).length

/-- A member and its comma. -/
def memberCost (m : String × Json) : Nat := canonicalMemberSize m + 1

/-! ## Values -/

theorem size_str_le {s : String} {n : Nat} (hp : ∀ b ∈ octets s, isPrintable b = true)
    (hl : (octets s).length ≤ n) : size (.str s) ≤ n + 2 := by
  rw [size, canonicalBytes_str_size hp]
  omega

theorem size_bounded_le {n : Nat} {field : String} (t : BoundedAscii n field) :
    size (.str t.val) ≤ n + 2 :=
  size_str_le t.printable t.len_le

theorem size_hex_le {bytes : Bytes} {n : Nat} (h : bytes.length ≤ n) :
    size (.str (hexEncode bytes)) ≤ 2 * n + 2 := by
  refine size_str_le (hexEncode_printable bytes) ?_
  rw [hexEncode_size]
  omega

/-- Every octet of a shaped text is a separator or of its class. -/
theorem shapeOk_printable {separator : Nat → Option UInt8} {cls : UInt8 → Bool}
    (hsep : ∀ i b, separator i = some b → isPrintable b = true)
    (hcls : ∀ b, cls b = true → isPrintable b = true) {bytes : Bytes} {i : Nat}
    (h : shapeOk separator cls i bytes = true) : ∀ b ∈ bytes, isPrintable b = true := by
  induction bytes generalizing i with
  | nil =>
      intro b hb
      cases hb
  | cons x xs ih =>
      rw [shapeOk, Bool.and_eq_true] at h
      intro b hb
      rcases List.mem_cons.mp hb with rfl | hb
      · have hx := h.1
        split at hx
        · rename_i sep hs
          rw [beq_iff_eq.mp hx]
          exact hsep i sep hs
        · exact hcls _ hx
      · exact ih h.2 b hb

theorem isAsciiHexdigit_printable (b : UInt8) (h : isAsciiHexdigit b = true) :
    isPrintable b = true := by
  have hall : ∀ n : Fin 256, isAsciiHexdigit (UInt8.ofNat n) = true →
      isPrintable (UInt8.ofNat n) = true := by
    decide +kernel
  have hb := hall ⟨b.toNat, b.toNat_lt⟩
  rw [UInt8.ofNat_toNat] at hb
  exact hb h

theorem isAsciiDigit_printable (b : UInt8) (h : isAsciiDigit b = true) :
    isPrintable b = true := by
  refine isAsciiHexdigit_printable b ?_
  rw [isAsciiHexdigit, h]
  rfl

theorem size_timestamp_le (t : Timestamp) : size (.str t.val) ≤ 22 := by
  have h := t.valid
  rw [timestampValid, Bool.and_eq_true, beq_iff_eq] at h
  refine size_str_le (shapeOk_printable ?_ isAsciiDigit_printable h.2) h.1.le
  intro i b hb
  unfold timestampSeparator at hb
  split at hb
  all_goals first
    | (obtain rfl := Option.some.inj hb; rfl)
    | cases hb

theorem size_uuid_le {field : String} {requireV7 : Bool} (u : UuidString field requireV7) :
    size (.str u.val) ≤ 38 := by
  have h := u.valid
  rw [uuidValid, Bool.and_eq_true, Bool.and_eq_true, beq_iff_eq] at h
  refine size_str_le (shapeOk_printable ?_ isAsciiHexdigit_printable h.1.2) h.1.1.le
  intro i b hb
  unfold uuidSeparator at hb
  split at hb
  all_goals first
    | (obtain rfl := Option.some.inj hb; rfl)
    | cases hb

theorem size_num_le {n width : Nat} (hw : 0 < width) (h : n < 10 ^ width) :
    size (.num n) ≤ width := by
  have hdigits : ∀ c ∈ Nat.toDigits 10 n, c.isDigit = true := fun c hc =>
    Nat.isDigit_of_mem_toDigits (by decide) (by decide) hc
  rw [size, canonicalBytes, sortKeys_num, Json.toVec, Json.write]
  change (utf8 (Nat.toDigits 10 n)).length ≤ width
  rw [(utf8_digits hdigits).1]
  exact (Nat.length_toDigits_le_iff (by decide) hw).mpr h

/-! ## Arrays and objects -/

theorem utf8_writeElems_le : ∀ xs : List Json, (utf8 (Json.writeElems xs)).length ≤
    1 + (xs.map fun x => (Json.toVec x).length + 1).sum
  | [] => by
      rw [Json.writeElems]
      decide
  | [x] => by
      rw [Json.writeElems, Json.utf8_append, List.length_append]
      simp only [List.map_cons, List.map_nil, List.sum_cons, List.sum_nil, Json.toVec]
      have : (utf8 [']']).length = 1 := by decide
      omega
  | x :: y :: xs => by
      have ih := utf8_writeElems_le (y :: xs)
      rw [Json.writeElems, Json.utf8_append, List.length_append,
        Json.utf8_length_cons (by decide), List.map_cons, List.sum_cons, Json.toVec]
      omega

theorem size_arr_le (xs : List Json) : size (.arr xs) ≤
    2 + (xs.map fun x => size x + 1).sum := by
  have h := utf8_writeElems_le (xs.map sortKeysRecursively)
  rw [List.map_map] at h
  rw [size, canonicalBytes, sortKeys_arr, Json.toVec, Json.write,
    Json.utf8_length_cons (by decide)]
  refine (Nat.add_le_add_right h 1).trans ?_
  change 1 + (xs.map fun x => size x + 1).sum + 1 ≤ _
  omega

theorem size_obj_le (kvs : Members) : size (.obj kvs) ≤ 2 + (kvs.map memberCost).sum := by
  cases kvs with
  | nil => exact (by decide : size (.obj []) ≤ 2)
  | cons m kvs =>
      have hsum : ((m :: kvs).map memberCost).sum =
          ((m :: kvs).map canonicalMemberSize).sum + (m :: kvs).length := by
        generalize m :: kvs = l
        induction l with
        | nil => rfl
        | cons a l ih =>
            rw [List.map_cons, List.sum_cons, ih, List.map_cons, List.sum_cons, memberCost,
              List.length_cons]
            omega
      rw [size, canonicalBytes_obj_size (List.cons_ne_nil m kvs), hsum]
      omega

def shortText (s : String) : Bool :=
  (octets s).length ≤ 25 && (octets s).all isPrintable

/-- The keys of an event and of its signature, and the words that stand there
as values. -/
def shortTexts : List String := [
  "schema_version", "event_id", "sequence", "prev_hash", "occurred_at", "authority_domain",
  "event_type", "actor", "target", "outcome", "context", "decision",
  "subject_id", "kind", "aal", "auth_method", "type", "id",
  "source_network", "ticket_ref", "justification",
  "request_id", "decision_hash", "policy_version", "reasons", "granted_ttl_seconds",
  "decision_signature", "decision_signature_key_id",
  "suite", "components", "component", "key_id", "value",
  "authenticator.registered", "authenticator.revoked", "authentication.attempted",
  "authentication.succeeded", "authentication.failed", "recovery.initiated", "quorum.operation",
  "audit.chain_verified", "policy.decided", "credential.issued",
  "success", "denied", "error", "human", "workload", "system", "AAL1", "AAL2", "AAL3",
  "audit-seal/v1", "ecdsa-p256"]

/-- The longest of them has 25 octets. -/
theorem shortTexts_short : ∀ s ∈ shortTexts, shortText s = true := by
  decide +kernel

theorem size_short_le {s : String} (hmem : s ∈ shortTexts) : size (.str s) ≤ 27 := by
  have h := shortTexts_short s hmem
  rw [shortText, Bool.and_eq_true, decide_eq_true_eq, List.all_eq_true] at h
  exact size_str_le h.2 h.1

theorem memberCost_le (key : String) {v : Json} {n : Nat} (hmem : key ∈ shortTexts)
    (h : size v ≤ n) : memberCost (key, v) ≤ n + 29 := by
  have hk := shortTexts_short key hmem
  rw [shortText, Bool.and_eq_true, decide_eq_true_eq, List.all_eq_true] at hk
  have hkey : (utf8 (Json.writeStr key)).length = (octets key).length + 2 := by
    rw [← canonicalBytes_str_size hk.2, canonicalBytes, sortKeys_str, Json.toVec, Json.write]
  rw [memberCost, canonicalMemberSize, hkey]
  change (octets key).length + 2 + 1 + size v + 1 ≤ _
  omega

/-- An absent member costs nothing. -/
theorem member?_cost_le (key : String) {o : Option Json} {n : Nat} (hmem : key ∈ shortTexts)
    (h : ∀ v, o = some v → size v ≤ n) : ((member? key o).map memberCost).sum ≤ n + 29 := by
  cases o with
  | none => exact Nat.zero_le _
  | some v =>
      rw [member?, List.map_cons, List.map_nil, List.sum_cons, List.sum_nil, Nat.add_zero]
      exact memberCost_le key hmem (h v rfl)

theorem option_map_size_le {α : Type} {f : α → Json} {o : Option α} {n : Nat}
    (h : ∀ a, o = some a → size (f a) ≤ n) : ∀ v, o.map f = some v → size v ≤ n := by
  intro v hv
  obtain ⟨a, ha, rfl⟩ := Option.map_eq_some_iff.mp hv
  exact h a ha

/-! ## The parts of an event -/

theorem size_eventType_le (t : EventType) : size (.str t.asContractStr) ≤ 27 := by
  apply size_short_le
  cases t <;> simp [EventType.asContractStr, shortTexts]

theorem size_outcome_le (o : Outcome) : size (.str o.asContractStr) ≤ 27 := by
  apply size_short_le
  cases o <;> simp [Outcome.asContractStr, shortTexts]

theorem size_kind_le (k : ActorKind) : size (.str k.asContractStr) ≤ 27 := by
  apply size_short_le
  cases k <;> simp [ActorKind.asContractStr, shortTexts]

theorem size_aal_le (a : AssuranceLevel) : size (.str a.asStr) ≤ 27 := by
  apply size_short_le
  cases a <;> simp [AssuranceLevel.asStr, shortTexts]

theorem size_actor_le (actor : Actor) : size (actorValue actor) ≤ 498 := by
  refine (size_obj_le _).trans ?_
  have h1 := memberCost_le "subject_id" (by simp [shortTexts])
    (size_bounded_le actor.subjectId)
  have h2 := memberCost_le "kind" (by simp [shortTexts]) (size_kind_le actor.kind)
  have h3 := member?_cost_le "aal" (n := 27) (by simp [shortTexts])
    (option_map_size_le (o := actor.aal) fun a _ => size_aal_le a)
  have h4 := member?_cost_le "auth_method" (n := 66) (by simp [shortTexts])
    (option_map_size_le (o := actor.authMethod) fun a _ => size_bounded_le a)
  simp only [List.map_append, List.sum_append, List.map_cons, List.map_nil, List.sum_cons,
    List.sum_nil]
  omega

theorem size_target_le (target : Target) : size (targetValue target) ≤ 576 := by
  refine (size_obj_le _).trans ?_
  have h1 := memberCost_le "type" (by simp [shortTexts]) (size_bounded_le target.targetType)
  have h2 := memberCost_le "id" (by simp [shortTexts]) (size_bounded_le target.id)
  simp only [List.map_cons, List.map_nil, List.sum_cons, List.sum_nil]
  omega

theorem size_context_le (context : Context) : size (contextValue context) ≤ 1119 := by
  refine (size_obj_le _).trans ?_
  have h1 := member?_cost_le "source_network" (n := 258) (by simp [shortTexts])
    (option_map_size_le (o := context.sourceNetwork) fun v _ => size_bounded_le v)
  have h2 := member?_cost_le "ticket_ref" (n := 258) (by simp [shortTexts])
    (option_map_size_le (o := context.ticketRef) fun v _ => size_bounded_le v)
  have h3 := member?_cost_le "justification" (n := 514) (by simp [shortTexts])
    (option_map_size_le (o := context.justification) fun v _ => size_bounded_le v)
  simp only [List.map_append, List.sum_append]
  omega

theorem size_reasons_le {reasons : List Reason} {n : Nat} (h : reasons.length ≤ n) :
    size (.arr (reasons.map fun r => .str r.val)) ≤ 2 + n * 259 := by
  refine (size_arr_le _).trans ?_
  have hsum : ((reasons.map fun r => Json.str r.val).map fun x => size x + 1).sum ≤
      reasons.length * 259 := by
    clear h
    induction reasons with
    | nil => exact Nat.zero_le _
    | cons r rs ih =>
        have hr := size_bounded_le r
        simp only [List.map_cons, List.sum_cons, List.length_cons] at ih ⊢
        omega
  have hn := Nat.mul_le_mul_right 259 h
  omega

/-- What the types leave open of a decision: few reasons, one signature. -/
structure Short (decision : DecisionInfo) : Prop where
  reasons : decision.reasons.length ≤ 4
  signature : ∀ sig, decision.decisionSignature = some sig → sig.length ≤ 64

theorem size_decision_le {decision : DecisionInfo} (h : Short decision) :
    size (decisionValue decision) ≤ 2003 := by
  refine (size_obj_le _).trans ?_
  have h1 := memberCost_le "request_id" (by simp [shortTexts]) (size_uuid_le decision.requestId)
  have h2 := memberCost_le "decision_hash" (by simp [shortTexts])
    (size_hex_le decision.decisionHash.property.le)
  have h3 := memberCost_le "policy_version" (by simp [shortTexts])
    (size_bounded_le decision.policyVersion)
  have h4 := memberCost_le "reasons" (by simp [shortTexts]) (size_reasons_le h.reasons)
  have h5 := member?_cost_le "granted_ttl_seconds" (n := 10) (by simp [shortTexts])
    (option_map_size_le (o := decision.grantedTtlSeconds) fun t _ =>
      size_num_le (by decide) (t.toNat_lt.trans (by decide)))
  have h6 := member?_cost_le "decision_signature" (n := 130) (by simp [shortTexts])
    (option_map_size_le (o := decision.decisionSignature) fun sig hs =>
      size_hex_le (h.signature sig hs))
  have h7 := member?_cost_le "decision_signature_key_id" (n := 258) (by simp [shortTexts])
    (option_map_size_le (o := decision.decisionSignatureKeyId) fun k _ => size_bounded_le k)
  simp only [List.map_append, List.sum_append, List.map_cons, List.map_nil, List.sum_cons,
    List.sum_nil]
  omega

/-! ## The whole document -/

theorem size_unsignedDocument_le {f : AuditEventFields} (h : ∀ d, f.decision = some d → Short d) :
    size (.obj (unsignedDocument f)) ≤ 4874 := by
  refine (size_obj_le _).trans ?_
  have hone : size (.num 1) ≤ 1 := size_num_le (n := 1) Nat.one_pos (by decide)
  have h1 := memberCost_le "schema_version" (by simp [shortTexts]) hone
  have h2 := memberCost_le "event_id" (by simp [shortTexts]) (size_uuid_le f.eventId)
  have h3 := memberCost_le "sequence" (by simp [shortTexts])
    (size_num_le (by decide) (f.sequence.property.trans_lt (by decide : _ < 10 ^ 16)))
  have h4 := memberCost_le "prev_hash" (by simp [shortTexts]) (size_hex_le f.prevHash.property.le)
  have h5 := memberCost_le "occurred_at" (by simp [shortTexts]) (size_timestamp_le f.occurredAt)
  have h6 := memberCost_le "authority_domain" (by simp [shortTexts])
    (size_bounded_le f.authorityDomain)
  have h7 := memberCost_le "event_type" (by simp [shortTexts]) (size_eventType_le f.eventType)
  have h8 := memberCost_le "actor" (by simp [shortTexts]) (size_actor_le f.actor)
  have h9 := member?_cost_le "target" (n := 576) (by simp [shortTexts])
    (option_map_size_le (o := f.target) fun t _ => size_target_le t)
  have h10 := memberCost_le "outcome" (by simp [shortTexts]) (size_outcome_le f.outcome)
  have h11 := member?_cost_le "context" (n := 1119) (by simp [shortTexts])
    (option_map_size_le (o := f.context) fun c _ => size_context_le c)
  have h12 := member?_cost_le "decision" (n := 2003) (by simp [shortTexts])
    (option_map_size_le (f := decisionValue) fun d hd => size_decision_le (h d hd))
  simp only [unsignedDocument, List.map_append, List.sum_append, List.map_cons, List.map_nil,
    List.sum_cons, List.sum_nil]
  omega

theorem size_signatureOverhead_le {keyId : String}
    (hp : ∀ b ∈ octets keyId, isPrintable b = true) (hl : (octets keyId).length ≤ 16) :
    signatureOverheadBytes keyId ≤ 400 := by
  have hzeros : size (.str (String.ofList (List.replicate 128 '0'))) ≤ 130 := by
    decide +kernel
  have hsuite : size (.str suiteV1) ≤ 27 := size_short_le (by simp [suiteV1, shortTexts])
  have hname : size (.str "ecdsa-p256") ≤ 27 := size_short_le (by simp [shortTexts])
  have hprefix : (octets "\"signature\":").length = 12 := by decide +kernel
  have hcomponent : size (.obj [("component", .str "ecdsa-p256"), ("key_id", .str keyId),
      ("value", .str (String.ofList (List.replicate 128 '0')))]) ≤ 264 := by
    refine (size_obj_le _).trans ?_
    have h1 := memberCost_le "component" (by simp [shortTexts]) hname
    have h2 := memberCost_le "key_id" (by simp [shortTexts]) (size_str_le hp hl)
    have h3 := memberCost_le "value" (by simp [shortTexts]) hzeros
    simp only [List.map_cons, List.map_nil, List.sum_cons, List.sum_nil]
    omega
  have hcomponents := (size_arr_le [.obj [("component", .str "ecdsa-p256"),
    ("key_id", .str keyId), ("value", .str (String.ofList (List.replicate 128 '0')))]])
  simp only [List.map_cons, List.map_nil, List.sum_cons, List.sum_nil] at hcomponents
  have hvalue : size (signatureValue keyId (String.ofList (List.replicate 128 '0'))) ≤ 357 := by
    refine (size_obj_le _).trans ?_
    have h1 := memberCost_le "suite" (by simp [shortTexts]) hsuite
    have h2 := memberCost_le "components" (by simp [shortTexts]) (hcomponents.trans
      (show _ ≤ 267 by omega))
    simp only [List.map_cons, List.map_nil, List.sum_cons, List.sum_nil]
    omega
  rw [signatureOverheadBytes, hprefix]
  change 1 + 12 + size (signatureValue keyId (String.ofList (List.replicate 128 '0'))) ≤ 400
  omega

/-- **A short event passes the size guard.** -/
theorem fits_of_short {f : AuditEventFields} (h : ∀ d, f.decision = some d → Short d)
    {keyId : String} (hp : ∀ b ∈ octets keyId, isPrintable b = true)
    (hl : (octets keyId).length ≤ 16) :
    (canonicalBytes (.obj (unsignedDocument f))).length + signatureOverheadBytes keyId ≤
      maxBytes := by
  have hdoc := size_unsignedDocument_le h
  have hsig := size_signatureOverhead_le hp hl
  rw [size] at hdoc
  rw [maxBytes]
  omega

/-- The identifier of a key is sixteen digits. -/
theorem keyId_short (P : Primitives) (publicKey : Bytes) :
    (∀ b ∈ octets (keyIdFromPublicKey P publicKey), isPrintable b = true) ∧
      (octets (keyIdFromPublicKey P publicKey)).length = 16 := by
  refine ⟨hexEncode_printable _, ?_⟩
  rw [keyIdFromPublicKey, hexEncode_size, List.length_take, (P.sha256 publicKey).property]
  rfl

/-- **An event of bounded parts is sealed** when the HSM signs. -/
theorem seal_short {P : Primitives} {publicKey : Bytes} {hsm : HsmAnswer} {f : AuditEventFields}
    (hcoupling : f.eventType.requiresDecision = f.decision.isSome)
    (hshort : ∀ d, f.decision = some d → Short d) (hsigns : ∀ digest, ∃ sig, hsm digest = some sig) :
    ∃ out, (AuditSealer.ofPublicKey P publicKey).seal P hsm f = .ok out := by
  have hc : validateDecisionCoupling f.eventType f.decision = .ok () := by
    unfold validateDecisionCoupling
    rw [hcoupling, bne_self_eq_false, if_neg Bool.false_ne_true]
    cases hd : f.decision with
    | none => rfl
    | some d =>
        have hreasons := (hshort d hd).reasons
        exact if_neg (by rw [maxReasons]; omega)
  obtain ⟨hp, hl⟩ := keyId_short P publicKey
  have hfits := fits_of_short hshort hp hl.le
  rcases seal_cases P (AuditSealer.ofPublicKey P publicKey) hsm hc with ⟨hlarge, -⟩ | ⟨-, hseal⟩
  · exact absurd hfits (Nat.not_le_of_lt hlarge)
  · obtain ⟨sig, hsig⟩ :=
      hsigns (P.sha256 (signedMessage domainPrefixV1 (unsignedDocument f)))
    rw [hseal, hsig]
    exact ⟨_, rfl⟩

end ZeroSecret.Crypto.AuditSeal
