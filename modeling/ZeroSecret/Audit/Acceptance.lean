import ZeroSecret.Audit.ChainIntegrity
import ZeroSecret.Crypto.AuditSealSize

/-!
# Which events audit-collector accepts

With every service available and nobody else writing, `Collector.Record`
accepts exactly what the sealer accepts; and the sealer accepts an event whose
fields all convert, when the event is short. What is left is a condition on
the event alone.
-/

namespace ZeroSecret.Audit

open Crypto Crypto.AuditSeal Interleave Fallible

/-! ## Fields that convert -/

theorem succeeds_fieldOr_iff {α : Type} {r : Except FieldError α} :
    Succeeds (fieldOr r) ↔ Succeeds r := by
  constructor
  · rintro ⟨a, h⟩
    exact ⟨a, fieldOr_eq_ok h⟩
  · rintro ⟨a, rfl⟩
    exact succeeds_ok a

theorem succeeds_bounded_iff {n : Nat} {field value : String} :
    Succeeds (BoundedAscii.new n field value) ↔ BoundedAsciiOk n value := by
  constructor
  · rintro ⟨t, h⟩
    rw [← BoundedAscii.val_of_new h]
    exact t.ok
  · intro h
    obtain ⟨t, ht, -⟩ := @BoundedAscii.new_eq_ok n field value h
    exact ⟨t, ht⟩

theorem succeeds_uuid_iff {field value : String} {requireV7 : Bool} :
    Succeeds (UuidString.new field requireV7 value) ↔
      uuidValid requireV7 (octets value) = true := by
  constructor
  · rintro ⟨u, h⟩
    rw [← uuid_val_of_new h]
    exact u.valid
  · intro h
    exact ⟨⟨value, h⟩, dif_pos h⟩

theorem succeeds_transpose_iff {α β : Type} {f : α → Except String β} {o : Option α} :
    Succeeds (transpose f o) ↔ ∀ a, o = some a → Succeeds (f a) := by
  cases o with
  | none =>
      constructor
      · intro _ a ha
        cases ha
      · intro _
        exact succeeds_ok none
  | some a =>
      constructor
      · rintro ⟨b, h⟩ a' ha
        obtain rfl := Option.some.inj ha
        rw [transpose] at h
        cases hf : f a with
        | error e =>
            rw [hf] at h
            cases h
        | ok b => exact succeeds_ok b
      · intro h
        obtain ⟨b, hb⟩ := h a rfl
        rw [transpose, hb]
        exact succeeds_ok (some b)

/-- The conversions of an actor succeed. -/
structure ProtoActor.Admissible (actor : ProtoActor) : Prop where
  kind : ∃ k, actorKindFromStr actor.kind = some k
  aal : ∀ s, actor.aal = some s → ∃ a, assuranceLevelFromStr s = some a
  authMethod : ∀ s, actor.authMethod = some s → BoundedAsciiOk 64 s
  subjectId : BoundedAsciiOk 256 actor.subjectId

structure ProtoTarget.Admissible (target : ProtoTarget) : Prop where
  type : BoundedAsciiOk 256 target.type
  id : BoundedAsciiOk 256 target.id

structure ProtoContext.Admissible (context : ProtoContext) : Prop where
  sourceNetwork : ∀ s, context.sourceNetwork = some s → BoundedAsciiOk 256 s
  ticketRef : ∀ s, context.ticketRef = some s → BoundedAsciiOk 256 s
  justification : ∀ s, context.justification = some s → BoundedAsciiOk 512 s

structure ProtoDecision.Admissible (decision : ProtoDecision) : Prop where
  decisionHash : decision.decisionHash.length = 32
  reasons : ∀ r ∈ decision.reasons, BoundedAsciiOk 256 r
  requestId : uuidValid false (octets decision.requestId) = true
  policyVersion : BoundedAsciiOk 256 decision.policyVersion
  keyId : ∀ s, decision.decisionSignatureKeyId = some s → BoundedAsciiOk 256 s

theorem actorFromProto_succeeds_iff {actor : ProtoActor} :
    Succeeds (actorFromProto actor) ↔ actor.Admissible := by
  have h : Succeeds (actorFromProto actor) ↔ Succeeds (okOr "actor_kind_inconnu"
      (actorKindFromStr actor.kind)) ∧ Succeeds (transpose (fun s => okOr "aal_inconnu"
      (assuranceLevelFromStr s)) actor.aal) ∧
      Succeeds (transpose (fun s => fieldOr (AuthMethod.new s)) actor.authMethod) ∧
      Succeeds (fieldOr (SubjectId.new actor.subjectId)) ∧ True :=
    succeeds_bind_and fun _ => succeeds_bind_and fun _ => succeeds_bind_and fun _ =>
      succeeds_bind_and fun _ => iff_true_intro (succeeds_ok _)
  rw [h, succeeds_okOr_iff, succeeds_transpose_iff, succeeds_transpose_iff, succeeds_fieldOr_iff,
    SubjectId.new, succeeds_bounded_iff]
  simp only [succeeds_okOr_iff, succeeds_fieldOr_iff, AuthMethod.new, succeeds_bounded_iff,
    and_true]
  constructor
  · rintro ⟨h1, h2, h3, h4⟩
    exact ⟨h1, h2, h3, h4⟩
  · rintro ⟨h1, h2, h3, h4⟩
    exact ⟨h1, h2, h3, h4⟩

theorem targetFromProto_succeeds_iff {target : ProtoTarget} :
    Succeeds (targetFromProto target) ↔ target.Admissible := by
  have h : Succeeds (targetFromProto target) ↔ Succeeds (fieldOr (ShortText.new target.type)) ∧
      Succeeds (fieldOr (ShortText.new target.id)) ∧ True :=
    succeeds_bind_and fun _ => succeeds_bind_and fun _ => iff_true_intro (succeeds_ok _)
  rw [h]
  simp only [succeeds_fieldOr_iff, ShortText.new, succeeds_bounded_iff, and_true]
  constructor
  · rintro ⟨h1, h2⟩
    exact ⟨h1, h2⟩
  · rintro ⟨h1, h2⟩
    exact ⟨h1, h2⟩

theorem contextFromProto_succeeds_iff {context : ProtoContext} :
    Succeeds (contextFromProto context) ↔ context.Admissible := by
  have h : Succeeds (contextFromProto context) ↔
      Succeeds (transpose (fun s => fieldOr (ShortText.new s)) context.sourceNetwork) ∧
      Succeeds (transpose (fun s => fieldOr (ShortText.new s)) context.ticketRef) ∧
      Succeeds (transpose (fun s => fieldOr (Justification.new s)) context.justification) ∧
      True :=
    succeeds_bind_and fun _ => succeeds_bind_and fun _ => succeeds_bind_and fun _ =>
      iff_true_intro (succeeds_ok _)
  rw [h]
  simp only [succeeds_transpose_iff, succeeds_fieldOr_iff, ShortText.new, Justification.new,
    succeeds_bounded_iff, and_true]
  constructor
  · rintro ⟨h1, h2, h3⟩
    exact ⟨h1, h2, h3⟩
  · rintro ⟨h1, h2, h3⟩
    exact ⟨h1, h2, h3⟩

theorem digest32_isSome_iff {bytes : Bytes} :
    (∃ d, digest32 bytes = some d) ↔ bytes.length = 32 := by
  constructor
  · rintro ⟨d, h⟩
    rw [← digest32_eq_some h]
    exact d.property
  · intro h
    exact ⟨⟨bytes, h⟩, dif_pos h⟩

theorem decisionFromProto_succeeds_iff {decision : ProtoDecision} :
    Succeeds (decisionFromProto decision) ↔ decision.Admissible := by
  have h : Succeeds (decisionFromProto decision) ↔
      Succeeds (okOr "decision_hash_doit_faire_32_octets" (digest32 decision.decisionHash)) ∧
      Succeeds (decision.reasons.mapM fun r => fieldOr (Reason.new r)) ∧
      Succeeds (fieldOr (RequestId.new decision.requestId)) ∧
      Succeeds (fieldOr (PolicyVersion.new decision.policyVersion)) ∧
      Succeeds (transpose (fun s => fieldOr (ShortText.new s))
        decision.decisionSignatureKeyId) ∧ True :=
    succeeds_bind_and fun _ => succeeds_bind_and fun _ => succeeds_bind_and fun _ =>
      succeeds_bind_and fun _ => succeeds_bind_and fun _ => iff_true_intro (succeeds_ok _)
  rw [h]
  simp only [succeeds_okOr_iff, digest32_isSome_iff, succeeds_mapM_iff, succeeds_transpose_iff,
    succeeds_fieldOr_iff, Reason.new, RequestId.new, PolicyVersion.new, ShortText.new,
    succeeds_bounded_iff, succeeds_uuid_iff, and_true]
  constructor
  · rintro ⟨h1, h2, h3, h4, h5⟩
    exact ⟨h1, h2, h3, h4, h5⟩
  · rintro ⟨h1, h2, h3, h4, h5⟩
    exact ⟨h1, h2, h3, h4, h5⟩

/-- Every part of an event converts. -/
structure RawEvent.Admissible (raw : RawEvent) : Prop where
  eventType : ∃ t, eventTypeFromStr raw.eventType = some t
  outcome : ∃ o, outcomeFromStr raw.outcome = some o
  actor : ∃ a, raw.actor = some a ∧ a.Admissible
  target : ∀ t, raw.target = some t → t.Admissible
  context : ∀ c, raw.context = some c → c.Admissible
  decision : ∀ d, raw.decision = some d → d.Admissible
  authorityDomain : BoundedAsciiOk 128 raw.authorityDomain

/-- What audit-collector adds to an event: its place, its identifier, its
time. -/
structure Placed (head : ChainHead) (eventId : String) (occurredAt : Int) : Prop where
  sequence : head.nextSequence.toNat ≤ maxSafeInteger
  eventId : uuidValid true (octets eventId) = true
  occurredAt : 0 ≤ occurredAt ∧ occurredAt < 253402300800

/-- **The sealer's conversions succeed exactly on the admissible events.** -/
theorem fieldsFromRequest_succeeds_iff {raw : RawEvent} {head : ChainHead} {prevHash : Digest}
    {eventId : String} {occurredAt : Int} (hp : Placed head eventId occurredAt) :
    Succeeds (fieldsFromRequest (sealRequestOf raw head prevHash.val eventId occurredAt)) ↔
      raw.Admissible := by
  constructor
  · rintro ⟨fields, h⟩
    have p := fieldsFromRequest_eq_ok_iff.mp h
    obtain ⟨a, ha, hactor⟩ := p.actor
    exact {
      eventType := ⟨_, p.eventType⟩
      outcome := ⟨_, p.outcome⟩
      actor := ⟨a, ha, actorFromProto_succeeds_iff.mp ⟨_, hactor⟩⟩
      target := fun t ht => targetFromProto_succeeds_iff.mp
        (succeeds_transpose_iff.mp ⟨_, p.target⟩ t ht)
      context := fun c hc => contextFromProto_succeeds_iff.mp
        (succeeds_transpose_iff.mp ⟨_, p.context⟩ c hc)
      decision := fun d hd => decisionFromProto_succeeds_iff.mp
        (succeeds_transpose_iff.mp ⟨_, p.decision⟩ d hd)
      authorityDomain := succeeds_bounded_iff.mp ⟨_, p.authorityDomain⟩ }
  · intro h
    obtain ⟨eventType, heventType⟩ := h.eventType
    obtain ⟨outcome, houtcome⟩ := h.outcome
    obtain ⟨a, ha, hactor⟩ := h.actor
    obtain ⟨actor, hactor⟩ := actorFromProto_succeeds_iff.mpr hactor
    obtain ⟨target, htarget⟩ := succeeds_transpose_iff.mpr fun t ht =>
      targetFromProto_succeeds_iff.mpr (h.target t ht)
    obtain ⟨context, hcontext⟩ := succeeds_transpose_iff.mpr fun c hc =>
      contextFromProto_succeeds_iff.mpr (h.context c hc)
    obtain ⟨decision, hdecision⟩ := succeeds_transpose_iff.mpr fun d hd =>
      decisionFromProto_succeeds_iff.mpr (h.decision d hd)
    obtain ⟨domain, hdomain⟩ :=
      (@succeeds_bounded_iff 128 "authority_domain" _).mpr h.authorityDomain
    obtain ⟨id, hid⟩ := (@succeeds_uuid_iff "event_id" _ _).mpr hp.eventId
    have htime : timestampValid (octets (rfc3339FromSeconds occurredAt)) = true :=
      timestampValid_rfc3339 (Int.le_trans (by decide) hp.occurredAt.1) hp.occurredAt.2
    refine ⟨⟨id, ⟨_, hp.sequence⟩, prevHash, ⟨_, htime⟩, domain, eventType, actor, target,
      outcome, context, decision⟩, fieldsFromRequest_eq_ok_iff.mpr ?_⟩
    exact {
      eventType := heventType
      outcome := houtcome
      prevHash := digest32_val prevHash
      occurredAt := ⟨_, rfl, Timestamp.new_eq_ok htime⟩
      actor := ⟨a, ha, hactor⟩
      target := htarget
      context := hcontext
      decision := hdecision
      eventId := hid
      sequence := dif_pos hp.sequence
      authorityDomain := hdomain }

/-! ## Sealing -/

/-- An event that carries a decision exactly when its type asks for one, with
few reasons and one signature. -/
structure RawEvent.Short (raw : RawEvent) : Prop where
  coupled : ∀ t, eventTypeFromStr raw.eventType = some t →
    t.requiresDecision = raw.decision.isSome
  reasons : ∀ d, raw.decision = some d → d.reasons.length ≤ 4
  signature : ∀ d sig, raw.decision = some d → d.decisionSignature = some sig → sig.length ≤ 64

theorem decisionFromProto_short {p : ProtoDecision} {d : DecisionInfo}
    (h : decisionFromProto p = .ok d) :
    d.reasons.length = p.reasons.length ∧ d.decisionSignature = p.decisionSignature := by
  rw [decisionFromProto] at h
  obtain ⟨_, _, h⟩ := bind_eq_ok h
  obtain ⟨_, hreasons, h⟩ := bind_eq_ok h
  obtain ⟨_, _, h⟩ := bind_eq_ok h
  obtain ⟨_, _, h⟩ := bind_eq_ok h
  obtain ⟨_, _, h⟩ := bind_eq_ok h
  obtain rfl := Except.ok.inj h
  exact ⟨mapM_length hreasons, rfl⟩

theorem transpose_eq_ok {α β : Type} {f : α → Except String β} {o : Option α} {o' : Option β}
    (h : transpose f o = .ok o') :
    o'.isSome = o.isSome ∧ ∀ b, o' = some b → ∃ a, o = some a ∧ f a = .ok b := by
  cases o with
  | none =>
      obtain rfl := Except.ok.inj h
      refine ⟨rfl, ?_⟩
      intro b hb
      cases hb
  | some a =>
      rw [transpose] at h
      cases hf : f a with
      | error e =>
          rw [hf] at h
          cases h
      | ok b =>
          rw [hf] at h
          obtain rfl := Except.ok.inj h
          refine ⟨rfl, ?_⟩
          intro b' hb'
          obtain rfl := Option.some.inj hb'
          exact ⟨a, rfl, hf⟩

/-- **The sealer seals exactly the admissible events** among the short ones. -/
theorem seal_succeeds_iff {P : Primitives} {publicKey : Bytes} {hsm : HsmAnswer} {raw : RawEvent}
    {head : ChainHead} {prevHash : Digest} {eventId : String} {occurredAt : Int}
    (hsigns : ∀ digest, ∃ sig, hsm digest = some sig) (hshort : raw.Short)
    (hp : Placed head eventId occurredAt) :
    Succeeds (SealerService.seal P (.ofPublicKey P publicKey) hsm
      (sealRequestOf raw head prevHash.val eventId occurredAt)) ↔ raw.Admissible := by
  rw [← fieldsFromRequest_succeeds_iff hp]
  constructor
  · rintro ⟨out, h⟩
    obtain ⟨fields, hf, -⟩ := SealerService.seal_eq_ok h
    exact ⟨fields, hf⟩
  · rintro ⟨fields, hf⟩
    have p := fieldsFromRequest_eq_ok_iff.mp hf
    obtain ⟨hsome, hdecision⟩ := transpose_eq_ok p.decision
    have hcoupling : fields.eventType.requiresDecision = fields.decision.isSome :=
      (hshort.coupled _ p.eventType).trans hsome.symm
    have hd : ∀ d, fields.decision = some d → Short d := by
      intro d hd
      obtain ⟨pd, hpd, hconv⟩ := hdecision d hd
      obtain ⟨hreasons, hsignature⟩ := decisionFromProto_short hconv
      refine ⟨hreasons ▸ hshort.reasons pd hpd, ?_⟩
      intro sig hsig
      exact hshort.signature pd sig hpd (hsignature ▸ hsig)
    obtain ⟨out, hout⟩ := @seal_short P publicKey hsm fields hcoupling hd hsigns
    rw [SealerService.seal, hf]
    simp only [hout]
    exact succeeds_ok out

/-! ## A call that is left alone -/

variable {Caller : Type} {P : Primitives} {sealer : AuditSealer} {i : Caller}

/-- The head the store reports. -/
def headOf (table : Table Caller) (authorityDomain : String) : ChainHead :=
  match selectHead table authorityDomain with
  | none => ⟨0, none⟩
  | some (sequence, sealedBytes) => ⟨asU64 sequence + 1, some sealedBytes⟩

/-- The hash the next event carries. -/
def linkOf (P : Primitives) (head : ChainHead) : Digest :=
  match head.prevSealedBytes with
  | none => chainRoot
  | some sealedBytes => P.sha256 sealedBytes

theorem chainHead_run (env : Services) (authorityDomain : String) (table : Table Caller) :
    (Store.chainHead authorityDomain).run (env.answer P sealer i) table =
      (.ok (headOf table authorityDomain), table) := by
  have hselect : (Db.selectHead authorityDomain).run (env.answer P sealer i) table =
      (.ok (selectHead table authorityDomain), table) := rfl
  rw [Store.chainHead, Prog.run_bind, hselect, headOf]
  cases selectHead table authorityDomain with
  | none => rfl
  | some row => rfl

theorem prevHash_run (env : Services) (head : ChainHead) (table : Table Caller) :
    (Collector.prevHash head).run (env.answer P sealer i) table =
      (.ok (linkOf P head).val, table) := by
  rw [Collector.prevHash, linkOf]
  cases head.prevSealedBytes with
  | none => rfl
  | some sealedBytes => rfl

theorem latestRow_eq_none {rows : List (StoredRow Caller)} (h : latestRow rows = none) :
    rows = [] := by
  cases rows with
  | nil => rfl
  | cons a rows =>
      rw [latestRow] at h
      split at h
      · cases h
      · split at h
        · cases h
        · cases h

theorem latestRow_ge {rows : List (StoredRow Caller)} {r : StoredRow Caller}
    (h : latestRow rows = some r) : ∀ r' ∈ rows, r'.sequence ≤ r.sequence := by
  induction rows generalizing r with
  | nil =>
      intro r' hr'
      cases hr'
  | cons a rows ih =>
      intro r' hr'
      rw [latestRow] at h
      cases hrest : latestRow rows with
      | none =>
          rw [hrest] at h
          obtain rfl := Option.some.inj h
          rw [latestRow_eq_none hrest] at hr'
          rw [List.mem_singleton.mp hr']
      | some best =>
          rw [hrest] at h
          have hbest := ih hrest
          simp only at h
          split at h
          · rename_i hle
            obtain rfl := Option.some.inj h
            rcases List.mem_cons.mp hr' with rfl | hr'
            · exact hle
            · exact hbest r' hr'
          · rename_i hgt
            obtain rfl := Option.some.inj h
            rcases List.mem_cons.mp hr' with rfl | hr'
            · exact le_refl _
            · have := hbest r' hr'
              omega

/-- **The head is the end of the chain**: the domain is empty, or the position
reported follows the last row of the domain. -/
theorem headOf_cases {table : Table Caller} (hinv : ChainInv P table) (d : String) :
    ((headOf table d).nextSequence = 0 ∧ ∀ r ∈ table, r.authorityDomain ≠ d) ∨
      ∃ r ∈ table, r.authorityDomain = d ∧
        (headOf table d).nextSequence.toNat = r.index + 1 ∧
        ∀ r' ∈ table, r'.authorityDomain = d → r'.sequence ≤ r.index := by
  rw [headOf, selectHead]
  cases hlatest : latestRow (table.filter fun r => r.authorityDomain = d) with
  | none =>
      left
      refine ⟨rfl, ?_⟩
      intro r hr hd
      have hmem : r ∈ table.filter fun r => r.authorityDomain = d :=
        List.mem_filter.mpr ⟨hr, decide_eq_true hd⟩
      rw [latestRow_eq_none hlatest] at hmem
      cases hmem
  | some r =>
      right
      obtain ⟨hr, hd⟩ := List.mem_filter.mp (mem_of_latestRow hlatest)
      obtain ⟨hseq, hbound⟩ := chainInv_sequence hinv hr
      refine ⟨r, hr, of_decide_eq_true hd, ?_, ?_⟩
      · change (asU64 r.sequence + 1).toNat = r.index + 1
        rw [hseq, asU64_succ hbound]
      · intro r' hr' hd'
        rw [← hseq]
        exact latestRow_ge hlatest r' (List.mem_filter.mpr ⟨hr', decide_eq_true hd'⟩)

/-- A position is never beyond the number of rows. -/
theorem headOf_le_length {table : Table Caller} (hinv : ChainInv P table) (d : String) :
    (headOf table d).nextSequence.toNat ≤ table.length := by
  rcases headOf_cases hinv d with ⟨h0, -⟩ | ⟨r, hr, hd, hn, -⟩
  · rw [h0]
    exact Nat.zero_le _
  · have hmem : r.index ∈ (KeyedLog.ofKey domainOf table d).map StoredRow.index :=
      List.mem_map_of_mem ((KeyedLog.mem_ofKey domainOf).mpr ⟨hr, hd⟩)
    rw [KeyedLog.linked_indices domainOf (rowFollows_consecutive P) hinv, List.mem_range] at hmem
    have hle : (KeyedLog.ofKey domainOf table d).length ≤ table.length :=
      List.length_filter_le _ _
    omega

/-- Nobody holds the reported position. -/
theorem headOf_free {table : Table Caller} (hinv : ChainInv P table)
    (hroom : table.length ≤ maxSafeInteger) (d : String) :
    ∀ r ∈ table, r.authorityDomain = d → r.sequence ≠ asI64 (headOf table d).nextSequence := by
  intro r hr hd hseq
  have hle := headOf_le_length hinv d
  rw [asI64_toNat (hle.trans hroom)] at hseq
  rcases headOf_cases hinv d with ⟨-, hnone⟩ | ⟨r', -, -, hn, hlast⟩
  · exact hnone r hr hd
  · have := hlast r hr hd
    omega

theorem hexEncode_lowerHex (bytes : Bytes) :
    (Json.chars (hexEncode bytes)).length = 2 * bytes.length ∧
      (Json.chars (hexEncode bytes)).all isLowerHex = true := by
  have hbyte : ∀ n : Fin 256, (hexByte (UInt8.ofNat n)).all isLowerHex = true := by
    decide +kernel
  rw [Json.chars_eq_toList, hexEncode, String.toList_ofList]
  induction bytes with
  | nil => exact ⟨rfl, rfl⟩
  | cons b bs ih =>
      have hb := hbyte ⟨b.toNat, b.toNat_lt⟩
      rw [UInt8.ofNat_toNat] at hb
      rw [List.flatMap_cons, List.length_append, List.all_append, ih.1, ih.2, hb]
      refine ⟨?_, rfl⟩
      rw [hexByte, List.length_cons, List.length_cons, List.length_cons, List.length_nil]
      omega

theorem outcome_mem {s : String} (h : ∃ o, outcomeFromStr s = some o) :
    s ∈ ["success", "denied", "error"] := by
  obtain ⟨o, h⟩ := h
  unfold outcomeFromStr at h
  split at h
  · exact List.mem_cons_self
  · exact List.mem_cons_of_mem _ List.mem_cons_self
  · exact List.mem_cons_of_mem _ (List.mem_cons_of_mem _ List.mem_cons_self)
  · cases h

/-! ### The call -/

/-- What the call asks the sealer to seal. -/
def sealRequestFor (P : Primitives) (env : Services) (raw : RawEvent) (table : Table Caller) :
    SealRequest :=
  let head := headOf table raw.authorityDomain
  sealRequestOf raw head (linkOf P head).val env.newV7 env.now

theorem record_run (env : Services) (raw : RawEvent) (table : Table Caller) :
    (Collector.record raw).run (env.answer P sealer i) table =
      match SealerService.seal P sealer env.hsm (sealRequestFor P env raw table) with
      | .error status => (Collector.sealRefusal status, table)
      | .ok sealedBytes =>
          (Collector.persist raw (headOf table raw.authorityDomain)
            (linkOf P (headOf table raw.authorityDomain)).val env.newV7 env.now sealedBytes).run
            (env.answer P sealer i) table := by
  rw [Collector.record, Prog.run_bind, chainHead_run]
  simp only
  rw [Prog.run_bind, prevHash_run]
  change (match SealerService.seal P sealer env.hsm (sealRequestFor P env raw table) with
    | .error status => Prog.ret (Collector.sealRefusal status)
    | .ok sealedBytes => Collector.persist raw (headOf table raw.authorityDomain)
        (linkOf P (headOf table raw.authorityDomain)).val env.newV7 env.now sealedBytes).run
      (env.answer P sealer i) table = _
  cases SealerService.seal P sealer env.hsm (sealRequestFor P env raw table) with
  | error status => rfl
  | ok sealedBytes => rfl

theorem optionalProtoJSON_run (env : Services) (m : Option Message) (table : Table Caller) :
    (optionalProtoJSON m).run (env.answer P sealer i) table =
      (some (m.map env.marshal), table) := by
  cases m with
  | none => rfl
  | some m => rfl

/-- The row the call inserts. -/
def rowFor (env : Services) (raw : RawEvent) (head : ChainHead) (prevHash : Bytes)
    (eventId : String) (occurredAt : Int) (sealedBytes : Bytes) : Row where
  eventId := eventId
  sequence := asI64 head.nextSequence
  occurredAt := rfc3339FromSeconds occurredAt
  authorityDomain := raw.authorityDomain
  eventType := raw.eventType
  actor := env.marshal (.actor raw.actor)
  target := (raw.target.map .target).map env.marshal
  outcome := raw.outcome
  context := (raw.context.map .context).map env.marshal
  prevHash := hexEncode prevHash
  signature := collectorSignatureJSON
  sealedBytes := sealedBytes

theorem persist_run {env : Services} {raw : RawEvent} {head : ChainHead} {prevHash : Bytes}
    {eventId : String} {occurredAt : Int} {sealedBytes : Bytes} {table : Table Caller}
    (hadm : Admits table (rowFor env raw head prevHash eventId occurredAt sealedBytes)) :
    (Collector.persist raw head prevHash eventId occurredAt sealedBytes).run
        (env.answer P sealer i) table =
      (.recorded ⟨true, "", eventId, head.nextSequence⟩,
        table ++ [⟨rowFor env raw head prevHash eventId occurredAt sealedBytes, i⟩]) := by
  have hinsert : (Store.append (rowFor env raw head prevHash eventId occurredAt sealedBytes)).run
      (env.answer P sealer i) table =
      (.ok (), table ++ [⟨rowFor env raw head prevHash eventId occurredAt sealedBytes, i⟩]) := by
    have hdb : (Db.insert (rowFor env raw head prevHash eventId occurredAt sealedBytes)).run
        (env.answer P sealer i) table =
        (.ok (), table ++ [⟨rowFor env raw head prevHash eventId occurredAt sealedBytes, i⟩]) :=
      if_pos hadm
    rw [Store.append, Prog.run_bind, hdb]
    rfl
  have hactor : (protojsonMarshal (.actor raw.actor)).run (env.answer P sealer i) table =
      (.ok (env.marshal (.actor raw.actor)), table) := rfl
  rw [Collector.persist, Prog.run_bind, hactor]
  simp only
  rw [Prog.run_bind, optionalProtoJSON_run]
  simp only
  rw [Prog.run_bind, optionalProtoJSON_run]
  simp only
  rw [Prog.run_bind]
  rw [show (⟨eventId, asI64 head.nextSequence, rfc3339FromSeconds occurredAt,
    raw.authorityDomain, raw.eventType, env.marshal (.actor raw.actor),
    (raw.target.map .target).map env.marshal, raw.outcome,
    (raw.context.map .context).map env.marshal, hexEncode prevHash, collectorSignatureJSON,
    sealedBytes⟩ : Row) = rowFor env raw head prevHash eventId occurredAt sealedBytes from rfl,
    hinsert]
  rfl

/-- Every service is available to the call and nobody else writes: the HSM
signs, the identifier is new, the clock is between 1970 and 9999, and the
sequences are not used up. -/
structure Receives (P : Primitives) (env : Services) (table : Table Caller) : Prop where
  inv : ChainInv P table
  room : table.length ≤ maxSafeInteger
  fresh : ∀ r ∈ table, r.eventId ≠ env.newV7
  eventId : uuidValid true (octets env.newV7) = true
  now : 0 ≤ env.now ∧ env.now < 253402300800
  signs : ∀ digest, ∃ sig, env.hsm digest = some sig

section Received

variable {env : Services} {table : Table Caller} (h : Receives P env table) (raw : RawEvent)

include h

theorem Receives.placed (d : String) : Placed (headOf table d) env.newV7 env.now :=
  ⟨(headOf_le_length h.inv d).trans h.room, h.eventId, h.now⟩

/-- What is sealed is inserted. -/
theorem Receives.admits {sealedBytes : Bytes}
    (hsealed : SealerService.seal P sealer env.hsm (sealRequestFor P env raw table) =
      .ok sealedBytes) :
    Admits table (rowFor env raw (headOf table raw.authorityDomain)
      (linkOf P (headOf table raw.authorityDomain)).val env.newV7 env.now sealedBytes) := by
  obtain ⟨fields, hf, -⟩ := SealerService.seal_eq_ok hsealed
  have houtcome := (fieldsFromRequest_eq_ok_iff.mp hf).outcome
  obtain ⟨hlen, hhex⟩ :=
    hexEncode_lowerHex (linkOf P (headOf table raw.authorityDomain)).val
  rw [(linkOf P (headOf table raw.authorityDomain)).property] at hlen
  exact ⟨h.fresh, fun r hr hd => headOf_free h.inv h.room _ r hr hd, outcome_mem ⟨_, houtcome⟩,
    hlen, hhex⟩

/-- The chain is kept. -/
theorem Receives.record_inv [DecidableEq Caller] (hfresh : Fresh i table) :
    ChainInv P ((Collector.record raw).run (env.answer P sealer i) table).2 :=
  (safe_run (W := auditWorld Caller P sealer) (env.answer_exec P sealer i)
    (record_safe raw h.inv hfresh) h.inv).1

end Received

end ZeroSecret.Audit
