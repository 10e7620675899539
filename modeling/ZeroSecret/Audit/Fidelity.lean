import ZeroSecret.Audit.Acceptance
import ZeroSecret.Audit.Appending

/-!
# What an accepted event becomes

A field of an event is copied by hand from the Go message to the proto
request, from there to typed fields, to the unsigned document and to the sealed
octets. Read back, the octets are the event: `RawEvent.document` is the whole
document, member for member, and a call that reports an event accepted has
persisted that document, at the place its chain head gave it.
-/

namespace ZeroSecret.Audit

open Crypto Crypto.AuditSeal Fallible Interleave

/-! ## The document of an event -/

def ProtoActor.document (actor : ProtoActor) : WireActor :=
  ⟨actor.subjectId, actor.kind, actor.aal, actor.authMethod⟩

def ProtoTarget.document (target : ProtoTarget) : WireTarget := ⟨target.type, target.id⟩

def ProtoContext.document (context : ProtoContext) : WireContext :=
  ⟨context.sourceNetwork, context.ticketRef, context.justification⟩

/-- Octets are written in lower-case hexadecimal. -/
def ProtoDecision.document (decision : ProtoDecision) : WireDecision where
  requestId := decision.requestId
  decisionHash := hexEncode decision.decisionHash
  policyVersion := decision.policyVersion
  reasons := decision.reasons
  grantedTtlSeconds := decision.grantedTtlSeconds.map UInt32.toNat
  decisionSignature := decision.decisionSignature.map hexEncode
  decisionSignatureKeyId := decision.decisionSignatureKeyId

/-- The document of an event by `actor`, at its place and time. -/
def RawEvent.document (raw : RawEvent) (actor : ProtoActor) (eventId : String) (head : ChainHead)
    (prevHash : Bytes) (occurredAt : Int) (signature : WireSignature) : WireDocument where
  schemaVersion := 1
  eventId := eventId
  sequence := head.nextSequence.toNat
  occurredAt := rfc3339FromSeconds occurredAt
  authorityDomain := raw.authorityDomain
  eventType := raw.eventType
  actor := actor.document
  target := raw.target.map ProtoTarget.document
  outcome := raw.outcome
  context := raw.context.map ProtoContext.document
  decision := raw.decision.map ProtoDecision.document
  prevHash := hexEncode prevHash
  signature := signature

/-! ## What the conversions keep -/

theorem asContractStr_of_eventTypeFromStr {s : String} {t : EventType}
    (h : eventTypeFromStr s = some t) : t.asContractStr = s := by
  unfold eventTypeFromStr at h
  split at h
  all_goals first
    | (obtain rfl := Option.some.inj h; rfl)
    | cases h

theorem asContractStr_of_actorKindFromStr {s : String} {k : ActorKind}
    (h : actorKindFromStr s = some k) : k.asContractStr = s := by
  unfold actorKindFromStr at h
  split at h
  all_goals first
    | (obtain rfl := Option.some.inj h; rfl)
    | cases h

theorem asContractStr_of_outcomeFromStr {s : String} {o : Outcome}
    (h : outcomeFromStr s = some o) : o.asContractStr = s := by
  unfold outcomeFromStr at h
  split at h
  all_goals first
    | (obtain rfl := Option.some.inj h; rfl)
    | cases h

theorem asStr_of_assuranceLevelFromStr {s : String} {a : AssuranceLevel}
    (h : assuranceLevelFromStr s = some a) : a.asStr = s := by
  unfold assuranceLevelFromStr at h
  split at h
  all_goals first
    | (obtain rfl := Option.some.inj h; rfl)
    | cases h

/-- An optional part is present exactly when it was, with what it was. -/
theorem map_of_transpose {α β γ : Type} {f : α → Except String β} (toWire : β → γ)
    (document : α → γ) (hf : ∀ {a b}, f a = .ok b → toWire b = document a) {o : Option α}
    {o' : Option β} (h : transpose f o = .ok o') : o'.map toWire = o.map document := by
  cases o with
  | none =>
      obtain rfl := Except.ok.inj h
      rfl
  | some a =>
      cases hb : f a with
      | error e =>
          rw [transpose, hb] at h
          cases h
      | ok b =>
          rw [transpose, hb] at h
          obtain rfl := Except.ok.inj h
          exact congrArg some (hf hb)

/-- An optional text of a bounded type is the text. -/
theorem texts_of_transpose {n : Nat} {field : String} {o : Option String}
    {o' : Option (BoundedAscii n field)}
    (h : transpose (fun s => fieldOr (BoundedAscii.new n field s)) o = .ok o') :
    o'.map (·.val) = o := by
  have hmap := map_of_transpose (fun t : BoundedAscii n field => t.val) id
    (fun hok => BoundedAscii.val_of_new (fieldOr_eq_ok hok)) h
  rwa [Option.map_id] at hmap

theorem actor_of_proto {actor : ProtoActor} {a : Actor} (h : actorFromProto actor = .ok a) :
    a.toWire = actor.document := by
  rw [actorFromProto] at h
  obtain ⟨kind, hkind, h⟩ := bind_eq_ok h
  obtain ⟨aal, haal, h⟩ := bind_eq_ok h
  obtain ⟨method, hmethod, h⟩ := bind_eq_ok h
  obtain ⟨subject, hsubject, h⟩ := bind_eq_ok h
  obtain rfl := Except.ok.inj h
  have haal' : aal.map AssuranceLevel.asStr = actor.aal := by
    have hmap := map_of_transpose AssuranceLevel.asStr id
      (fun hok => asStr_of_assuranceLevelFromStr (okOr_eq_ok hok)) haal
    rwa [Option.map_id] at hmap
  simp only [Actor.toWire, ProtoActor.document, haal', texts_of_transpose hmethod,
    BoundedAscii.val_of_new (fieldOr_eq_ok hsubject),
    asContractStr_of_actorKindFromStr (okOr_eq_ok hkind)]

theorem target_of_proto {target : ProtoTarget} {t : Target}
    (h : targetFromProto target = .ok t) : t.toWire = target.document := by
  rw [targetFromProto] at h
  obtain ⟨targetType, htype, h⟩ := bind_eq_ok h
  obtain ⟨id, hid, h⟩ := bind_eq_ok h
  obtain rfl := Except.ok.inj h
  simp only [Target.toWire, ProtoTarget.document, BoundedAscii.val_of_new (fieldOr_eq_ok htype),
    BoundedAscii.val_of_new (fieldOr_eq_ok hid)]

theorem context_of_proto {context : ProtoContext} {c : Context}
    (h : contextFromProto context = .ok c) : c.toWire = context.document := by
  rw [contextFromProto] at h
  obtain ⟨network, hnetwork, h⟩ := bind_eq_ok h
  obtain ⟨ticket, hticket, h⟩ := bind_eq_ok h
  obtain ⟨justification, hjustification, h⟩ := bind_eq_ok h
  obtain rfl := Except.ok.inj h
  simp only [Context.toWire, ProtoContext.document, texts_of_transpose hnetwork,
    texts_of_transpose hticket, texts_of_transpose hjustification]

/-- The reasons, in their order. -/
theorem reasons_of_mapM {texts : List String} {reasons : List Reason}
    (h : texts.mapM (fun r => fieldOr (Reason.new r)) = .ok reasons) :
    reasons.map (·.val) = texts := by
  induction texts generalizing reasons with
  | nil =>
      obtain rfl := Except.ok.inj h
      rfl
  | cons text texts ih =>
      rw [List.mapM_cons] at h
      obtain ⟨reason, hreason, h⟩ := bind_eq_ok h
      obtain ⟨rest, hrest, h⟩ := bind_eq_ok h
      obtain rfl := Except.ok.inj h
      rw [List.map_cons, ih hrest, BoundedAscii.val_of_new (fieldOr_eq_ok hreason)]

theorem decision_of_proto {decision : ProtoDecision} {d : DecisionInfo}
    (h : decisionFromProto decision = .ok d) : d.toWire = decision.document := by
  rw [decisionFromProto] at h
  obtain ⟨hash, hhash, h⟩ := bind_eq_ok h
  obtain ⟨reasons, hreasons, h⟩ := bind_eq_ok h
  obtain ⟨requestId, hrequest, h⟩ := bind_eq_ok h
  obtain ⟨version, hversion, h⟩ := bind_eq_ok h
  obtain ⟨keyId, hkeyId, h⟩ := bind_eq_ok h
  obtain rfl := Except.ok.inj h
  simp only [DecisionInfo.toWire, ProtoDecision.document, digest32_eq_some (okOr_eq_ok hhash),
    reasons_of_mapM hreasons, uuid_val_of_new (fieldOr_eq_ok hrequest),
    BoundedAscii.val_of_new (fieldOr_eq_ok hversion), texts_of_transpose hkeyId]

/-- **The typed fields of an event are its document**, member for member. -/
theorem document_of_fields {raw : RawEvent} {head : ChainHead} {prevHash : Bytes}
    {eventId : String} {occurredAt : Int} {fields : AuditEventFields}
    (h : fieldsFromRequest (sealRequestOf raw head prevHash eventId occurredAt) = .ok fields) :
    ∃ actor, raw.actor = some actor ∧ ∀ signature, fields.toWire signature =
      raw.document actor eventId head prevHash occurredAt signature := by
  have p := fieldsFromRequest_eq_ok_iff.mp h
  obtain ⟨actor, hactor, hconverted⟩ := p.actor
  obtain ⟨t, ht, htime⟩ := p.occurredAt
  obtain rfl := Option.some.inj ht
  refine ⟨actor, hactor, fun signature => ?_⟩
  simp only [AuditEventFields.toWire, RawEvent.document, uuid_val_of_new p.eventId,
    sequence_val_of_new p.sequence, Timestamp.val_of_new htime,
    BoundedAscii.val_of_new p.authorityDomain, asContractStr_of_eventTypeFromStr p.eventType,
    actor_of_proto hconverted, map_of_transpose _ _ target_of_proto p.target,
    asContractStr_of_outcomeFromStr p.outcome, map_of_transpose _ _ context_of_proto p.context,
    map_of_transpose _ _ decision_of_proto p.decision, digest32_eq_some p.prevHash]
  rfl

/-- **Sealed octets are the canonical document of the event**, and read back
as it. -/
theorem document_of_seal {P : Primitives} {sealer : AuditSealer} {hsm : HsmAnswer}
    {raw : RawEvent} {head : ChainHead} {prevHash : Bytes} {eventId : String} {occurredAt : Int}
    {out : Bytes}
    (h : SealerService.seal P sealer hsm (sealRequestOf raw head prevHash eventId occurredAt) =
      .ok out) :
    ∃ actor signature, raw.actor = some actor ∧
      out = canonicalBytes (.obj (wireMembers
        (raw.document actor eventId head prevHash occurredAt signature))) ∧
      WireDocument.fromSlice out =
        some (raw.document actor eventId head prevHash occurredAt signature) := by
  obtain ⟨fields, hfields, hseal⟩ := SealerService.seal_eq_ok h
  obtain ⟨-, -, sig, -, rfl⟩ := AuditSeal.seal_eq_ok hseal
  obtain ⟨actor, hactor, hdocument⟩ := document_of_fields hfields
  refine ⟨actor, wireSignature sealer.keyId (hexEncode sig), hactor, ?_, ?_⟩
  · rw [← hdocument, wireMembers, unsignedDocumentFromWire_toWire]
    rfl
  · rw [← hdocument]
    exact fromSlice_sealed fields sealer.keyId sig

/-! ## What an accepted call did -/

/-- The place after the head that was read. -/
def headAfter : Option (Int × Bytes) → ChainHead
  | none => ⟨0, none⟩
  | some (sequence, sealedBytes) => ⟨asU64 sequence + 1, some sealedBytes⟩

theorem headOf_eq {Caller : Type} (table : Table Caller) (authorityDomain : String) :
    headOf table authorityDomain = headAfter (selectHead table authorityDomain) := rfl

theorem performs_chainHead {authorityDomain : String} {l : List AuditAct} {head : ChainHead}
    (h : Performs (Store.chainHead authorityDomain) l (.ret (.ok head))) :
    ∃ row, (⟨.selectHead authorityDomain, .ok row⟩ : AuditAct) ∈ l ∧ head = headAfter row := by
  obtain ⟨r, l₁, rfl, h₁⟩ := Performs.of_call h
  match r, h₁ with
  | .error _, h₁ => cases (Performs.of_ret h₁).2
  | .ok none, h₁ => exact ⟨none, List.mem_cons_self, Except.ok.inj (Performs.of_ret h₁).2⟩
  | .ok (some (sequence, sealedBytes)), h₁ =>
      exact ⟨_, List.mem_cons_self, Except.ok.inj (Performs.of_ret h₁).2⟩

theorem performs_prevHash {head : ChainHead} {l : List AuditAct} {prevHash : Bytes}
    (h : Performs (Collector.prevHash head) l (.ret (.ok prevHash))) :
    (head.prevSealedBytes = none ∧ prevHash = chainRoot.val) ∨
    ∃ sealedBytes, head.prevSealedBytes = some sealedBytes ∧
      (⟨.hashPrevious sealedBytes, .ok prevHash⟩ : AuditAct) ∈ l := by
  unfold Collector.prevHash at h
  cases hprev : head.prevSealedBytes with
  | none =>
      rw [hprev] at h
      exact Or.inl ⟨rfl, Except.ok.inj (Performs.of_ret h).2⟩
  | some sealedBytes =>
      rw [hprev] at h
      obtain ⟨r, l₁, rfl, h₁⟩ := Performs.of_call h
      match r, h₁ with
      | .error _, h₁ => cases (Performs.of_ret h₁).2
      | .ok digest, h₁ =>
          obtain rfl := Except.ok.inj (Performs.of_ret h₁).2
          exact Or.inr ⟨sealedBytes, rfl, List.mem_cons_self⟩

theorem performs_append {row : Row} {l : List AuditAct}
    (h : Performs (Store.append row) l (.ret (.ok ()))) : (⟨.insert row, .ok ()⟩ : AuditAct) ∈ l := by
  obtain ⟨r, l₁, rfl, h₁⟩ := Performs.of_call h
  match r, h₁ with
  | .error _, h₁ => cases (Performs.of_ret h₁).2
  | .ok (), h₁ => exact List.mem_cons_self

theorem performs_persist {raw : RawEvent} {head : ChainHead} {prevHash : Bytes} {eventId : String}
    {occurredAt : Int} {sealedBytes : Bytes} {l : List AuditAct} {result : RecordResult}
    (h : Performs (Collector.persist raw head prevHash eventId occurredAt sealedBytes) l
      (.ret (.recorded result))) :
    result = ⟨true, "", eventId, head.nextSequence⟩ ∧
    ∃ row : Row, row.sealedBytes = sealedBytes ∧ (⟨.insert row, .ok ()⟩ : AuditAct) ∈ l := by
  unfold Collector.persist at h
  obtain ⟨r, l₁, l₂, rfl, -, h₁⟩ := Performs.of_bind h
  match r, h₁ with
  | .error _, h₁ => cases (Performs.of_ret h₁).2
  | .ok actorJSON, h₁ =>
  obtain ⟨r, l₃, l₄, rfl, -, h₂⟩ := Performs.of_bind h₁
  match r, h₂ with
  | none, h₂ => cases (Performs.of_ret h₂).2
  | some targetJSON, h₂ =>
  obtain ⟨r, l₅, l₆, rfl, -, h₃⟩ := Performs.of_bind h₂
  match r, h₃ with
  | none, h₃ => cases (Performs.of_ret h₃).2
  | some contextJSON, h₃ =>
  obtain ⟨r, l₇, l₈, rfl, happend, h₄⟩ := Performs.of_bind h₃
  match r, happend, h₄ with
  | .error _, _, h₄ => cases (Performs.of_ret h₄).2
  | .ok (), happend, h₄ =>
  have hinsert := performs_append happend
  refine ⟨CallResult.recorded.inj (Performs.of_ret h₄).2, _, ?_,
    List.mem_append_right _ (List.mem_append_right _ (List.mem_append_right _
      (List.mem_append_left _ hinsert)))⟩
  rfl

/-- **An accepted event was placed, sealed and inserted.** -/
theorem performs_recorded {raw : RawEvent} {l : List AuditAct} {result : RecordResult}
    (h : Performs (Collector.record raw) l (.ret (.recorded result)))
    (haccepted : result.accepted = true) :
    ∃ read prevHash occurredAt sealedBytes row,
      (⟨.selectHead raw.authorityDomain, .ok read⟩ : AuditAct) ∈ l ∧
      (((headAfter read).prevSealedBytes = none ∧ prevHash = chainRoot.val) ∨
        ∃ sealedBytes, (headAfter read).prevSealedBytes = some sealedBytes ∧
          (⟨.hashPrevious sealedBytes, .ok prevHash⟩ : AuditAct) ∈ l) ∧
      (⟨.newV7, .ok result.eventId⟩ : AuditAct) ∈ l ∧
      (⟨.now, occurredAt⟩ : AuditAct) ∈ l ∧
      (⟨.sealRpc (sealRequestOf raw (headAfter read) prevHash result.eventId occurredAt),
        .ok sealedBytes⟩ : AuditAct) ∈ l ∧
      Row.sealedBytes row = sealedBytes ∧ (⟨.insert row, .ok ()⟩ : AuditAct) ∈ l ∧
      result.sequence = (headAfter read).nextSequence := by
  unfold Collector.record at h
  obtain ⟨r, l₁, l₂, rfl, hhead, h₁⟩ := Performs.of_bind h
  match r, hhead, h₁ with
  | .error _, _, h₁ => cases (Performs.of_ret h₁).2
  | .ok head, hhead, h₁ =>
  obtain ⟨read, hread, rfl⟩ := performs_chainHead hhead
  obtain ⟨r, l₃, l₄, rfl, hprev, h₂⟩ := Performs.of_bind h₁
  match r, hprev, h₂ with
  | .error _, _, h₂ => cases (Performs.of_ret h₂).2
  | .ok prevHash, hprev, h₂ =>
  obtain ⟨r, l₅, rfl, h₃⟩ := Performs.of_call h₂
  match r, h₃ with
  | .error _, h₃ => cases (Performs.of_ret h₃).2
  | .ok eventId, h₃ =>
  obtain ⟨occurredAt, l₆, rfl, h₄⟩ := Performs.of_call h₃
  obtain ⟨r, l₇, rfl, h₅⟩ := Performs.of_call h₄
  match r, h₅ with
  | .error status, h₅ =>
      have hresult := (Performs.of_ret h₅).2
      have hfailed := sealRefusal_failed status
      rw [← hresult, CallResult.succeeded, haccepted] at hfailed
      cases hfailed
  | .ok sealedBytes, h₅ =>
  obtain ⟨rfl, row, hrow, hinsert⟩ := performs_persist h₅
  refine ⟨read, prevHash, occurredAt, sealedBytes, row, ?_, ?_, ?_, ?_, ?_, hrow, ?_, rfl⟩
  · exact List.mem_append_left _ hread
  · rcases performs_prevHash hprev with hroot | ⟨b, hb, hmem⟩
    · exact Or.inl hroot
    · exact Or.inr ⟨b, hb, List.mem_append_right _ (List.mem_append_left _ hmem)⟩
  · simp
  · simp
  · simp
  · simp [hinsert]

/-! ## What the store holds -/

section Runs

variable {Caller : Type}

/-- An operation leaves the rows that are there. -/
theorem mem_of_auditExec {P : Primitives} {sealer : AuditSealer} {i : Caller} {op : AuditOp}
    {s t : Table Caller} {r : op.Resp} (hx : auditExec P sealer i op s r t)
    {row : StoredRow Caller} (hrow : row ∈ s) : row ∈ t := by
  cases op with
  | newV7 => exact (show t = s from hx) ▸ hrow
  | now => exact (show t = s from hx) ▸ hrow
  | marshal m => exact (show t = s from hx) ▸ hrow
  | insert new =>
      rcases hx with ⟨e, -, rfl⟩ | ⟨-, rfl⟩
      · exact hrow
      · exact List.mem_append_left _ hrow
  | _ => exact (show t = s from hx.1) ▸ hrow

/-- An inserted row stays. -/
theorem row_of_inserted {P : Primitives} {sealer : AuditSealer}
    {acts : List (Executed Caller AuditOp.Resp)} {table : Table Caller} {i : Caller} {row : Row}
    (h : Execution (auditWorld Caller P sealer) acts table)
    (hrow : (⟨⟨.insert row, .ok ()⟩, i⟩ : Executed Caller AuditOp.Resp) ∈ acts) :
    (⟨row, i⟩ : StoredRow Caller) ∈ table := by
  refine @Execution.of_mem _ _ _ (auditWorld Caller P sealer) _ _
    (fun t : Table Caller => (⟨row, i⟩ : StoredRow Caller) ∈ t) ?_ _ hrow ?_ h
  · intro j op t r u ht hx
    exact mem_of_auditExec hx ht
  · rintro t u (⟨e, he, -⟩ | ⟨-, rfl⟩)
    · cases he
    · exact List.mem_append_right _ (List.mem_singleton_self _)

/-- The head that was read is the one of the table at that moment. -/
theorem read_of_selected {P : Primitives} {sealer : AuditSealer}
    {acts : List (Executed Caller AuditOp.Resp)} {table : Table Caller} {i : Caller}
    {authorityDomain : String} {row : Option (Int × Bytes)}
    (h : Execution (auditWorld Caller P sealer) acts table)
    (hread : (⟨⟨.selectHead authorityDomain, .ok row⟩, i⟩ : Executed Caller AuditOp.Resp) ∈ acts) :
    ∃ before read, before <+: acts ∧ Execution (auditWorld Caller P sealer) before read ∧
      headAfter row = headOf read authorityDomain := by
  obtain ⟨before, read, after, hbefore, hinitial, hx⟩ := Execution.exists_exec hread h
  refine ⟨before, read, (List.prefix_append _ _).trans hinitial, hbefore, ?_⟩
  rcases hx with ⟨-, ⟨e, he⟩ | hrow⟩
  · cases he
  · rw [Except.ok.inj hrow]
    exact (headOf_eq _ _).symm

variable [DecidableEq Caller]

/-- What call `i` left of the event it accepted: its only row holds the
canonical octets of the event's document, at the place after the head that the
store had when it was read, at the second the clock gave, under the identifier
that was reported. -/
def Mirrored (P : Primitives) (sealer : AuditSealer) (i : Caller) (raw : RawEvent)
    (result : RecordResult) (acts : List (Executed Caller AuditOp.Resp)) (table : Table Caller) :
    Prop :=
  ∃ (before : List (Executed Caller AuditOp.Resp)) (read : Table Caller) (occurredAt : Int)
    (actor : ProtoActor) (signature : WireSignature) (row : Row),
    before <+: acts ∧ Execution (auditWorld Caller P sealer) before read ∧
    (⟨.now, occurredAt⟩ : AuditAct) ∈ ownActs i acts ∧
    result.sequence = (headOf read raw.authorityDomain).nextSequence ∧
    raw.actor = some actor ∧ OwnsExactly i row table ∧
    row.sealedBytes = canonicalBytes (.obj (wireMembers (raw.document actor result.eventId
      (headOf read raw.authorityDomain) (linkOf P (headOf read raw.authorityDomain)).val
      occurredAt signature))) ∧
    WireDocument.fromSlice row.sealedBytes = some (raw.document actor result.eventId
      (headOf read raw.authorityDomain) (linkOf P (headOf read raw.authorityDomain)).val
      occurredAt signature)

/-- The hash that was sent is the link of that head. -/
theorem link_of_hashed {P : Primitives} {sealer : AuditSealer}
    {acts : List (Executed Caller AuditOp.Resp)} {table : Table Caller} {i : Caller}
    {head : ChainHead} {prevHash : Bytes}
    (h : Execution (auditWorld Caller P sealer) acts table)
    (hprev : (head.prevSealedBytes = none ∧ prevHash = chainRoot.val) ∨
      ∃ sealedBytes, head.prevSealedBytes = some sealedBytes ∧
        (⟨.hashPrevious sealedBytes, .ok prevHash⟩ : AuditAct) ∈ ownActs i acts) :
    prevHash = (linkOf P head).val := by
  rcases hprev with ⟨hnone, rfl⟩ | ⟨sealedBytes, hsome, hmem⟩
  · rw [linkOf, hnone]
  · obtain ⟨_, _, _, _, _, -, ⟨e, he⟩ | hdigest⟩ :=
      Execution.exists_exec (mem_of_mem_ownActs hmem) h
    · cases he
    · rw [linkOf, hsome, Except.ok.inj hdigest]
      rfl

/-- **End-to-end fidelity.** In every run of any number of calls of the two
writers, however interleaved and whatever fails, a `Collector.Record` call that
reports its event accepted has persisted the document of that event: no field
is dropped, defaulted or swapped on the way. -/
theorem accepted_event_mirrored (P : Primitives) (sealer : AuditSealer)
    (calls : Caller → AuditProg CallResult) (hcalls : ∀ i, AuditEntry P (calls i))
    (acts : List (Executed Caller AuditOp.Resp))
    (c : Config (auditWorld Caller P sealer) CallResult)
    (hc : History (auditWorld Caller P sealer) (fun i p => p = calls i) acts c)
    (i : Caller) (raw : RawEvent) (result : RecordResult) (hraw : calls i = Collector.record raw)
    (hi : c.procs i = some (.ret (.recorded result))) (haccepted : result.accepted = true) :
    Mirrored P sealer i raw result acts c.state := by
  obtain ⟨p, rfl, hperforms⟩ := hc.performs hi
  rw [hraw] at hperforms
  obtain ⟨selected, prevHash, occurredAt, sealedBytes, row, hread, hprev, hid, hnow, hsealed, hrow,
    hinsert, hsequence⟩ := performs_recorded hperforms haccepted
  have hexec := hc.executes
  obtain ⟨before, read, hbefore, hstate, hhead⟩ :=
    read_of_selected hexec (mem_of_mem_ownActs hread)
  have hlink := link_of_hashed hexec hprev
  rw [hhead] at hlink hsealed hsequence
  subst hlink
  -- the sealing service answered with sealed octets
  obtain ⟨_, _, _, _, _, -, ⟨e, he⟩ | ⟨hsm, hseal⟩⟩ :=
    Execution.exists_exec (mem_of_mem_ownActs hsealed) hexec
  · cases he
  obtain ⟨actor, signature, hactor, hoctets, hparsed⟩ := document_of_seal hseal.symm
  -- the row of the call is the one it inserted
  have hsafe : ∀ j p, p = calls j → ∀ s, ChainInv P s → Fresh j s →
      Safe (auditLogic Caller P sealer) (OwnsIfSucceeded j) j p s := by
    rintro j p rfl
    exact entry_safe P sealer j (calls j) (hcalls j)
  obtain ⟨owned, howned, -⟩ := Logic.reachable_post (auditLogic Caller P sealer) OwnsIfSucceeded
    hsafe hc.reachable hi haccepted
  have hmem := row_of_inserted hexec (mem_of_mem_ownActs hinsert)
  obtain rfl : owned = row := by
    have hfilter : (⟨row, i⟩ : StoredRow Caller) ∈
        List.filter (fun r => decide (r.owner = i)) c.state :=
      List.mem_filter.mpr ⟨hmem, decide_eq_true rfl⟩
    rw [howned] at hfilter
    exact (StoredRow.mk.inj (List.mem_singleton.mp hfilter)).1.symm
  subst hrow
  exact ⟨before, read, occurredAt, actor, signature, owned, hbefore, hstate, hnow, hsequence,
    hactor, howned, hoctets, hparsed⟩

/-- An event with every optional part. -/
def issuedRaw : RawEvent where
  authorityDomain := "acme"
  eventType := "credential.issued"
  actor := some ⟨"alice", "human", some "AAL3", some "webauthn"⟩
  target := some ⟨"Database", "orders"⟩
  outcome := "success"
  context := some ⟨some "10.0.0.0/8", some "INC-1", some "rotation"⟩
  decision := some {
    requestId := "01890000-0000-7000-8000-000000000002"
    decisionHash := List.replicate 32 171
    policyVersion := "v1"
    reasons := ["b", "a"]
    grantedTtlSeconds := some 900
    decisionSignature := some [1, 2]
    decisionSignatureKeyId := some "k1" }

deriving instance DecidableEq for RecordResult, ApiError, CallResult

def issuedResult : RecordResult := ⟨true, "", "01890000-0000-7000-8000-000000000000", 0⟩

theorem issuedRaw_accepted :
    ((Collector.record issuedRaw).run ((sampleServices issuedResult.eventId).answer
      Primitives.standard sampleSealer 0) ([] : Table Nat)).1 = .recorded issuedResult := by
  decide +kernel

theorem issuedRaw_mirrored :
    ∃ (acts : List (Executed Nat AuditOp.Resp))
      (c : Config (auditWorld Nat Primitives.standard sampleSealer) CallResult),
      History _ (fun _ p => p = Collector.record issuedRaw) acts c ∧
      c.procs 0 = some (.ret (.recorded issuedResult)) ∧
      Mirrored Primitives.standard sampleSealer 0 issuedRaw issuedResult acts c.state := by
  obtain ⟨c, hc, -, hprocs⟩ := @History.alone _ _ _ _ _
    (auditWorld Nat Primitives.standard sampleSealer)
    (fun _ p => p = Collector.record issuedRaw) _ _ 0 _
    ((sampleServices issuedResult.eventId).answer_exec Primitives.standard sampleSealer 0)
    History.init rfl _ rfl
  have hi : c.procs 0 = some (.ret (.recorded issuedResult)) := by
    rw [hprocs, Function.update_self]
    exact congrArg (fun r => some (Prog.ret r)) issuedRaw_accepted
  exact ⟨_, c, hc, hi, accepted_event_mirrored Primitives.standard sampleSealer
    (fun _ => Collector.record issuedRaw) (fun _ => .record issuedRaw) _ c hc 0 issuedRaw
    issuedResult rfl hi rfl⟩

end Runs

end ZeroSecret.Audit
