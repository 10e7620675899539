import ZeroSecret.Audit.Fidelity

/-!
# Refusals and outages

`Collector.Record` answers an event it will not have with a refusal and keeps
its errors for outages; it tells the two apart by the status code of the
sealing service. The content of an event is judged twice there: by
`fields_from_request`, whose errors are sent as `InvalidArgument`, and by
`AuditSealer::seal`, whose errors are all sent as `Unavailable`. An event that
only the second one refuses is reported as an outage.
-/

namespace ZeroSecret.Audit

open Crypto Crypto.AuditSeal Fallible Interleave

/-! ## The two depths -/

/-- The sealing service refuses the request for what it says. -/
def ContentRefused (P : Primitives) (sealer : AuditSealer) (hsm : HsmAnswer) (req : SealRequest) :
    Prop :=
  (∃ reason, fieldsFromRequest req = .error reason) ∨
  ∃ fields field, fieldsFromRequest req = .ok fields ∧
    sealer.seal P hsm fields = .error (.invalidFields field)

/-- The decision is missing or misplaced, has too many reasons, or makes the
document too large, on an event whose fields all convert. -/
def RawEvent.RefusedLate (raw : RawEvent) (sealer : AuditSealer) (req : SealRequest) : Prop :=
  ∃ fields, fieldsFromRequest req = .ok fields ∧
    ((∃ t, eventTypeFromStr raw.eventType = some t ∧ t.requiresDecision ≠ raw.decision.isSome) ∨
      (∃ d, raw.decision = some d ∧ maxReasons < d.reasons.length) ∨
      maxBytes < (canonicalBytes (.obj (unsignedDocument fields))).length +
        signatureOverheadBytes sealer.keyId)

/-- Every error of the service is one of the two, and its code tells which. -/
theorem SealerService.seal_eq_error_iff {P : Primitives} {sealer : AuditSealer} {hsm : HsmAnswer}
    {req : SealRequest} {status : Status} :
    SealerService.seal P sealer hsm req = .error status ↔
      (∃ reason, fieldsFromRequest req = .error reason ∧ status = ⟨.invalidArgument, reason⟩) ∨
      ∃ fields e, fieldsFromRequest req = .ok fields ∧ sealer.seal P hsm fields = .error e ∧
        status = ⟨.unavailable, "scellement indisponible : " ++ e.toString⟩ := by
  rw [SealerService.seal]
  cases hfields : fieldsFromRequest req with
  | error reason => simp [eq_comm]
  | ok fields =>
      cases hseal : sealer.seal P hsm fields with
      | error e => simp [hseal, eq_comm]
      | ok out => simp [hseal]

/-- Why `validate_decision_coupling` refuses. -/
theorem coupling_eq_error_iff {t : EventType} {decision : Option DecisionInfo} :
    (∃ field, validateDecisionCoupling t decision = .error (.invalidFields field)) ↔
      t.requiresDecision ≠ decision.isSome ∨
      ∃ d, decision = some d ∧ maxReasons < d.reasons.length := by
  unfold validateDecisionCoupling
  by_cases hcoupled : t.requiresDecision = decision.isSome
  · rw [hcoupled, bne_self_eq_false, if_neg Bool.false_ne_true]
    cases decision with
    | none => simp
    | some d =>
        by_cases hreasons : maxReasons < d.reasons.length
        · simp [hreasons]
        · simp [hreasons]
  · rw [if_pos (bne_iff_ne.mpr hcoupled)]
    exact iff_of_true ⟨_, rfl⟩ (Or.inl hcoupled)

/-- Coupling passes or names a field. -/
theorem coupling_cases (t : EventType) (decision : Option DecisionInfo) :
    validateDecisionCoupling t decision = .ok () ∨
      ∃ field, validateDecisionCoupling t decision = .error (.invalidFields field) := by
  unfold validateDecisionCoupling
  split
  · exact Or.inr ⟨_, rfl⟩
  · split
    · split
      · exact Or.inr ⟨_, rfl⟩
      · exact Or.inl rfl
    · exact Or.inl rfl

/-- An HSM that signs leaves `seal` no other error than a refusal. -/
theorem seal_invalidFields {P : Primitives} {sealer : AuditSealer} {hsm : HsmAnswer}
    {fields : AuditEventFields} (hsigns : ∀ digest, ∃ sig, hsm digest = some sig) {e : SealError}
    (h : sealer.seal P hsm fields = .error e) : ∃ field, e = .invalidFields field := by
  rcases coupling_cases fields.eventType fields.decision with hok | ⟨field, herror⟩
  · rcases seal_cases P sealer hsm hok with ⟨-, hseal⟩ | ⟨-, hseal⟩
    · exact ⟨_, Except.error.inj (h.symm.trans hseal)⟩
    · obtain ⟨sig, hsig⟩ :=
        hsigns (P.sha256 (signedMessage domainPrefixV1 (unsignedDocument fields)))
      rw [hseal, hsig] at h
      cases h
  · rw [AuditSealer.seal, herror] at h
    exact ⟨field, (Except.error.inj h).symm⟩

/-- **With an HSM that signs, `seal` refuses exactly for coupling, reasons and
size.** -/
theorem seal_eq_error_iff {P : Primitives} {sealer : AuditSealer} {hsm : HsmAnswer}
    {fields : AuditEventFields} (hsigns : ∀ digest, ∃ sig, hsm digest = some sig) :
    (∃ e, sealer.seal P hsm fields = .error e) ↔
      fields.eventType.requiresDecision ≠ fields.decision.isSome ∨
      (∃ d, fields.decision = some d ∧ maxReasons < d.reasons.length) ∨
      maxBytes < (canonicalBytes (.obj (unsignedDocument fields))).length +
        signatureOverheadBytes sealer.keyId := by
  rw [← or_assoc, ← coupling_eq_error_iff]
  rcases coupling_cases fields.eventType fields.decision with hok | ⟨field, herror⟩
  · have hnone : ¬ ∃ field, validateDecisionCoupling fields.eventType fields.decision =
        .error (.invalidFields field) := by
      rw [hok]
      rintro ⟨field, h⟩
      cases h
    rw [or_iff_right hnone]
    rcases seal_cases P sealer hsm hok with ⟨hlarge, hseal⟩ | ⟨hfits, hseal⟩
    · exact iff_of_true ⟨_, hseal⟩ hlarge
    · refine iff_of_false ?_ (Nat.not_lt_of_le hfits)
      obtain ⟨sig, hsig⟩ :=
        hsigns (P.sha256 (signedMessage domainPrefixV1 (unsignedDocument fields)))
      rw [hseal, hsig]
      rintro ⟨e, h⟩
      cases h
  · refine iff_of_true ⟨.invalidFields field, ?_⟩ (Or.inl ⟨field, herror⟩)
    rw [AuditSealer.seal, herror]
    rfl

/-- The second refusal, read on the event. -/
theorem refusedLate_iff {P : Primitives} {sealer : AuditSealer} {hsm : HsmAnswer} {raw : RawEvent}
    {head : ChainHead} {prevHash : Bytes} {eventId : String} {occurredAt : Int}
    (hsigns : ∀ digest, ∃ sig, hsm digest = some sig) :
    raw.RefusedLate sealer (sealRequestOf raw head prevHash eventId occurredAt) ↔
      ∃ fields e, fieldsFromRequest (sealRequestOf raw head prevHash eventId occurredAt) =
        .ok fields ∧ sealer.seal P hsm fields = .error e := by
  have hread : ∀ fields,
      fieldsFromRequest (sealRequestOf raw head prevHash eventId occurredAt) = .ok fields →
      ((∃ t, eventTypeFromStr raw.eventType = some t ∧ t.requiresDecision ≠ raw.decision.isSome) ∨
        (∃ d, raw.decision = some d ∧ maxReasons < d.reasons.length) ∨
        maxBytes < (canonicalBytes (.obj (unsignedDocument fields))).length +
          signatureOverheadBytes sealer.keyId ↔ ∃ e, sealer.seal P hsm fields = .error e) := by
    intro fields hfields
    have p := fieldsFromRequest_eq_ok_iff.mp hfields
    have htype : eventTypeFromStr raw.eventType = some fields.eventType := p.eventType
    obtain ⟨hsome, hdecision⟩ := transpose_eq_ok p.decision
    have hdecision' : (∃ d, raw.decision = some d ∧ maxReasons < d.reasons.length) ↔
        ∃ d, fields.decision = some d ∧ maxReasons < d.reasons.length := by
      constructor
      · rintro ⟨d, hd, hmany⟩
        obtain ⟨d', hd'⟩ : ∃ d', fields.decision = some d' :=
          Option.isSome_iff_exists.mp (hsome.trans (Option.isSome_iff_exists.mpr ⟨d, hd⟩))
        obtain ⟨d'', hd'', hconverted⟩ := hdecision d' hd'
        obtain rfl := Option.some.inj (hd.symm.trans hd'')
        exact ⟨d', hd', (decisionFromProto_short hconverted).1 ▸ hmany⟩
      · rintro ⟨d', hd', hmany⟩
        obtain ⟨d, hd, hconverted⟩ := hdecision d' hd'
        exact ⟨d, hd, (decisionFromProto_short hconverted).1 ▸ hmany⟩
    rw [seal_eq_error_iff hsigns, hdecision', htype, hsome]
    simp only [Option.some.injEq, exists_eq_left']
    rfl
  constructor
  · rintro ⟨fields, hfields, hlate⟩
    obtain ⟨e, he⟩ := (hread fields hfields).mp hlate
    exact ⟨fields, e, hfields, he⟩
  · rintro ⟨fields, e, hfields, he⟩
    exact ⟨fields, hfields, (hread fields hfields).mpr ⟨e, he⟩⟩

/-! ## Reasons -/

theorem append_ne_empty (a : String) {b : String} (hb : b ≠ "") : a ++ b ≠ "" := by
  intro h
  apply hb
  have hlength := congrArg String.length h
  rw [String.length_append, String.length_empty] at hlength
  exact String.length_eq_zero_iff.mp (Nat.eq_zero_of_add_eq_zero_left hlength)

theorem failsWith_fieldOr {α : Type} (r : Except FieldError α) : FailsWith (· ≠ "") (fieldOr r) := by
  cases r with
  | error e =>
      intro reason h
      rw [← Except.error.inj h]
      exact append_ne_empty _ (show "'" ≠ "" by decide)
  | ok a => exact failsWith_ok _ a

theorem failsWith_transpose {α β : Type} {f : α → Except String β}
    (hf : ∀ a, FailsWith (· ≠ "") (f a)) (o : Option α) : FailsWith (· ≠ "") (transpose f o) := by
  cases o with
  | none => exact failsWith_ok _ none
  | some a =>
      intro reason h
      cases hb : f a with
      | error e =>
          rw [transpose, hb] at h
          exact hf a reason (hb.trans (congrArg Except.error (Except.error.inj h)))
      | ok b =>
          rw [transpose, hb] at h
          cases h

theorem actorFromProto_reason (actor : ProtoActor) :
    FailsWith (· ≠ "") (actorFromProto actor) :=
  failsWith_bind (failsWith_okOr (by decide) _) fun _ =>
    failsWith_bind (failsWith_transpose (fun _ => failsWith_okOr (by decide) _) _) fun _ =>
      failsWith_bind (failsWith_transpose (fun _ => failsWith_fieldOr _) _) fun _ =>
        failsWith_bind (failsWith_fieldOr _) fun _ => failsWith_ok _ _

theorem targetFromProto_reason (target : ProtoTarget) :
    FailsWith (· ≠ "") (targetFromProto target) :=
  failsWith_bind (failsWith_fieldOr _) fun _ =>
    failsWith_bind (failsWith_fieldOr _) fun _ => failsWith_ok _ _

theorem contextFromProto_reason (context : ProtoContext) :
    FailsWith (· ≠ "") (contextFromProto context) :=
  failsWith_bind (failsWith_transpose (fun _ => failsWith_fieldOr _) _) fun _ =>
    failsWith_bind (failsWith_transpose (fun _ => failsWith_fieldOr _) _) fun _ =>
      failsWith_bind (failsWith_transpose (fun _ => failsWith_fieldOr _) _) fun _ =>
        failsWith_ok _ _

theorem decisionFromProto_reason (decision : ProtoDecision) :
    FailsWith (· ≠ "") (decisionFromProto decision) :=
  failsWith_bind (failsWith_okOr (by decide) _) fun _ =>
    failsWith_bind (failsWith_mapM (fun _ => failsWith_fieldOr _) _) fun _ =>
      failsWith_bind (failsWith_fieldOr _) fun _ =>
        failsWith_bind (failsWith_fieldOr _) fun _ =>
          failsWith_bind (failsWith_transpose (fun _ => failsWith_fieldOr _) _) fun _ =>
            failsWith_ok _ _

/-- **A request that does not convert is refused with a reason.** -/
theorem fieldsFromRequest_reason (req : SealRequest) :
    FailsWith (· ≠ "") (fieldsFromRequest req) := by
  unfold fieldsFromRequest
  refine failsWith_bind (failsWith_okOr (by decide) _) fun _ => ?_
  refine failsWith_bind (failsWith_okOr (by decide) _) fun _ => ?_
  refine failsWith_bind (failsWith_okOr (by decide) _) fun _ => ?_
  refine failsWith_bind (failsWith_okOr (by decide) _) fun _ => ?_
  refine failsWith_bind (failsWith_okOr (by decide) _) fun _ => ?_
  refine failsWith_bind (actorFromProto_reason _) fun _ => ?_
  refine failsWith_bind (failsWith_transpose targetFromProto_reason _) fun _ => ?_
  refine failsWith_bind (failsWith_transpose contextFromProto_reason _) fun _ => ?_
  refine failsWith_bind (failsWith_transpose decisionFromProto_reason _) fun _ => ?_
  refine failsWith_bind (failsWith_fieldOr _) fun _ => ?_
  refine failsWith_bind (failsWith_fieldOr _) fun _ => ?_
  refine failsWith_bind (failsWith_fieldOr _) fun _ => ?_
  exact failsWith_bind (failsWith_fieldOr _) fun _ => failsWith_ok _ _

/-! ## Failed operations -/

/-- The store failed. -/
def storeFailed : AuditAct → Bool
  | ⟨.selectHead _, .error _⟩ => true
  | ⟨.insert _, .error _⟩ => true
  | _ => false

/-- The store or the marshaller failed. -/
def persistFailed : AuditAct → Bool
  | ⟨.marshal _, .error _⟩ => true
  | act => storeFailed act

def CallResult.isError : CallResult → Bool
  | .recordError _ => true
  | _ => false

theorem ensures_protojsonMarshal (m : Message) :
    (protojsonMarshal m).Ensures (fun act => persistFailed act = false)
      (fun r => ∃ json, r = .ok json) := by
  intro r hr
  match r, hr with
  | .ok json, _ => exact ⟨json, rfl⟩

theorem ensures_optionalProtoJSON (m : Option Message) :
    (optionalProtoJSON m).Ensures (fun act => persistFailed act = false)
      (fun r => ∃ json, r = some json) := by
  cases m with
  | none => exact ⟨_, rfl⟩
  | some m =>
      refine Prog.ensures_bind (ensures_protojsonMarshal m) ?_
      rintro _ ⟨json, rfl⟩
      exact ⟨_, rfl⟩

theorem ensures_append (row : Row) :
    (Store.append row).Ensures (fun act => persistFailed act = false) (fun r => r = .ok ()) := by
  intro r hr
  match r, hr with
  | .ok (), _ => rfl

/-- **A sealed event is persisted without an error** unless the store or the
marshaller fails. -/
theorem ensures_persist (raw : RawEvent) (head : ChainHead) (prevHash : Bytes) (eventId : String)
    (occurredAt : Int) (sealedBytes : Bytes) :
    (Collector.persist raw head prevHash eventId occurredAt sealedBytes).Ensures
      (fun act => persistFailed act = false) (fun result => result.isError = false) := by
  refine Prog.ensures_bind (ensures_protojsonMarshal _) ?_
  rintro _ ⟨actorJSON, rfl⟩
  refine Prog.ensures_bind (ensures_optionalProtoJSON _) ?_
  rintro _ ⟨targetJSON, rfl⟩
  refine Prog.ensures_bind (ensures_optionalProtoJSON _) ?_
  rintro _ ⟨contextJSON, rfl⟩
  refine Prog.ensures_bind (ensures_append _) ?_
  rintro _ rfl
  rfl

/-! ## A store that may fail -/

/-- How the store fails one call, if it does: the read of the head, and the
insert of the row, which may have been committed all the same. -/
structure StoreFaults where
  read : Option String
  write : Option (String × Bool)

section Faults

variable {Caller : Type} (P : Primitives) (sealer : AuditSealer) (env : Services)
  (faults : StoreFaults) (i : Caller)

/-- The answers to a call when nothing but the store fails. -/
def StoreFaults.answer : (op : AuditOp) → Table Caller → op.Resp × Table Caller
  | .selectHead d, s =>
      match faults.read with
      | some e => (.error e, s)
      | none => env.answer P sealer i (.selectHead d) s
  | .insert row, s =>
      match faults.write with
      | some (e, committed) =>
          (.error e, if committed = true ∧ Admits s row then s ++ [⟨row, i⟩] else s)
      | none => env.answer P sealer i (.insert row) s
  | .hashPrevious b, s => env.answer P sealer i (.hashPrevious b) s
  | .newV7, s => env.answer P sealer i .newV7 s
  | .now, s => env.answer P sealer i .now s
  | .sealRpc req, s => env.answer P sealer i (.sealRpc req) s
  | .sealBlocking local_ fields, s => env.answer P sealer i (.sealBlocking local_ fields) s
  | .marshal m, s => env.answer P sealer i (.marshal m) s

/-- The call with these answers. -/
def StoreFaults.recorded (raw : RawEvent) (table : Table Caller) : CallResult × Table Caller :=
  (Collector.record raw).run (faults.answer P sealer env i) table

theorem StoreFaults.chainHead_run (hread : faults.read = none) (authorityDomain : String)
    (table : Table Caller) :
    (Store.chainHead authorityDomain).run (faults.answer P sealer env i) table =
      (.ok (headOf table authorityDomain), table) := by
  have hselect : (Db.selectHead authorityDomain).run (faults.answer P sealer env i) table =
      (.ok (selectHead table authorityDomain), table) := by
    change faults.answer P sealer env i (.selectHead authorityDomain) table = _
    rw [StoreFaults.answer, hread]
    rfl
  rw [Store.chainHead, Prog.run_bind, hselect, headOf]
  cases selectHead table authorityDomain with
  | none => rfl
  | some row => rfl

theorem StoreFaults.prevHash_run (head : ChainHead) (table : Table Caller) :
    (Collector.prevHash head).run (faults.answer P sealer env i) table =
      (.ok (linkOf P head).val, table) := by
  rw [Collector.prevHash, linkOf]
  cases head.prevSealedBytes with
  | none => rfl
  | some sealedBytes => rfl

/-- What the call does with the answer of the sealing service. -/
def afterSeal (raw : RawEvent) (table : Table Caller) : Except Status Bytes → AuditProg CallResult
  | .error status => return Collector.sealRefusal status
  | .ok sealedBytes =>
      Collector.persist raw (headOf table raw.authorityDomain)
        (linkOf P (headOf table raw.authorityDomain)).val env.newV7 env.now sealedBytes

/-- When the head is read, the call comes to this point. -/
theorem StoreFaults.recorded_eq (hread : faults.read = none) (raw : RawEvent)
    (table : Table Caller) :
    faults.recorded P sealer env i raw table =
      (afterSeal P env raw table (SealerService.seal P sealer env.hsm
        (sealRequestFor P env raw table))).run (faults.answer P sealer env i) table ∧
    (afterSeal P env raw table (SealerService.seal P sealer env.hsm
        (sealRequestFor P env raw table))).trace (faults.answer P sealer env i) table ⊆
      (Collector.record raw).trace (faults.answer P sealer env i) table := by
  rw [StoreFaults.recorded, Collector.record, Prog.run_bind, Prog.trace_bind,
    StoreFaults.chainHead_run P sealer env faults i hread]
  simp only
  rw [Prog.run_bind, Prog.trace_bind, StoreFaults.prevHash_run]
  refine ⟨?_, fun act hact => ?_⟩
  · change Prog.run _ (match SealerService.seal P sealer env.hsm (sealRequestFor P env raw table) with
      | .error status => _
      | .ok sealedBytes => _) table = _
    cases SealerService.seal P sealer env.hsm (sealRequestFor P env raw table) with
    | error status => rfl
    | ok sealedBytes => rfl
  · refine List.mem_append_right _ (List.mem_append_right _ ?_)
    -- after the identifier, the time and the sealing
    refine List.mem_cons_of_mem _ (List.mem_cons_of_mem _ (List.mem_cons_of_mem _ ?_))
    change act ∈ Prog.trace _ (match SealerService.seal P sealer env.hsm
        (sealRequestFor P env raw table) with
      | .error status => _
      | .ok sealedBytes => _) table
    cases hseal : SealerService.seal P sealer env.hsm (sealRequestFor P env raw table) with
    | error status => exact hseal ▸ hact
    | ok sealedBytes =>
        rw [hseal] at hact
        exact hact

/-- An event the sealing service refuses leaves the store as it was, and the
status decides how the refusal is reported. -/
theorem StoreFaults.recorded_of_refused (hread : faults.read = none) {raw : RawEvent}
    {table : Table Caller} {status : Status}
    (h : SealerService.seal P sealer env.hsm (sealRequestFor P env raw table) = .error status) :
    faults.recorded P sealer env i raw table = (Collector.sealRefusal status, table) := by
  rw [(faults.recorded_eq P sealer env i hread raw table).1, h]
  rfl

/-- An error after the event was sealed is the store's. -/
theorem StoreFaults.storeFailed_of_sealed (hread : faults.read = none) {raw : RawEvent}
    {table : Table Caller} {sealedBytes : Bytes}
    (h : SealerService.seal P sealer env.hsm (sealRequestFor P env raw table) = .ok sealedBytes)
    (herror : (faults.recorded P sealer env i raw table).1.isError = true) :
    ∃ act ∈ (Collector.record raw).trace (faults.answer P sealer env i) table,
      storeFailed act = true := by
  obtain ⟨hrun, hsub⟩ := faults.recorded_eq P sealer env i hread raw table
  rw [hrun, h] at herror
  rw [h] at hsub
  by_contra hnone
  have hcalm : ∀ act ∈ (afterSeal P env raw table (.ok sealedBytes)).trace
      (faults.answer P sealer env i) table, persistFailed act = false := by
    intro act hact
    obtain ⟨t, ht⟩ := Prog.mem_trace hact
    have hstore : storeFailed act = false := by
      rw [Bool.eq_false_iff]
      intro hfailed
      exact hnone ⟨act, hsub hact, hfailed⟩
    -- the marshaller answers
    obtain ⟨op, r⟩ := act
    cases op with
    | marshal m =>
        obtain rfl : r = .ok (env.marshal m) := ht
        rfl
    | _ => exact hstore
  have hfalse := (ensures_persist raw _ _ _ _ sealedBytes).of_performs (Prog.performs_trace _ _ _)
    hcalm
  exact Bool.noConfusion (herror.symm.trans hfalse)

/-! ## Which events are told apart -/

/-- Refusals are refusals and errors are outages: an event refused for its
content is answered with a reason and leaves the store as it was, and an error
comes from a failed operation of the store. -/
structure Separates (raw : RawEvent) (table : Table Caller) : Prop where
  refusal : faults.read = none →
    ContentRefused P sealer env.hsm (sealRequestFor P env raw table) →
    ∃ reason, reason ≠ "" ∧
      faults.recorded P sealer env i raw table = (.recorded ⟨false, reason, "", 0⟩, table)
  outage : (faults.recorded P sealer env i raw table).1.isError = true →
    ∃ act ∈ (Collector.record raw).trace (faults.answer P sealer env i) table,
      storeFailed act = true

/-- **Refusals and outages are told apart exactly** when the event is not one
that only `AuditSealer::seal` refuses. -/
theorem refusals_separated_iff (hsigns : ∀ digest, ∃ sig, env.hsm digest = some sig)
    (raw : RawEvent) (table : Table Caller) :
    Separates P sealer env faults i raw table ↔
      ¬ (faults.read = none ∧ raw.RefusedLate sealer (sealRequestFor P env raw table)) := by
  have hlate := @refusedLate_iff P sealer env.hsm raw (headOf table raw.authorityDomain)
    (linkOf P (headOf table raw.authorityDomain)).val env.newV7 env.now hsigns
  constructor
  · rintro hseparates ⟨hread, hrefused⟩
    obtain ⟨fields, e, hfields, hseal⟩ := hlate.mp hrefused
    have hstatus := SealerService.seal_eq_error_iff.mpr (Or.inr ⟨fields, e, hfields, hseal, rfl⟩)
    have hrecorded := faults.recorded_of_refused P sealer env i hread hstatus
    obtain ⟨field, rfl⟩ := seal_invalidFields hsigns hseal
    obtain ⟨reason, -, hreported⟩ :=
      hseparates.refusal hread (Or.inr ⟨fields, field, hfields, hseal⟩)
    cases hrecorded.symm.trans hreported
  · intro hnot
    constructor
    · intro hread hcontent
      rcases hcontent with ⟨reason, hreason⟩ | ⟨fields, field, hfields, hseal⟩
      · refine ⟨reason, fieldsFromRequest_reason _ _ hreason, ?_⟩
        exact faults.recorded_of_refused P sealer env i hread
          (SealerService.seal_eq_error_iff.mpr (Or.inl ⟨reason, hreason, rfl⟩))
      · exact absurd ⟨hread, hlate.mpr ⟨fields, _, hfields, hseal⟩⟩ hnot
    · intro herror
      cases hread : faults.read with
      | some e =>
          refine ⟨⟨.selectHead raw.authorityDomain, (faults.answer P sealer env i
            (.selectHead raw.authorityDomain) table).1⟩, List.mem_cons_self, ?_⟩
          rw [StoreFaults.answer, hread]
          rfl
      | none =>
          cases hseal : SealerService.seal P sealer env.hsm (sealRequestFor P env raw table) with
          | ok sealedBytes =>
              exact faults.storeFailed_of_sealed P sealer env i hread hseal herror
          | error status =>
              rw [faults.recorded_of_refused P sealer env i hread hseal] at herror
              rcases SealerService.seal_eq_error_iff.mp hseal with
                ⟨reason, -, rfl⟩ | ⟨fields, e, hfields, hrefused, -⟩
              · cases herror
              · exact absurd ⟨hread, hlate.mpr ⟨fields, e, hfields, hrefused⟩⟩ hnot

end Faults

/-! ### Two events that are refused -/

def calm : StoreFaults := ⟨none, none⟩

/-- An event type of the contract that no producer has. -/
def requestedRaw : RawEvent := { sampleRaw with eventType := "access.requested" }

theorem requestedRaw_separates :
    Separates Primitives.standard sampleSealer (sampleServices issuedResult.eventId) calm 0
      requestedRaw ([] : Table Nat) := by
  refine (refusals_separated_iff Primitives.standard sampleSealer
    (sampleServices issuedResult.eventId) calm 0 (fun _ => ⟨_, rfl⟩) requestedRaw []).mpr ?_
  rintro ⟨-, fields, hfields, -⟩
  cases hfields

/-- A policy decision without the decision. -/
def undecidedRaw : RawEvent := { sampleRaw with eventType := "policy.decided" }

/-- The service answered, the HSM would have signed, the store was never asked
to write: and the call reports an outage. -/
theorem undecidedRaw_reported_as_outage :
    (calm.recorded Primitives.standard sampleSealer (sampleServices issuedResult.eventId) 0
      undecidedRaw ([] : Table Nat)).1 = .recordError
        ("scellement indisponible : rpc error: code = Unavailable desc = " ++
          "scellement indisponible : contenu d'événement invalide : champ 'decision'") ∧
    ¬ Separates Primitives.standard sampleSealer (sampleServices issuedResult.eventId) calm 0
      undecidedRaw ([] : Table Nat) := by
  refine ⟨by decide +kernel, ?_⟩
  intro hseparates
  obtain ⟨act, hact, hfailed⟩ := hseparates.outage (by decide +kernel)
  have hcalm : ((Collector.record undecidedRaw).trace (calm.answer Primitives.standard
      sampleSealer (sampleServices issuedResult.eventId) 0) ([] : Table Nat)).all
        (fun act => !storeFailed act) = true := by
    decide +kernel
  have hfine := List.all_eq_true.mp hcalm act hact
  rw [hfailed] at hfine
  cases hfine

end ZeroSecret.Audit
