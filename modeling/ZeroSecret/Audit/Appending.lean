import ZeroSecret.Base.History
import ZeroSecret.Audit.Appenders

/-!
# What `seal_and_append_audit_event` did

The program of identity-provider read from both ends: from its result, the
values it went through (`performs_appended`); from what its operations
answered, its result (`ensures_appended`).
-/

namespace ZeroSecret.Audit

open Crypto Crypto.AuditSeal Interleave

abbrev AuditAct : Type := Act AuditOp.Resp

/-! ## Single operations -/

/-- The position after the head that was read. -/
def AuditStore.headAfter (P : Primitives) : Option (Int × Bytes) → AuditStore.ChainHead
  | none => ⟨0, chainRoot⟩
  | some (sequence, sealedBytes) => ⟨asU64 sequence + 1, hashSealedEvent P sealedBytes⟩

theorem auditStore_chainHead_eq (P : Primitives) (authorityDomain : String) :
    AuditStore.chainHead P authorityDomain =
      .call (.selectHead authorityDomain) fun r : Except String (Option (Int × Bytes)) =>
        .ret (r.map (AuditStore.headAfter P)) := by
  change Prog.call _ _ = _
  congr 1
  funext (r : Except String (Option (Int × Bytes)))
  match r with
  | .error _ => rfl
  | .ok none => rfl
  | .ok (some (_, _)) => rfl

theorem nowRfc3339_eq :
    nowRfc3339 = .call .now fun seconds : Int =>
      .ret (if seconds < 0 then none else some (rfc3339FromSeconds seconds)) := by
  change Prog.call _ _ = _
  congr 1
  funext (seconds : Int)
  by_cases hpast : seconds < 0
  · simp only [Prog.bind, if_pos hpast]
    rfl
  · simp only [Prog.bind, if_neg hpast]
    rfl

/-- The row `AuditStore::append` inserts. -/
def appendedRow (state : AppState) (eventType : EventType) (subjectId : String)
    (outcome : Outcome) (head : AuditStore.ChainHead) (eventId insertedAt : String)
    (sealedBytes : Bytes) : Row where
  eventId := eventId
  sequence := asI64 head.nextSequence
  occurredAt := insertedAt
  authorityDomain := state.authorityDomain
  eventType := eventTypeStr eventType
  actor := actorJson subjectId
  target := none
  outcome := outcomeStr outcome
  context := none
  prevHash := hexEncode head.prevHash.val
  signature := signatureJson
  sealedBytes := sealedBytes

section Appending

variable {P : Primitives} {state : AppState} {eventType : EventType} {subjectId : String}
  {explicit : Option ExplicitTarget} {justification : Option String} {outcome : Outcome}
  {l : List AuditAct}

/-! ## From the result -/

/-- The fields of an event that was sealed for these arguments. -/
structure Filled (state : AppState) (eventType : EventType) (subjectId : String)
    (explicit : Option ExplicitTarget) (eventId : String) (fields : AuditEventFields) :
    Prop where
  explicitId : ∀ e, explicit = some e → eventId = e.eventId
  eventId : fields.eventId.val = eventId
  target : explicitTarget explicit = some fields.target
  eventType : fields.eventType = eventType
  domain : fields.authorityDomain.val = state.authorityDomain
  subject : fields.actor.subjectId.val = subjectId

theorem filled_of_eventFields {head : AuditStore.ChainHead} {eventId occurredAt : String}
    {target : Option Target} {position : EventId × Sequence} {fields : AuditEventFields}
    (hid : ∀ e, explicit = some e → eventId = e.eventId)
    (htarget : explicitTarget explicit = some target)
    (hposition : positionFields head eventId = .ok position)
    (hfields : eventFields state eventType subjectId target justification outcome head.prevHash
      position occurredAt = .ok fields) :
    Filled state eventType subjectId explicit eventId fields := by
  unfold positionFields at hposition
  obtain ⟨id, hnew, hposition⟩ := Fallible.bind_eq_ok_iff.mp hposition
  obtain ⟨sequence, -, hposition⟩ := Fallible.bind_eq_ok_iff.mp hposition
  obtain rfl := Except.ok.inj hposition
  unfold eventFields at hfields
  obtain ⟨timestamp, -, hfields⟩ := Fallible.bind_eq_ok_iff.mp hfields
  obtain ⟨domain, hdomain, hfields⟩ := Fallible.bind_eq_ok_iff.mp hfields
  obtain ⟨subject, hsubject, hfields⟩ := Fallible.bind_eq_ok_iff.mp hfields
  obtain rfl := Except.ok.inj hfields
  exact {
    explicitId := hid
    eventId := uuid_val_of_new hnew
    target := htarget
    eventType := rfl
    domain := BoundedAscii.val_of_new hdomain
    subject := BoundedAscii.val_of_new hsubject }

/-- **An appended event was sealed and inserted.** -/
theorem performs_appended (h : Performs (sealAndAppendAuditEvent P state eventType subjectId
      explicit justification outcome) l (.ret .appended)) :
    ∃ head eventId fields sealedBytes insertedAt,
      Filled state eventType subjectId explicit eventId fields ∧
      (⟨.sealBlocking state.auditSealer fields, some (.ok sealedBytes)⟩ : AuditAct) ∈ l ∧
      (⟨.insert (appendedRow state eventType subjectId outcome head eventId insertedAt
        sealedBytes), .ok ()⟩ : AuditAct) ∈ l := by
  unfold sealAndAppendAuditEvent at h
  obtain ⟨r, l₁, l₂, rfl, -, h₁⟩ := Performs.of_bind h
  match r, h₁ with
  | .error _, h₁ => cases (Performs.of_ret h₁).2
  | .ok head, h₁ =>
  obtain ⟨r, l₃, l₄, rfl, hid, h₂⟩ := Performs.of_bind h₁
  match r, hid, h₂ with
  | none, hid, h₂ => cases (Performs.of_ret h₂).2
  | some eventId, hid, h₂ =>
  cases htarget : explicitTarget explicit with
  | none =>
      rw [htarget] at h₂
      cases (Performs.of_ret h₂).2
  | some target =>
  rw [htarget] at h₂
  dsimp only at h₂
  cases hposition : positionFields head eventId with
  | error e =>
      rw [hposition] at h₂
      cases (Performs.of_ret h₂).2
  | ok position =>
  rw [hposition] at h₂
  obtain ⟨r, l₅, l₆, rfl, -, h₃⟩ := Performs.of_bind h₂
  match r, h₃ with
  | none, h₃ => cases (Performs.of_ret h₃).2
  | some occurredAt, h₃ =>
  dsimp only at h₃
  cases hfields : eventFields state eventType subjectId target justification outcome
      head.prevHash position occurredAt with
  | error e =>
      rw [hfields] at h₃
      cases (Performs.of_ret h₃).2
  | ok fields =>
  rw [hfields] at h₃
  obtain ⟨r, l₇, rfl, h₄⟩ := Performs.of_call h₃
  match r, h₄ with
  | none, h₄ => cases (Performs.of_ret h₄).2
  | some (.error _), h₄ => cases (Performs.of_ret h₄).2
  | some (.ok sealedBytes), h₄ =>
  change Performs (nowRfc3339 >>= _) l₇ _ at h₄
  obtain ⟨r, l₈, l₉, rfl, -, h₅⟩ := Performs.of_bind h₄
  match r, h₅ with
  | none, h₅ => cases (Performs.of_ret h₅).2
  | some insertedAt, h₅ =>
  obtain ⟨r, l₁₀, rfl, h₆⟩ := Performs.of_call h₅
  match r, h₆ with
  | .error _, h₆ => cases (Performs.of_ret h₆).2
  | .ok (), h₆ =>
  have hexplicit : ∀ e, explicit = some e → eventId = e.eventId := by
    rintro e rfl
    exact Option.some.inj (Performs.of_ret hid).2
  refine ⟨head, eventId, fields, sealedBytes, insertedAt,
    filled_of_eventFields hexplicit htarget hposition hfields, ?_, ?_⟩
  · simp
  · simp [appendedRow]

/-- What the function can return: success, or a failure that is not about the
request. -/
def CallResult.OfAppend : CallResult → Prop
  | .appended => True
  | .apiError e => e.status = 500 ∨ e.status = 503
  | .panicked => True
  | _ => False

theorem returns_ofAppend (P : Primitives) (state : AppState) (eventType : EventType)
    (subjectId : String) (explicit : Option ExplicitTarget) (justification : Option String)
    (outcome : Outcome) :
    (sealAndAppendAuditEvent P state eventType subjectId explicit justification outcome).Returns
      CallResult.OfAppend := by
  refine Prog.returns_bind (fun r => ?_) _
  split
  · exact Or.inr rfl
  refine Prog.returns_bind (fun r => ?_) _
  split
  · trivial
  split
  · trivial
  split
  · exact Or.inl rfl
  refine Prog.returns_bind (fun r => ?_) _
  split
  · trivial
  split
  · exact Or.inl rfl
  refine Prog.returns_bind (fun r => ?_) _
  split
  · exact Or.inl rfl
  · exact Or.inr rfl
  refine Prog.returns_bind (fun r => ?_) _
  split
  · trivial
  refine Prog.returns_bind (fun r => ?_) _
  split
  · exact Or.inr rfl
  · trivial

/-! ## To the result -/

/-- The years 1970 to 9999. -/
def onCalendar (seconds : Int) : Bool := 0 ≤ seconds && seconds < 253402300800

/-- An answer after which the program goes on. -/
def undisturbed : AuditAct → Bool
  | ⟨.selectHead _, .error _⟩ => false
  | ⟨.selectHead _, .ok none⟩ => true
  | ⟨.selectHead _, .ok (some (sequence, _))⟩ =>
      (asU64 sequence + 1).toNat ≤ maxSafeInteger
  | ⟨.newV7, .error _⟩ => false
  | ⟨.newV7, .ok id⟩ => uuidValid true (octets id)
  | ⟨.now, seconds⟩ => onCalendar seconds
  | ⟨.sealBlocking _ _, some (.ok _)⟩ => true
  | ⟨.sealBlocking _ _, _⟩ => false
  | ⟨.insert _, .error _⟩ => false
  | _ => true

theorem eventFields_succeeds (eventType : EventType) (target : Option Target)
    (justification : Option String) (outcome : Outcome) (prevHash : Digest)
    (position : EventId × Sequence) (hdomain : BoundedAsciiOk 128 state.authorityDomain)
    (hsubject : BoundedAsciiOk 256 subjectId) {seconds : Int} (hpast : 0 ≤ seconds)
    (hfuture : seconds < 253402300800) :
    Fallible.Succeeds (eventFields state eventType subjectId target justification outcome prevHash
      position (rfc3339FromSeconds seconds)) := by
  obtain ⟨domain, hnew, -⟩ := @BoundedAscii.new_eq_ok 128 "authority_domain" _ hdomain
  obtain ⟨subject, hnew', -⟩ := @BoundedAscii.new_eq_ok 256 "subject_id" _ hsubject
  have htime := timestampValid_rfc3339 (by omega) hfuture
  rw [eventFields, rfc3339FromSeconds, Timestamp.new_eq_ok htime, Fallible.ok_bind,
    AuthorityDomain.new, hnew, Fallible.ok_bind, SubjectId.new, hnew', Fallible.ok_bind]
  exact Fallible.succeeds_ok _

/-- **Undisturbed, an event whose fields are sealable is appended.** -/
theorem ensures_appended (hdomain : BoundedAsciiOk 128 state.authorityDomain)
    (hsubject : BoundedAsciiOk 256 subjectId) :
    (sealAndAppendAuditEvent P state eventType subjectId none justification outcome).Ensures
      (fun act => undisturbed act = true) (· = .appended) := by
  unfold sealAndAppendAuditEvent
  rw [auditStore_chainHead_eq, nowRfc3339_eq]
  intro r hr
  obtain ⟨row, rfl, hnext⟩ : ∃ row, r = .ok row ∧
      (AuditStore.headAfter P row).nextSequence.toNat ≤ maxSafeInteger := by
    rcases r with _ | row
    · cases hr
    · cases row with
      | none => exact ⟨none, rfl, Nat.zero_le _⟩
      | some row => exact ⟨_, rfl, of_decide_eq_true hr⟩
  intro r hid
  rcases r with _ | eventId
  · cases hid
  change uuidValid true (octets eventId) = true at hid
  obtain ⟨position, hposition⟩ : Fallible.Succeeds
      (positionFields (AuditStore.headAfter P row) eventId) := by
    refine ⟨(⟨eventId, hid⟩, ⟨_, hnext⟩), ?_⟩
    rw [positionFields, EventId.new, UuidString.new, dif_pos hid]
    simp only [Fallible.ok_bind, Sequence.new, dif_pos hnext]
  simp only [Prog.bind, pure, explicitTarget, hposition]
  intro (seconds : Int) hnow
  obtain ⟨hpast, hfuture⟩ : 0 ≤ seconds ∧ seconds < 253402300800 := by
    simpa [undisturbed, onCalendar] using hnow
  obtain ⟨fields, hfields⟩ := eventFields_succeeds eventType none justification outcome
    (AuditStore.headAfter P row).prevHash position hdomain hsubject hpast hfuture
  simp only [if_neg (show ¬ seconds < 0 by omega), Prog.bind, hfields]
  intro r hr
  rcases r with _ | _ | sealedBytes
  · cases hr
  · cases hr
  intro (seconds' : Int) hnow'
  obtain ⟨hpast', -⟩ : 0 ≤ seconds' ∧ seconds' < 253402300800 := by
    simpa [undisturbed, onCalendar] using hnow'
  simp only [if_neg (show ¬ seconds' < 0 by omega)]
  intro r hr
  rcases r with _ | _
  · cases hr
  · rfl

end Appending

end ZeroSecret.Audit
