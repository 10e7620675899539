import ZeroSecret.Audit.Appending
import ZeroSecret.Identity.Ceremonies

/-!
# `audit.events` over runs

What an appended event leaves in the table, whatever the other calls do: its
row stays, and no other row has its identifier.
-/

namespace ZeroSecret.Identity

open Crypto Crypto.AuditSeal Webauthn Interleave
open Audit (AuditOp CallResult ExplicitTarget Filled Row StoredRow appendedRow
  sealAndAppendAuditEvent)

variable {Caller : Type}

/-! ## Rows stay -/

section Steps

variable {P : Primitives} {sealer : AuditSealer} {i : Caller} {op : IdentityOp}
  {s s' : IdentityDb Caller}

/-- A step leaves the table, or adds the row it was asked to insert. -/
theorem events_of_effect (h : Effect P sealer i s op s') :
    s'.events = s.events ∨
    ∃ row, op = .audit (.insert row) ∧ Audit.Admits s.events row ∧
      s'.events = s.events ++ [⟨row, i⟩] := by
  cases h with
  | wait now => exact Or.inl rfl
  | issue challenge subjectId kind ttl now hfresh => exact Or.inl rfl
  | consume challenge kind now => exact Or.inl rfl
  | register columns now hfresh => exact Or.inl rfl
  | advance credentialId received now => exact Or.inl rfl
  | audit op r events hx =>
      cases op with
      | selectHead d => exact Or.inl hx.1
      | hashPrevious b => exact Or.inl hx.1
      | newV7 => exact Or.inl hx
      | now => exact Or.inl hx
      | sealRpc req => exact Or.inl hx.1
      | sealBlocking local_ fields => exact Or.inl hx.1
      | marshal m => exact Or.inl hx
      | insert row =>
          rcases hx with ⟨e, -, rfl⟩ | ⟨hadmits, rfl⟩
          · exact Or.inl rfl
          · exact Or.inr ⟨row, rfl, hadmits, rfl⟩

theorem event_stays {row : StoredRow Caller} (hrow : row ∈ s.events)
    (h : Effect P sealer i s op s') : row ∈ s'.events := by
  rcases events_of_effect h with heq | ⟨new, -, -, heq⟩
  · rwa [heq]
  · rw [heq]
    exact List.mem_append_left _ hrow

/-- Identifiers are unique. -/
def EventsOk (s : IdentityDb Caller) : Prop :=
  KeyedTable (fun row : StoredRow Caller => row.eventId) (fun _ => True) s.events

theorem eventsOk_effect (hs : EventsOk s) (h : Effect P sealer i s op s') : EventsOk s' := by
  rcases events_of_effect h with heq | ⟨row, -, hadmits, heq⟩
  · rw [EventsOk, heq]
    exact hs
  · rw [EventsOk, heq]
    exact hs.insert hadmits.1 trivial

/-- An answered `INSERT` has committed. -/
theorem event_of_exec {row : Row}
    (h : identityExec P sealer i (.audit (.insert row)) s (.ok ()) s') :
    (⟨row, i⟩ : StoredRow Caller) ∈ s'.events := by
  obtain ⟨events, ⟨e, he, -⟩ | ⟨-, rfl⟩, rfl⟩ := h
  · cases he
  · exact List.mem_append_right _ (List.mem_singleton_self _)

end Steps

/-! ## Appended events -/

section Runs

variable [DecidableEq Caller] {L : Libraries} {sealer : AuditSealer} {start : Int}
  {state : AppState} {calls : Caller → Call} {h : List (Executed Caller IdentityOp.Resp)}
  {c : Config (identityWorld Caller L.toPrimitives sealer start) Response}

theorem eventsOk_history (hc : History (identityWorld Caller L.toPrimitives sealer start)
    (Serves L state calls) h c) : EventsOk c.state :=
  execution_invariant (KeyedTable.empty _ _) eventsOk_effect hc.executes

/-- The acts of a lifted audit program are acts of the call. -/
theorem performs_of_liftAudit {α : Type} {p : Audit.AuditProg α} {l : List IdentityAct} {a : α}
    (h : Performs (liftAudit p) l (.ret a)) :
    ∃ l₀ : List Audit.AuditAct, Performs p l₀ (.ret a) ∧
      ∀ act ∈ l₀, (⟨.audit act.op, act.answer⟩ : IdentityAct) ∈ l := by
  obtain ⟨l₀, hperf, -, hmem⟩ := Prog.performs_of_lift h
  refine ⟨l₀, hperf, fun act hact => ?_⟩
  obtain ⟨r, hr, rfl⟩ := hmem act hact
  exact hr

/-- **An appended event is in the table, sealed.** -/
theorem exists_event_of_appended
    (hc : History (identityWorld Caller L.toPrimitives sealer start) (Serves L state calls) h c)
    {i : Caller} {eventType : EventType} {subjectId : String} {explicit : Option ExplicitTarget}
    {justification : Option String} {outcome : Outcome} {l : List IdentityAct}
    (hl : ∀ act ∈ l, act ∈ ownActs i h)
    (hperf : Performs (liftAudit (sealAndAppendAuditEvent L.toPrimitives state.toAppState eventType
      subjectId explicit justification outcome)) l (.ret .appended)) :
    ∃ head eventId fields hsm sealedBytes insertedAt,
      Filled state.toAppState eventType subjectId explicit eventId fields ∧
      state.auditSealer.seal L.toPrimitives hsm fields = .ok sealedBytes ∧
      (⟨appendedRow state.toAppState eventType subjectId outcome head eventId insertedAt
        sealedBytes, i⟩ : StoredRow Caller) ∈ c.state.events := by
  obtain ⟨l₀, hperf₀, hmem⟩ := performs_of_liftAudit hperf
  obtain ⟨head, eventId, fields, sealedBytes, insertedAt, hfilled, hseal, hinsert⟩ :=
    Audit.performs_appended hperf₀
  obtain ⟨hsm, hsm_eq⟩ : ∃ hsm, state.auditSealer.seal L.toPrimitives hsm fields =
      .ok sealedBytes := by
    obtain ⟨-, t, u, -, -, hx⟩ :=
      hc.executes.exists_exec (mem_of_mem_ownActs (hl _ (hmem _ hseal)))
    obtain ⟨events, ⟨-, hans⟩, -⟩ := hx
    rcases hans with hnone | ⟨hsm, hsome⟩
    · cases hnone
    · exact ⟨hsm, (Option.some.inj hsome).symm⟩
  refine ⟨head, eventId, fields, hsm, sealedBytes, insertedAt, hfilled, hsm_eq, ?_⟩
  exact execution_of_mem event_stays (mem_of_mem_ownActs (hl _ (hmem _ hinsert))) event_of_exec
    hc.executes

end Runs

end ZeroSecret.Identity
