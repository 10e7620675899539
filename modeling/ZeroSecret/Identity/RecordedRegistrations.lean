import ZeroSecret.Identity.Events

/-!
# Authenticators and their audit events

`registration_verify` writes to `identity.authenticators` first and to
`audit.events` afterwards, and nothing takes the first write back. So an
authenticator has its event exactly as long as nothing goes wrong in between:
this is what the condition on the steps says.
-/

namespace ZeroSecret.Identity

open Crypto Crypto.AuditSeal Crypto.AuthenticatorProof Webauthn Interleave

variable {Caller : Type}

/-! ## Undisturbed registrations -/

/-- What is asked of a step. The insertion of an authenticator, if it commits,
is reported, and concerns a subject that can be sealed; afterwards every
operation of the audit is answered. -/
def Untroubled (state : AppState) (calls : Caller → Call) (i : Caller) :
    (op : IdentityOp) → IdentityDb Caller → op.Resp → IdentityDb Caller → Prop
  | .insertAuthenticator columns, s, r, s' => s'.authenticators = s.authenticators ∨
      (r = .ok () ∧ BoundedAsciiOk 256 columns.subjectId ∧
        BoundedAsciiOk 128 state.authorityDomain)
  | .audit op, _, r, _ => (∃ req, calls i = .registrationVerify req) →
      Audit.undisturbed ⟨op, r⟩ = true
  | _, _, _, _ => True

/-- identity-provider in runs whose steps are untroubled. -/
abbrev untroubledWorld (P : Primitives) (sealer : AuditSealer) (start : Int) (state : AppState)
    (calls : Caller → Call) : World Caller IdentityOp IdentityOp.Resp :=
  (identityWorld Caller P sealer start).restrict (Untroubled state calls)

/-- Every row was inserted by a call that knows it, for a sealable subject. -/
def InsertionsKnown (state : AppState) (h : List (Executed Caller IdentityOp.Resp))
    (s : IdentityDb Caller) : Prop :=
  ∀ row ∈ s.authenticators, BoundedAsciiOk 256 row.subjectId ∧
    BoundedAsciiOk 128 state.authorityDomain ∧
    ∃ columns, columns.subjectId = row.subjectId ∧
      (⟨⟨.insertAuthenticator columns, .ok ()⟩, row.owner⟩ : Executed Caller IdentityOp.Resp) ∈ h

theorem insertionsKnown_snoc {P : Primitives} {sealer : AuditSealer} {state : AppState}
    {calls : Caller → Call} {h : List (Executed Caller IdentityOp.Resp)} {s s' : IdentityDb Caller}
    (e : Executed Caller IdentityOp.Resp) (hs : InsertionsKnown state h s)
    (he : Effect P sealer e.caller s e.op s')
    (hu : Untroubled state calls e.caller e.op s e.answer s') :
    InsertionsKnown state (h ++ [e]) s' := by
  have hold : InsertionsKnown state (h ++ [e]) s := by
    intro row hrow
    obtain ⟨hsubject, hdomain, columns, hcolumns, hmem⟩ := hs row hrow
    exact ⟨hsubject, hdomain, columns, hcolumns, List.mem_append_left _ hmem⟩
  obtain ⟨⟨op, answer⟩, i⟩ := e
  intro row hrow
  cases he with
  | wait now => exact hold row hrow
  | issue challenge subjectId kind ttl now hfresh => exact hold row hrow
  | consume challenge kind now => exact hold row hrow
  | register columns now hfresh =>
      -- the step commits, so it is reported
      rcases hu with hsame | ⟨rfl, hsubject, hdomain⟩
      · simp at hsame
      · rcases List.mem_append.mp hrow with hrow | hrow
        · exact hold row hrow
        · rw [List.mem_singleton.mp hrow]
          exact ⟨hsubject, hdomain, columns, rfl,
            List.mem_append_right _ (List.mem_singleton_self _)⟩
  | advance credentialId received now =>
      obtain ⟨old, hmem, rfl⟩ := List.mem_map.mp hrow
      have hrow' := hold old hmem
      split
      · exact hrow'
      · exact hrow'
  | audit op r events hx => exact hold row hrow

section Runs

variable [DecidableEq Caller] {L : Libraries} {sealer : AuditSealer} {start : Int}
  {state : AppState} {calls : Caller → Call} {h : List (Executed Caller IdentityOp.Resp)}
  {c : Config (untroubledWorld L.toPrimitives sealer start state calls) Response}

theorem insertionsKnown_history
    (hc : History (untroubledWorld L.toPrimitives sealer start state calls)
      (Serves L state calls) h c) : InsertionsKnown state h c.state := by
  refine Execution.invariant (I := InsertionsKnown state) ?_ ?_ hc.executes
  · intro row hrow
    cases hrow
  · rintro h t u e hs ⟨hx, hu⟩
    exact insertionsKnown_snoc e hs (exec_effect hx) hu

/-- The operations of the audit of a registration are undisturbed. -/
theorem undisturbed_of_mem
    (hc : History (untroubledWorld L.toPrimitives sealer start state calls)
      (Serves L state calls) h c) {i : Caller} {req : RegistrationVerifyRequest}
    (hcall : calls i = .registrationVerify req) {act : Audit.AuditAct}
    (hact : (⟨.audit act.op, act.answer⟩ : IdentityAct) ∈ ownActs i h) :
    Audit.undisturbed act = true := by
  obtain ⟨-, s, s', -, -, hx⟩ := hc.executes.exists_exec (mem_of_mem_ownActs hact)
  exact hx.2 ⟨req, hcall⟩

/-- After its first write a registration only performs the audit. -/
theorem within_afterInsert (P : Primitives) (state : AppState) (subjectId : String)
    (outcome : RegistrationOutcome) (r : Except String Unit) :
    (afterInsert P state subjectId outcome r).Within fun op => ∃ o, op = .audit o := by
  match r with
  | .error _ => trivial
  | .ok () =>
      rw [afterInsert_ok]
      exact Prog.within_bind (Prog.within_lift (fun o => ⟨o, rfl⟩) _) fun _ => trivial

/-- An authenticator whose registration has finished has its event, and the
registration succeeded. -/
theorem exists_event_of_authenticator
    (hc : History (untroubledWorld L.toPrimitives sealer start state calls)
      (Serves L state calls) h c) {row : StoredAuthenticator Caller}
    (hrow : row ∈ c.state.authenticators) {a : Response}
    (hret : c.procs row.owner = some (.ret a)) :
    a.Success ∧ ∃ event ∈ c.state.events, event.owner = row.owner ∧
      event.eventType = "authenticator.registered" ∧
      event.actor = Audit.actorJson row.subjectId := by
  obtain ⟨hsubject, hdomain, columns, hcolumns, hinsert⟩ := insertionsKnown_history hc row hrow
  have hact := mem_ownActs hinsert
  -- the call is a registration that came to its first write
  have hplain := hc.of_restrict
  obtain ⟨⟨req, hcall⟩, -⟩ := may_of_mem hplain hinsert
  have hperf := performs_program hplain hret
  rw [hcall] at hperf
  rcases performs_registrationVerify hperf with
    hstop | ⟨inputs, subjectId, outcome, r, l', -, hacts, hend⟩
  · exact (hstop.2 _ hact).elim
  have hown : ∀ act ∈ l', act ∈ ownActs row.owner h := by
    intro act hact
    rw [hacts]
    exact List.mem_cons_of_mem _ (List.mem_cons_of_mem _ hact)
  -- which is the insertion of the row
  obtain ⟨rfl, rfl⟩ : columns = registeredColumns subjectId outcome ∧ r = .ok () := by
    rw [hacts] at hact
    rcases List.mem_cons.mp hact with hact | hact
    · cases hact
    rcases List.mem_cons.mp hact with hact | hact
    · cases hact
      exact ⟨rfl, rfl⟩
    · obtain ⟨o, ho⟩ := (within_afterInsert _ _ _ _ _).of_mem hend hact
      cases ho
  rw [afterInsert_ok] at hend
  obtain ⟨result, haudit, rfl⟩ := performs_afterAudit hend
  obtain ⟨l₀, hperf₀, hmem⟩ := performs_of_liftAudit haudit
  -- and its audit went through
  have hsubject' : BoundedAsciiOk 256 subjectId := by
    rw [show subjectId = row.subjectId from hcolumns]
    exact hsubject
  obtain rfl := (Audit.ensures_appended hdomain hsubject').of_performs hperf₀
    fun act hact => undisturbed_of_mem hc hcall (hown _ (hmem act hact))
  obtain ⟨head, eventId, fields, hsm, sealedBytes, insertedAt, -, -, hevent⟩ :=
    exists_event_of_appended hplain hown haudit
  refine ⟨trivial, _, hevent, rfl, rfl, ?_⟩
  rw [← hcolumns]
  rfl

/-- No `registration_verify` is in flight. -/
def Settled (calls : Caller → Call) {W : World Caller IdentityOp IdentityOp.Resp}
    (c : Config W Response) : Prop :=
  ∀ i req, calls i = .registrationVerify req → c.procs i = none ∨ ∃ a, c.procs i = some (.ret a)

/-- No authenticator without its event, and none from a registration that
failed. -/
structure RegistrationsRecorded (calls : Caller → Call) (db : IdentityDb Caller)
    (procs : Caller → Option (IdentityProg Response)) : Prop where
  recorded : ∀ row ∈ db.authenticators, ∃ event ∈ db.events, event.owner = row.owner ∧
    event.eventType = "authenticator.registered" ∧ event.actor = Audit.actorJson row.subjectId
  unchanged : ∀ i req a, calls i = .registrationVerify req → procs i = some (.ret a) →
    ¬ a.Success → ∀ row ∈ db.authenticators, row.owner ≠ i

/-- **In untroubled runs no usable authenticator is without its event.** -/
theorem registrations_recorded
    (hc : Reachable (untroubledWorld L.toPrimitives sealer start state calls)
      (Serves L state calls) c) (hsettled : Settled calls c) :
    RegistrationsRecorded calls c.state c.procs := by
  obtain ⟨h, hc⟩ := History.of_reachable hc
  constructor
  · intro row hrow
    obtain ⟨-, -, columns, -, hinsert⟩ := insertionsKnown_history hc row hrow
    obtain ⟨⟨req, hcall⟩, -⟩ := may_of_mem hc.of_restrict hinsert
    obtain ⟨-, q, -, hq, -⟩ := hc.exists_performs_of_mem hinsert
    rcases hsettled row.owner req hcall with hnone | ⟨a, hret⟩
    · rw [hnone] at hq
      cases hq
    · exact (exists_event_of_authenticator hc hrow hret).2
  · rintro i req a hcall hret hfailed row hrow rfl
    exact hfailed (exists_event_of_authenticator hc hrow hret).1

end Runs

/-! ## Two registrations -/

/-- Acts that meet the condition whatever the state. -/
def calm (state : AppState) : IdentityAct → Bool
  | ⟨.insertAuthenticator _, .error _⟩ => false
  | ⟨.insertAuthenticator columns, .ok ()⟩ =>
      decide (BoundedAsciiOk 256 columns.subjectId) &&
        decide (BoundedAsciiOk 128 state.authorityDomain)
  | ⟨.audit op, r⟩ => Audit.undisturbed ⟨op, r⟩
  | _ => true

theorem untroubled_of_calm {state : AppState} {calls : Caller → Call} {i : Caller}
    {act : IdentityAct} (h : calm state act = true) (s s' : IdentityDb Caller) :
    Untroubled state calls i act.op s act.answer s' := by
  obtain ⟨op, r⟩ := act
  cases op with
  | insertAuthenticator columns =>
      match r, h with
      | .ok (), h =>
          simp only [calm, Bool.and_eq_true, decide_eq_true_eq] at h
          exact Or.inr ⟨rfl, h⟩
  | audit op => exact fun _ => h
  | newChallenge => trivial
  | insertChallenge challenge subjectId kind ttl => trivial
  | consumeChallenge challenge kind => trivial
  | selectAuthenticator credentialId => trivial
  | selectCredentialIds subjectId => trivial
  | advanceSignCount credentialId received => trivial
  | sealAssertion local_ claims => trivial

/-- The registration of alice is calm, and leaves an authenticator. -/
theorem countingCalls_calm :
    ((sampleTrace countingCalls 0).all (calm sampleState) &&
      (sampleTrace countingCalls 1).all (calm sampleState) &&
      !(sampleStateAfter countingCalls 2).authenticators.isEmpty) = true := by
  rw [sampleTrace_eq, sampleTrace_eq, sampleStateAfter_eq]
  decide +kernel

theorem settled_of_sample {W : World Nat IdentityOp IdentityOp.Resp} {c : Config W Response}
    (calls : Nat → Call) {n : Nat} {result : Nat → Response}
    (hprocs : c.procs = fun i => if i < n then some (.ret (result i)) else none) :
    Settled calls c := by
  intro i req _
  rw [hprocs]
  by_cases hi : i < n
  · exact Or.inr ⟨result i, if_pos hi⟩
  · exact Or.inl (if_neg hi)

/-- A registration that leaves an authenticator and its event. -/
theorem registrations_recorded_alice :
    ∃ c : Config (untroubledWorld Libraries.standard.toPrimitives ⟨"b18b86ce1389e46d"⟩ 0
        sampleState countingCalls) Response,
      Reachable _ (Serves .standard sampleState countingCalls) c ∧ Settled countingCalls c ∧
      c.state.authenticators ≠ [] ∧ RegistrationsRecorded countingCalls c.state c.procs := by
  obtain ⟨h, c, hc, hstate, hprocs, hacts⟩ := sample_history countingCalls 2
  have hcalm := countingCalls_calm
  simp only [Bool.and_eq_true, Bool.not_eq_true', List.isEmpty_eq_false_iff] at hcalm
  obtain ⟨⟨hcalm₀, hcalm₁⟩, hne⟩ := hcalm
  have huntroubled : ∀ e ∈ h, ∀ s s',
      Untroubled sampleState countingCalls e.caller e.op s e.answer s' := by
    intro e he
    refine untroubled_of_calm ?_
    -- only the two callers have acted
    have hact := mem_ownActs he
    obtain ⟨-, q, -, hq, -⟩ := hc.exists_performs_of_mem he
    rw [hprocs] at hq
    have hlt : e.caller < 2 := by
      by_contra hge
      simp only [if_neg hge] at hq
      cases hq
    rw [hacts _ hlt] at hact
    have hcases : e.caller = 0 ∨ e.caller = 1 := by omega
    rcases hcases with h0 | h1
    · rw [h0] at hact
      exact List.all_eq_true.mp hcalm₀ _ hact
    · rw [h1] at hact
      exact List.all_eq_true.mp hcalm₁ _ hact
  have hreach := (hc.restrict huntroubled).reachable
  have hsettled := settled_of_sample countingCalls hprocs
  refine ⟨⟨c.state, c.procs⟩, hreach, hsettled, ?_, registrations_recorded hreach hsettled⟩
  rw [hstate]
  exact hne

/-- A subject that `registration_challenge` accepts and the seal does not. -/
def quotedCalls : Nat → Call := sampleCalls "al\"ice" countingRegistration countingLogin

theorem quotedCalls_run :
    (!(sampleStateAfter quotedCalls 2).authenticators.isEmpty &&
      (sampleStateAfter quotedCalls 2).events.isEmpty) = true := by
  rw [sampleStateAfter_eq]
  decide +kernel

/-- A subject with a quotation mark has an authenticator and no event, with
every service available. -/
theorem registrations_unrecorded_quoted :
    ¬ ∀ c : Config sampleWorld Response,
      Reachable sampleWorld (Serves .standard sampleState quotedCalls) c →
      Settled quotedCalls c → RegistrationsRecorded quotedCalls c.state c.procs := by
  intro hrecorded
  obtain ⟨h, c, hc, hstate, hprocs, -⟩ := sample_history quotedCalls 2
  have hrun := quotedCalls_run
  simp only [Bool.and_eq_true, Bool.not_eq_true', List.isEmpty_eq_false_iff,
    List.isEmpty_iff] at hrun
  rw [← hstate] at hrun
  obtain ⟨row, hrow⟩ := List.exists_mem_of_ne_nil _ hrun.1
  obtain ⟨event, hevent, -⟩ :=
    (hrecorded c hc.reachable (settled_of_sample quotedCalls hprocs)).recorded row hrow
  rw [hrun.2] at hevent
  cases hevent

end ZeroSecret.Identity
