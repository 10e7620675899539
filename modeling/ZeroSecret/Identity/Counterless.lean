import ZeroSecret.Identity.Events

/-!
# Authenticators without a counter

Registration with the count zero sets `counter_supported` to false, and the
ceremony then accepts the count zero again. The statement that advances the
counter knows nothing of this: it wants a count above the stored one, and no
stored count is below zero.
-/

namespace ZeroSecret.Identity

open Crypto Crypto.AuthenticatorProof Webauthn Interleave

variable {Caller : Type}

/-! ## Counts are not negative -/

def CountsOk (s : IdentityDb Caller) : Prop := ∀ row ∈ s.authenticators, 0 ≤ row.signCount

/-- What a registration inserts has a count, and an update stores one. -/
theorem countsOk_effect {P : Primitives} {sealer : AuditSeal.AuditSealer} {L : Libraries}
    {call : Call} {i : Caller} {op : IdentityOp} {s s' : IdentityDb Caller} (hs : CountsOk s)
    (hmay : call.May L op) (h : Effect P sealer i s op s') : CountsOk s' := by
  cases h with
  | wait now => exact hs
  | issue challenge subjectId kind ttl now hfresh => exact hs
  | consume challenge kind now => exact hs
  | register columns now hfresh =>
      obtain ⟨-, subjectId, outcome, rfl⟩ := hmay
      intro row hrow
      rcases List.mem_append.mp hrow with hrow | hrow
      · exact hs row hrow
      · rw [List.mem_singleton.mp hrow]
        exact Int.natCast_nonneg _
  | advance credentialId received now =>
      intro row hrow
      obtain ⟨old, hold, rfl⟩ := List.mem_map.mp hrow
      by_cases ha : old.advanceable credentialId received = true
      · rw [if_pos ha]
        exact Int.natCast_nonneg _
      · rw [if_neg ha]
        exact hs old hold
  | audit op r events hx => exact hs

theorem countsOk_execution {P : Primitives} {sealer : AuditSeal.AuditSealer} {start : Int}
    {L : Libraries} {calls : Caller → Call} {h : List (Executed Caller IdentityOp.Resp)}
    {s : IdentityDb Caller} (hmay : ∀ e ∈ h, (calls e.caller).May L e.op)
    (hh : Execution (identityWorld Caller P sealer start) h s) : CountsOk s := by
  refine hh.invariant (I := fun h s => (∀ e ∈ h, (calls e.caller).May L e.op) → CountsOk s)
    ?_ ?_ hmay
  · intro _ row hrow
    cases hrow
  · intro h t u e ht hx hmay
    have hlast := hmay e (List.mem_append_right _ (List.mem_singleton_self _))
    exact countsOk_effect (ht fun e' he' => hmay e' (List.mem_append_left _ he')) hlast
      (exec_effect hx)

/-- The count zero advances no row. -/
theorem rows_eq_zero_of_exec {P : Primitives} {sealer : AuditSeal.AuditSealer} {i : Caller}
    {credentialId : Bytes} {rows : Nat} {s s' : IdentityDb Caller} (hs : CountsOk s)
    (hx : identityExec P sealer i (.advanceSignCount credentialId 0) s (.ok rows) s') :
    rows = 0 := by
  obtain ⟨now, hf⟩ := statement_ok hx
  obtain ⟨rfl, -⟩ := Prod.mk.inj (Option.some.inj hf)
  refine List.countP_eq_zero.mpr fun row hrow ha => ?_
  have hcount := hs row hrow
  simp only [StoredAuthenticator.advanceable, Bool.and_eq_true, decide_eq_true_eq] at ha
  have hneg : row.signCount < 0 := ha.2
  omega

/-! ## Every such login is refused -/

section Runs

variable [DecidableEq Caller] {L : Libraries} {sealer : AuditSeal.AuditSealer} {start : Int}
  {state : AppState} {calls : Caller → Call} {h : List (Executed Caller IdentityOp.Resp)}
  {c : Config (identityWorld Caller L.toPrimitives sealer start) Response} {i : Caller}

/-- The answer about the counter. -/
def counterAnswer : IdentityAct → Option (Except String Nat)
  | ⟨.advanceSignCount _ _, r⟩ => some r
  | _ => none

theorem rows_eq_zero
    (hc : History (identityWorld Caller L.toPrimitives sealer start) (Serves L state calls) h c)
    {credentialId : Bytes} {rows : Nat}
    (hmem : (⟨⟨.advanceSignCount credentialId 0, .ok rows⟩, i⟩ :
      Executed Caller IdentityOp.Resp) ∈ h) : rows = 0 := by
  obtain ⟨h', t, u, ht, hpre, hx⟩ := hc.executes.exists_exec hmem
  have hcounts : CountsOk t := countsOk_execution
    (fun e he => may_of_mem hc (hpre.subset (List.mem_append_left _ he))) ht
  exact @rows_eq_zero_of_exec _ L.toPrimitives sealer i credentialId rows t u hcounts hx

/-- A call of `authentication_verify` for a credential that was registered
with the count zero: it consumed a valid challenge, passed the ceremony with
the count zero and was answered about the counter. -/
structure CounterlessLogin (L : Libraries) (state : AppState) (calls : Caller → Call)
    (h : List (Executed Caller IdentityOp.Resp)) (i : Caller) (inputs : AuthenticationInputs)
    (row : AuthenticatorRow) (rows : Nat) : Prop where
  passed : ∃ req claims, calls i = .authenticationVerify req ∧
    Authenticating L state req inputs row claims
  count : ∃ parsed, parseAssertionAuthData inputs.authenticatorData = .ok parsed ∧
    parsed.signCount = 0
  registered : ∃ j subjectId outcome, outcome.credentialId = inputs.credentialId ∧
    outcome.signCount = 0 ∧
    (⟨⟨.insertAuthenticator (registeredColumns subjectId outcome), .ok ()⟩, j⟩ :
      Executed Caller IdentityOp.Resp) ∈ h
  acts : ∃ subjectId columns rest, authenticatorRow columns = some row ∧ ownActs i h =
    ⟨.consumeChallenge inputs.presented "authentication", .ok (some subjectId)⟩ ::
    ⟨.selectAuthenticator inputs.credentialId, .ok (some columns)⟩ ::
    ⟨.advanceSignCount row.credentialId 0, .ok rows⟩ :: rest

/-- The call ended as a suspected clone: refused with the suspicion in
`audit.events`, or stopped by a failure on the way there. -/
def HeldAgainst (c : Config (identityWorld Caller L.toPrimitives sealer start) Response)
    (i : Caller) (a : Response) : Prop :=
  (a = .refused (unauthorized "authentification_refusee") ∧
    ∃ row ∈ c.state.events, row.owner = i ∧ row.eventType = "authentication.failed") ∨
  (∃ e, a = .refused e ∧ (e.status = 500 ∨ e.status = 503)) ∨ a = .panicked

/-- The end of a call that did not advance the counter. -/
theorem heldAgainst_of_performs
    (hc : History (identityWorld Caller L.toPrimitives sealer start) (Serves L state calls) h c)
    {claims : AuthenticationClaims} {l : List IdentityAct} {a : Response}
    (hl : ∀ act ∈ l, act ∈ ownActs i h)
    (hperf : Performs (refuseClone L.toPrimitives state claims) l (.ret a)) :
    HeldAgainst c i a := by
  rw [refuseClone_eq] at hperf
  obtain ⟨result, haudit, rfl⟩ := performs_afterAudit hperf
  obtain ⟨l₀, hperf₀, -⟩ := performs_of_liftAudit haudit
  have hresult := (Audit.returns_ofAppend _ _ _ _ _ _ _).of_performs hperf₀
  cases result with
  | appended =>
      obtain ⟨head, eventId, fields, hsm, sealedBytes, insertedAt, -, -, hrow⟩ :=
        exists_event_of_appended hc hl haudit
      exact Or.inl ⟨rfl, _, hrow, rfl, rfl⟩
  | apiError e => exact Or.inr (Or.inl ⟨e, rfl, hresult⟩)
  | panicked => exact Or.inr (Or.inr rfl)
  | recorded _ => exact hresult.elim
  | recordError _ => exact hresult.elim

/-- **An authenticator without a counter never logs in.** Every login that
passes the ceremony with the count zero is held against its authenticator as a
suspected clone. -/
theorem counterless_login_refused
    (hc : History (identityWorld Caller L.toPrimitives sealer start) (Serves L state calls) h c)
    {inputs : AuthenticationInputs} {row : AuthenticatorRow} {rows : Nat}
    (hlogin : CounterlessLogin L state calls h i inputs row rows) {a : Response}
    (hret : c.procs i = some (.ret a)) : HeldAgainst c i a := by
  obtain ⟨req, -, hcall, -⟩ := hlogin.passed
  obtain ⟨subjectId, columns, rest, -, hacts⟩ := hlogin.acts
  -- the statement about the counter matched nothing
  have hmem : (⟨⟨.advanceSignCount row.credentialId 0, .ok rows⟩, i⟩ :
      Executed Caller IdentityOp.Resp) ∈ h := by
    refine mem_of_mem_ownActs ?_
    rw [hacts]
    exact List.mem_cons_of_mem _ (List.mem_cons_of_mem _ List.mem_cons_self)
  have hrows := rows_eq_zero hc hmem
  -- so the call went on to the refusal
  have hperf := performs_program hc hret
  rw [hcall] at hperf
  rcases performs_authenticationVerify hperf with
    hstop | ⟨inputs', subjectId', columns', row', claims', r, l', -, -, hacts', hend⟩
  · have hpreliminary := hstop.2 _ (mem_ownActs hmem)
    exact hpreliminary.elim
  · have hown : ∀ act ∈ l', act ∈ ownActs i h := by
      intro act hact
      rw [hacts']
      exact List.mem_cons_of_mem _ (List.mem_cons_of_mem _ (List.mem_cons_of_mem _ hact))
    rw [hacts] at hacts'
    obtain ⟨-, hacts'⟩ := List.cons.inj hacts'
    obtain ⟨-, hacts'⟩ := List.cons.inj hacts'
    have hanswer := congrArg counterAnswer (List.cons.inj hacts').1
    obtain rfl : Except.ok rows = r := Option.some.inj hanswer
    rw [hrows] at hend
    exact heldAgainst_of_performs hc hown hend

/-! ## One authenticator -/

/-- The third act was answered about the count zero of this credential. -/
def countedAtZero (credentialId : Bytes) : List IdentityAct → Bool
  | _ :: _ :: ⟨.advanceSignCount id received, .ok _⟩ :: _ => id == credentialId && received == 0
  | _ => false

/-- A credential inserted with the count zero. -/
def insertedAtZero (credentialId : Bytes) : IdentityAct → Bool
  | ⟨.insertAuthenticator columns, .ok ()⟩ =>
      columns.credentialId == credentialId && columns.signCount == 0
  | _ => false

theorem of_countedAtZero {credentialId : Bytes} {l : List IdentityAct}
    (h : countedAtZero credentialId l = true) :
    ∃ x y rows rest, l = x :: y :: ⟨.advanceSignCount credentialId 0, .ok rows⟩ :: rest := by
  unfold countedAtZero at h
  split at h
  · rename_i x y id received rows rest
    simp only [Bool.and_eq_true, beq_iff_eq] at h
    obtain ⟨rfl, rfl⟩ := h
    exact ⟨x, y, rows, rest, rfl⟩
  · cases h

theorem of_insertedAtZero {credentialId : Bytes} {act : IdentityAct}
    (h : insertedAtZero credentialId act = true) :
    ∃ columns, act = ⟨.insertAuthenticator columns, .ok ()⟩ ∧
      columns.credentialId = credentialId ∧ columns.signCount = 0 := by
  unfold insertedAtZero at h
  split at h
  · rename_i columns
    simp only [Bool.and_eq_true, beq_iff_eq] at h
    exact ⟨columns, rfl, h⟩
  · cases h

theorem exists_registered_of_inserted
    (hc : History (identityWorld Caller L.toPrimitives sealer start) (Serves L state calls) h c)
    {credentialId : Bytes} (hinserted : (ownActs i h).any (insertedAtZero credentialId) = true) :
    ∃ j subjectId outcome, outcome.credentialId = credentialId ∧ outcome.signCount = 0 ∧
      (⟨⟨.insertAuthenticator (registeredColumns subjectId outcome), .ok ()⟩, j⟩ :
        Executed Caller IdentityOp.Resp) ∈ h := by
  obtain ⟨act, hact, hzero⟩ := List.any_eq_true.mp hinserted
  obtain ⟨columns, rfl, hid, hcount⟩ := of_insertedAtZero hzero
  obtain ⟨-, subjectId, outcome, rfl⟩ := may_of_mem hc (mem_of_mem_ownActs hact)
  refine ⟨i, subjectId, outcome, hid, ?_, mem_of_mem_ownActs hact⟩
  have hnat : (outcome.signCount.toNat : Int) = 0 := hcount
  exact UInt32.toNat_inj.mp (by exact_mod_cast hnat)

/-- A call that came to the counter with the count zero is a login in the
sense above. -/
theorem counterlessLogin_of_counted
    (hc : History (identityWorld Caller L.toPrimitives sealer start) (Serves L state calls) h c)
    {req : AuthenticationVerifyRequest} {credentialId : Bytes} {a : Response}
    (hcall : calls i = .authenticationVerify req) (hret : c.procs i = some (.ret a))
    (hcounted : countedAtZero credentialId (ownActs i h) = true)
    (hregistered : ∃ j subjectId outcome, outcome.credentialId = credentialId ∧
      outcome.signCount = 0 ∧
      (⟨⟨.insertAuthenticator (registeredColumns subjectId outcome), .ok ()⟩, j⟩ :
        Executed Caller IdentityOp.Resp) ∈ h) :
    ∃ inputs row rows, CounterlessLogin L state calls h i inputs row rows := by
  obtain ⟨x, y, rows, rest, hown⟩ := of_countedAtZero hcounted
  have hperf := performs_program hc hret
  rw [hcall] at hperf
  rcases performs_authenticationVerify hperf with
    hstop | ⟨inputs, subjectId, columns, row, claims, r, rest', hauth, hrow, hacts, -⟩
  · rw [hown] at hstop
    exact (hstop.2 _ (List.mem_cons_of_mem _ (List.mem_cons_of_mem _ List.mem_cons_self))).elim
  · have hid : row.credentialId = inputs.credentialId := by
      refine credentialId_of_selected hc (i := i) ?_ hrow
      rw [hacts]
      exact List.mem_cons_of_mem _ List.mem_cons_self
    -- both descriptions of the acts, one against the other
    obtain ⟨hx, htail⟩ := List.cons.inj (hown.symm.trans hacts)
    obtain ⟨hy, htail'⟩ := List.cons.inj htail
    have hop := congrArg Act.op (List.cons.inj htail').1
    obtain ⟨hcred, hcount⟩ := IdentityOp.advanceSignCount.inj hop
    obtain ⟨challenge, -, hceremony⟩ := hauth.ceremony
    obtain ⟨parsed, hpresented, -, rfl⟩ := verifyAuthenticationCeremony_eq_ok_iff.mp hceremony
    refine ⟨inputs, row, rows, ⟨req, _, hcall, hauth⟩,
      ⟨parsed, hpresented.authData, hcount.symm⟩, ?_, subjectId, columns, rest, hrow, ?_⟩
    · rw [← hid, ← hcred]
      exact hregistered
    · rw [hown, hx, hy, hcred]

end Runs

/-- A subject whose authenticator has no counter: registered at zero, logging
in at zero. -/
def counterlessCalls : Nat → Call :=
  sampleCalls "alice"
    (sampleRegistration ("o2NmbXRkbm9uZWdhdHRTdG10oGhhdXRoRGF0YViID5GGteFBzyftBNsO_64BBvEg0qiQkfQMBv-" ++
      "jnjS9WVtBAAAAAAAAAAAAAAAAAAAAAAAAAAAABAECAwSlAQIDJiABIVggYP7UuiVanTHJYet0xjVtaMBJuJI7Yfps" ++
      "5mliLmDyn7YiWCB5A_4QCLi8maQa6elWKLxk8vGyDC1-n1F3o8KU1EYimQ"))
    (sampleLogin "D5GGteFBzyftBNsO_64BBvEg0qiQkfQMBv-jnjS9WVsFAAAAAA"
      "xdSCSWG8yHwg4CBr7dTicNxsq53gjA9IH6IVyK_4xhdpLS8UPTGPUgWBl9kN7c31xgmQ-tga6T43azGtaN8w7g")

def Response.isSuspicion : Response → Bool
  | .refused e => e.status == 401 && e.reason == "authentification_refusee"
  | _ => false

theorem of_isSuspicion {a : Response} (h : a.isSuspicion = true) :
    a = .refused (unauthorized "authentification_refusee") := by
  unfold Response.isSuspicion at h
  split at h
  · rename_i e
    obtain ⟨status, reason⟩ := e
    simp only [Bool.and_eq_true, beq_iff_eq] at h
    obtain ⟨rfl, rfl⟩ := h
    rfl
  · cases h

/-- What the two verify calls did and how the second ended. -/
theorem counterlessCalls_run :
    ((sampleTrace counterlessCalls 1).any (insertedAtZero [1, 2, 3, 4]) &&
      countedAtZero [1, 2, 3, 4] (sampleTrace counterlessCalls 3) &&
      (sampleResult counterlessCalls 3).isSuspicion &&
      (sampleStateAfter counterlessCalls 4).events.any fun row =>
        row.owner == 3 && row.eventType == "authentication.failed") = true := by
  rw [sampleTrace_eq, sampleTrace_eq, sampleResult_eq, sampleStateAfter_eq]
  decide +kernel

/-- The run of the four calls, with the login in it. -/
theorem counterlessCalls_history :
    ∃ h c inputs row rows, History sampleWorld (Serves .standard sampleState counterlessCalls) h c ∧
      CounterlessLogin .standard sampleState counterlessCalls h 3 inputs row rows ∧
      c.procs 3 = some (.ret (.refused (unauthorized "authentification_refusee"))) ∧
      ∃ event ∈ c.state.events, event.owner = 3 ∧ event.eventType = "authentication.failed" := by
  obtain ⟨h, c, hc, hstate, hprocs, hacts⟩ := sample_history counterlessCalls 4
  have hrun := counterlessCalls_run
  simp only [Bool.and_eq_true] at hrun
  obtain ⟨⟨⟨hinserted, hcounted⟩, hresult⟩, hevent⟩ := hrun
  have hret : c.procs 3 = some (.ret (.refused (unauthorized "authentification_refusee"))) := by
    rw [hprocs, ← of_isSuspicion hresult]
    rfl
  rw [← hacts 1 (by omega)] at hinserted
  rw [← hacts 3 (by omega)] at hcounted
  obtain ⟨inputs, row, rows, hlogin⟩ := counterlessLogin_of_counted hc rfl hret hcounted
    (exists_registered_of_inserted hc hinserted)
  obtain ⟨event, hmem, hmatch⟩ := List.any_eq_true.mp hevent
  simp only [Bool.and_eq_true, beq_iff_eq] at hmatch
  rw [← hstate] at hmem
  exact ⟨h, c, inputs, row, rows, hc, hlogin, hret, event, hmem, hmatch⟩

/-- A login without a counter that is held against its authenticator. -/
theorem counterless_login_refused_alice :
    ∃ h c inputs row rows, History sampleWorld (Serves .standard sampleState counterlessCalls) h c ∧
      CounterlessLogin .standard sampleState counterlessCalls h 3 inputs row rows ∧
      ∃ a, c.procs 3 = some (.ret a) ∧ HeldAgainst c 3 a := by
  obtain ⟨h, c, inputs, row, rows, hc, hlogin, hret, -⟩ := counterlessCalls_history
  exact ⟨h, c, inputs, row, rows, hc, hlogin, _, hret, counterless_login_refused hc hlogin hret⟩

/-- The first login with a credential registered at zero is refused as a
clone, and the refusal is recorded. -/
theorem counterless_first_login_refused :
    ¬ ∀ h c inputs row rows a,
      History sampleWorld (Serves .standard sampleState counterlessCalls) h c →
      CounterlessLogin .standard sampleState counterlessCalls h 3 inputs row rows →
      c.procs 3 = some (.ret a) →
      a ≠ .refused (unauthorized "authentification_refusee") ∧
        ∀ event ∈ c.state.events, event.owner = 3 → event.eventType ≠ "authentication.failed" := by
  intro haccepted
  obtain ⟨h, c, inputs, row, rows, hc, hlogin, hret, -⟩ := counterlessCalls_history
  exact (haccepted h c inputs row rows _ hc hlogin hret).1 rfl

end ZeroSecret.Identity
