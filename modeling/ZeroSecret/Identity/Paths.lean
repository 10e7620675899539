import ZeroSecret.Identity.Handler

/-!
# What a verify call did

Inversion of the two verify programs: from the acts of a finished call, the
values it went through. Everything later about a single call is read off
here.
-/

namespace ZeroSecret.Identity

open Crypto Crypto.AuthenticatorProof Webauthn Interleave
open Audit (CallResult sealAndAppendAuditEvent)
open IdentityAssertion (AssertionClaims SealedAssertion)

abbrev IdentityAct : Type := Act IdentityOp.Resp

/-! ## Single statements

Each store function is one operation and a reading of its answer. -/

theorem consumeChallenge_eq (challenge : Bytes) (kind : String) :
    IdentityStore.consumeChallenge challenge kind =
      .call (.consumeChallenge challenge kind) fun r : Except String (Option String) =>
        .ret (r.map fun row => row.map fun subjectId => ⟨subjectId, kind⟩) := by
  change Prog.call _ _ = _
  congr 1
  funext r
  cases r <;> rfl

theorem findAuthenticator_eq (credentialId : Bytes) :
    IdentityStore.findAuthenticator credentialId =
      .call (.selectAuthenticator credentialId) fun r : Except String (Option AuthenticatorColumns) =>
        .ret (r.map fun row => row.bind authenticatorRow) := by
  change Prog.call _ _ = _
  congr 1
  funext r
  cases r <;> rfl

theorem advanceSignCount_eq (credentialId : Bytes) (received : UInt32) :
    IdentityStore.advanceSignCount credentialId received =
      .call (.advanceSignCount credentialId received) fun r : Except String Nat =>
        .ret (r.map fun rows => rows == 1) := by
  change Prog.call _ _ = _
  congr 1
  funext r
  cases r <;> rfl

theorem rfc3339NowAndAfter_eq (ttlSeconds : Int) :
    rfc3339NowAndAfter ttlSeconds =
      .call (.audit .now) fun now : Int =>
        .ret (if now < 0 then none else some (Audit.rfc3339FromSeconds now,
          Audit.rfc3339FromSeconds (wrappingAdd now ttlSeconds))) := by
  change Prog.call _ _ = _
  congr 1
  funext (now : Int)
  by_cases hpast : now < 0
  · simp only [Prog.lift, Prog.bind, if_pos hpast]
    rfl
  · simp only [Prog.lift, Prog.bind, if_neg hpast]
    rfl

/-- The statements that come before a ceremony is verified. -/
def IdentityOp.Preliminary : IdentityOp → Prop
  | .consumeChallenge _ _ => True
  | .selectAuthenticator _ => True
  | _ => False

/-- A call refused before it wrote to `identity.authenticators`. -/
def Stopped (l : List IdentityAct) (a : Response) : Prop :=
  (∃ e, a = .refused e) ∧ ∀ act ∈ l, act.op.Preliminary

theorem stopped_of_ret {l l' : List IdentityAct} {e : Audit.ApiError} {a : Response}
    (hl : ∀ act ∈ l, act.op.Preliminary)
    (h : Performs (.ret (.refused e) : IdentityProg Response) l' (.ret a)) :
    Stopped (l ++ l') a := by
  obtain ⟨rfl, rfl⟩ := Performs.of_ret h
  rw [List.append_nil]
  exact ⟨⟨e, rfl⟩, hl⟩

/-! ## Registration -/

/-- The columns `registration_verify` inserts. -/
def registeredColumns (subjectId : String) (outcome : RegistrationOutcome) :
    AuthenticatorColumns where
  credentialId := outcome.credentialId
  subjectId := subjectId
  suite := suiteV1
  algorithm := algorithmToColumn outcome.publicKeyAlgorithm
  publicKey := outcome.publicKeyRaw
  signCount := outcome.signCount.toNat
  aaguid := outcome.aaguid
  attestationFormat := outcome.attestationFormat
  revokedAt := none
  counterSupported := outcome.signCount != 0

/-- What `registration_verify` had in hand when it came to its first write. -/
structure Registering (L : Libraries) (state : AppState) (req : RegistrationVerifyRequest)
    (inputs : RegistrationInputs) (outcome : RegistrationOutcome) : Prop where
  decoded : registrationInputs L req = .ok inputs
  ceremony : ∃ challenge, identityAssertionChallenge inputs.presented = .ok challenge ∧
    verifyRegistrationCeremony L (registrationCeremonyInput state inputs challenge) = .ok outcome

/-- The end of `registration_verify` after the answer to its first write. -/
def afterInsert (P : Primitives) (state : AppState) (subjectId : String)
    (outcome : RegistrationOutcome) : Except String Unit → IdentityProg Response
  | .error _ => return .refused .storeUnavailable
  | .ok () => do
      match ← liftAudit (sealAndAppendAuditEvent P state.toAppState .authenticatorRegistered
          subjectId none none .success) with
      | .appended => return .registered (b64Encode outcome.credentialId)
      | .apiError e => return .refused e
      | _ => return .panicked

theorem registerAuthenticator_eq (P : Primitives) (state : AppState) (subjectId : String)
    (outcome : RegistrationOutcome) :
    registerAuthenticator P state subjectId outcome =
      .call (.insertAuthenticator (registeredColumns subjectId outcome))
        (afterInsert P state subjectId outcome) := by
  change Prog.call _ _ = _
  congr 1

/-- **A finished `registration_verify`** stopped before its first write with a
refusal, or consumed a challenge and went on to that write. -/
theorem performs_registrationVerify {L : Libraries} {state : AppState}
    {req : RegistrationVerifyRequest} {l : List IdentityAct} {a : Response}
    (h : Performs (registrationVerify L state req) l (.ret a)) :
    Stopped l a ∨
    ∃ inputs subjectId outcome r l', Registering L state req inputs outcome ∧
      l = ⟨.consumeChallenge inputs.presented "registration", .ok (some subjectId)⟩ ::
        ⟨.insertAuthenticator (registeredColumns subjectId outcome), r⟩ :: l' ∧
      Performs (afterInsert L.toPrimitives state subjectId outcome r) l' (.ret a) := by
  unfold registrationVerify at h
  cases hinputs : registrationInputs L req with
  | error e =>
      rw [hinputs] at h
      exact Or.inl (stopped_of_ret (l := []) (by simp) h)
  | ok inputs =>
      rw [hinputs] at h
      dsimp only at h
      rw [consumeChallenge_eq] at h
      obtain ⟨r, l', rfl, hrest⟩ := Performs.of_call h
      have hpre : ∀ act ∈ ([⟨.consumeChallenge inputs.presented "registration", r⟩] :
          List IdentityAct), act.op.Preliminary := by
        intro act hact
        rw [List.mem_singleton.mp hact]
        trivial
      match r, hrest, hpre with
      | .error _, hrest, hpre => exact Or.inl (stopped_of_ret hpre hrest)
      | .ok none, hrest, hpre => exact Or.inl (stopped_of_ret hpre hrest)
      | .ok (some subjectId), hrest, hpre =>
          simp only [Prog.bind, Except.map, Option.map] at hrest
          cases hchallenge : identityAssertionChallenge inputs.presented with
          | error e =>
              rw [hchallenge] at hrest
              exact Or.inl (stopped_of_ret hpre hrest)
          | ok challenge =>
              rw [hchallenge] at hrest
              dsimp only at hrest
              cases hceremony : verifyRegistrationCeremony L
                  (registrationCeremonyInput state inputs challenge) with
              | error e =>
                  rw [hceremony] at hrest
                  exact Or.inl (stopped_of_ret hpre hrest)
              | ok outcome =>
                  rw [hceremony] at hrest
                  dsimp only at hrest
                  rw [registerAuthenticator_eq] at hrest
                  obtain ⟨r', l'', rfl, hend⟩ := Performs.of_call hrest
                  exact Or.inr ⟨inputs, subjectId, outcome, r', l'',
                    ⟨hinputs, challenge, hchallenge, hceremony⟩, rfl, hend⟩

/-! ## Authentication -/

/-- What `authentication_verify` had in hand when it came to the counter. -/
structure Authenticating (L : Libraries) (state : AppState) (req : AuthenticationVerifyRequest)
    (inputs : AuthenticationInputs) (row : AuthenticatorRow) (claims : AuthenticationClaims) :
    Prop where
  decoded : authenticationInputs L req = .ok inputs
  ceremony : ∃ challenge, identityAssertionChallenge inputs.presented = .ok challenge ∧
    verifyAuthenticationCeremony L.toVerifiers L.readClientData
      (authenticationCeremonyInput state inputs row challenge) = .ok claims

/-- The end of `authentication_verify` after the answer about the counter. -/
def afterAdvance (P : Primitives) (state : AppState) (claims : AuthenticationClaims) :
    Except String Nat → IdentityProg Response
  | .error _ => return .refused .storeUnavailable
  | .ok rows =>
      if rows = 1 then issueAssertion P state claims else refuseClone P state claims

/-- **A finished `authentication_verify`** stopped before the counter with a
refusal, or consumed a challenge, found the credential and went on to the
counter. -/
theorem performs_authenticationVerify {L : Libraries} {state : AppState}
    {req : AuthenticationVerifyRequest} {l : List IdentityAct} {a : Response}
    (h : Performs (authenticationVerify L state req) l (.ret a)) :
    Stopped l a ∨
    ∃ inputs subjectId columns row claims r l',
      Authenticating L state req inputs row claims ∧ authenticatorRow columns = some row ∧
      l = ⟨.consumeChallenge inputs.presented "authentication", .ok (some subjectId)⟩ ::
        ⟨.selectAuthenticator inputs.credentialId, .ok (some columns)⟩ ::
        ⟨.advanceSignCount row.credentialId claims.newSignCount, r⟩ :: l' ∧
      Performs (afterAdvance L.toPrimitives state claims r) l' (.ret a) := by
  unfold authenticationVerify at h
  cases hinputs : authenticationInputs L req with
  | error e =>
      rw [hinputs] at h
      exact Or.inl (stopped_of_ret (l := []) (by simp) h)
  | ok inputs =>
      rw [hinputs] at h
      dsimp only at h
      rw [consumeChallenge_eq] at h
      obtain ⟨r, l', rfl, hrest⟩ := Performs.of_call h
      have hpre : ∀ act ∈ ([⟨.consumeChallenge inputs.presented "authentication", r⟩] :
          List IdentityAct), act.op.Preliminary := by
        intro act hact
        rw [List.mem_singleton.mp hact]
        trivial
      match r, hrest, hpre with
      | .error _, hrest, hpre => exact Or.inl (stopped_of_ret hpre hrest)
      | .ok none, hrest, hpre => exact Or.inl (stopped_of_ret hpre hrest)
      | .ok (some subjectId), hrest, hpre =>
          simp only [Prog.bind, Except.map, Option.map] at hrest
          rw [findAuthenticator_eq] at hrest
          obtain ⟨r', l'', rfl, hfound⟩ := Performs.of_call hrest
          have hpre' : ∀ act ∈ ([⟨.consumeChallenge inputs.presented "authentication",
              .ok (some subjectId)⟩, ⟨.selectAuthenticator inputs.credentialId, r'⟩] :
              List IdentityAct), act.op.Preliminary := by
            intro act hact
            rcases List.mem_cons.mp hact with rfl | hact
            · trivial
            · rw [List.mem_singleton.mp hact]
              trivial
          match r', hfound, hpre' with
          | .error _, hfound, hpre' => exact Or.inl (stopped_of_ret hpre' hfound)
          | .ok none, hfound, hpre' => exact Or.inl (stopped_of_ret hpre' hfound)
          | .ok (some columns), hfound, hpre' =>
              simp only [Prog.bind, Except.map, Option.bind] at hfound
              cases hrow : authenticatorRow columns with
              | none =>
                  rw [hrow] at hfound
                  exact Or.inl (stopped_of_ret hpre' hfound)
              | some row =>
              rw [hrow] at hfound
              dsimp only at hfound
              cases hchallenge : identityAssertionChallenge inputs.presented with
              | error e =>
                  rw [hchallenge] at hfound
                  exact Or.inl (stopped_of_ret hpre' hfound)
              | ok challenge =>
              rw [hchallenge] at hfound
              dsimp only at hfound
              cases hceremony : verifyAuthenticationCeremony L.toVerifiers L.readClientData
                  (authenticationCeremonyInput state inputs row challenge) with
              | error e =>
                  rw [hceremony] at hfound
                  exact Or.inl (stopped_of_ret hpre' hfound)
              | ok claims =>
              rw [hceremony] at hfound
              dsimp only at hfound
              rw [advanceSignCount_eq] at hfound
              obtain ⟨r'', l''', rfl, hend⟩ := Performs.of_call hfound
              refine Or.inr ⟨inputs, subjectId, columns, row, claims, r'', l''',
                ⟨hinputs, challenge, hchallenge, hceremony⟩, hrow, rfl, ?_⟩
              match r'', hend with
              | .error _, hend => exact hend
              | .ok rows, hend =>
                  dsimp only [afterAdvance]
                  by_cases hone : rows = 1
                  · subst hone
                    rw [if_pos rfl]
                    exact hend
                  · have hbeq : (rows == 1) = false := by simpa using hone
                    simp only [Prog.bind, Except.map, hbeq] at hend
                    rw [if_neg hone]
                    exact hend

/-! ## After the audit event -/

/-- What a handler answers once the event was to be recorded. -/
def afterAudit (success : Response) : CallResult → Response
  | .appended => success
  | .apiError e => .refused e
  | _ => .panicked

/-- The event is recorded, or the handler does not answer `success`. -/
theorem performs_afterAudit {p : Audit.AuditProg CallResult} {success a : Response}
    {l : List IdentityAct}
    (h : Performs (liftAudit p >>= fun result => .ret (afterAudit success result)) l (.ret a)) :
    ∃ result, Performs (liftAudit p) l (.ret result) ∧ a = afterAudit success result := by
  obtain ⟨result, l₁, l₂, rfl, h₁, h₂⟩ := Performs.of_bind h
  obtain ⟨rfl, rfl⟩ := Performs.of_ret h₂
  rw [List.append_nil]
  exact ⟨result, h₁, rfl⟩

theorem afterInsert_ok (P : Primitives) (state : AppState) (subjectId : String)
    (outcome : RegistrationOutcome) :
    afterInsert P state subjectId outcome (.ok ()) =
      (liftAudit (sealAndAppendAuditEvent P state.toAppState .authenticatorRegistered subjectId
        none none .success) >>= fun result =>
        .ret (afterAudit (.registered (b64Encode outcome.credentialId)) result)) := by
  change liftAudit _ >>= _ = liftAudit _ >>= _
  congr 1
  funext result
  cases result <;> rfl

theorem refuseClone_eq (P : Primitives) (state : AppState) (claims : AuthenticationClaims) :
    refuseClone P state claims =
      (liftAudit (sealAndAppendAuditEvent P state.toAppState .authenticationFailed
        claims.subjectId none (some "clonage_suspecte_compteur_concurrent") .denied) >>=
        fun result =>
          .ret (afterAudit (.refused (unauthorized "authentification_refusee")) result)) := by
  change liftAudit _ >>= _ = liftAudit _ >>= _
  congr 1
  funext result
  cases result <;> rfl

theorem recordAndReturn_eq (P : Primitives) (state : AppState) (claims : AuthenticationClaims)
    (eventId : String) (assertion : SealedAssertion) :
    recordAndReturn P state claims eventId assertion =
      (liftAudit (sealAndAppendAuditEvent P state.toAppState .authenticationSucceeded
        claims.subjectId
        (some ⟨eventId, "identity_assertion", hexEncode (assertion.digest P).val⟩) none .success)
        >>= fun result =>
          .ret (afterAudit (.authenticated (b64Encode assertion.bytes)) result)) := by
  change liftAudit _ >>= _ = liftAudit _ >>= _
  congr 1
  funext result
  cases result <;> rfl

/-- A ceremony that succeeded. -/
def Response.Success : Response → Prop
  | .registered _ => True
  | .authenticated _ => True
  | _ => False

theorem afterAudit_success {success a : Response} {result : CallResult} (ha : a.Success)
    (h : a = afterAudit success result) : result = .appended ∧ a = success := by
  subst h
  cases result with
  | appended => exact ⟨rfl, rfl⟩
  | apiError e => exact ha.elim
  | recorded _ => exact ha.elim
  | recordError _ => exact ha.elim
  | panicked => exact ha.elim

theorem not_success_of_stopped {l : List IdentityAct} {a : Response} (h : Stopped l a) :
    ¬ a.Success := by
  obtain ⟨⟨e, rfl⟩, -⟩ := h
  exact id

/-! ## Successful calls -/

/-- **What a successful registration did.** -/
theorem performs_registered {L : Libraries} {state : AppState} {req : RegistrationVerifyRequest}
    {l : List IdentityAct} {a : Response}
    (h : Performs (registrationVerify L state req) l (.ret a)) (ha : a.Success) :
    ∃ inputs subjectId outcome l', Registering L state req inputs outcome ∧
      l = ⟨.consumeChallenge inputs.presented "registration", .ok (some subjectId)⟩ ::
        ⟨.insertAuthenticator (registeredColumns subjectId outcome), .ok ()⟩ :: l' ∧
      Performs (liftAudit (sealAndAppendAuditEvent L.toPrimitives state.toAppState
        .authenticatorRegistered subjectId none none .success)) l' (.ret .appended) ∧
      a = .registered (b64Encode outcome.credentialId) := by
  rcases performs_registrationVerify h with hstop | ⟨inputs, subjectId, outcome, r, l', hreg, rfl, hend⟩
  · exact absurd ha (not_success_of_stopped hstop)
  · match r, hend with
    | .error _, hend =>
        obtain ⟨-, rfl⟩ := Performs.of_ret hend
        exact ha.elim
    | .ok (), hend =>
        rw [afterInsert_ok] at hend
        obtain ⟨result, haudit, hres⟩ := performs_afterAudit hend
        obtain ⟨rfl, rfl⟩ := afterAudit_success ha hres
        exact ⟨inputs, subjectId, outcome, l', hreg, rfl, haudit, rfl⟩

/-- What the call went through between the counter and the audit event. -/
structure Issuing (state : AppState) (claims : AuthenticationClaims) (eventId : String)
    (now : Int) (sealed_ : AssertionClaims) : Prop where
  clock : 0 ≤ now
  claims : assertionClaims state claims eventId (Audit.rfc3339FromSeconds now)
    (Audit.rfc3339FromSeconds (wrappingAdd now state.assertionTtlSeconds.toInt)) = .ok sealed_

theorem performs_issueAssertion {P : Primitives} {state : AppState}
    {claims : AuthenticationClaims} {l : List IdentityAct} {a : Response}
    (h : Performs (issueAssertion P state claims) l (.ret a)) (ha : a.Success) :
    ∃ eventId now sealed_ assertion l', Issuing state claims eventId now sealed_ ∧
      l = ⟨.audit .newV7, .ok eventId⟩ :: ⟨.audit .now, now⟩ ::
        ⟨.sealAssertion state.assertionSealer sealed_, some (.ok assertion)⟩ :: l' ∧
      Performs (liftAudit (sealAndAppendAuditEvent P state.toAppState .authenticationSucceeded
        claims.subjectId
        (some ⟨eventId, "identity_assertion", hexEncode (assertion.digest P).val⟩) none .success))
        l' (.ret .appended) ∧
      a = .authenticated (b64Encode assertion.bytes) := by
  obtain ⟨r, l', rfl, hid⟩ := Performs.of_call h
  cases r with
  | error _ =>
      obtain ⟨-, rfl⟩ := Performs.of_ret hid
      exact ha.elim
  | ok eventId =>
      change Performs (rfc3339NowAndAfter state.assertionTtlSeconds.toInt >>= _) l' _ at hid
      rw [rfc3339NowAndAfter_eq] at hid
      obtain ⟨now, l'', rfl, hnow⟩ := Performs.of_call hid
      change Int at now
      by_cases hpast : now < 0
      · simp only [if_pos hpast] at hnow
        obtain ⟨-, rfl⟩ := Performs.of_ret hnow
        exact ha.elim
      simp only [if_neg hpast, Prog.bind, Prog.pure_eq] at hnow
      cases hclaims : assertionClaims state claims eventId (Audit.rfc3339FromSeconds now)
          (Audit.rfc3339FromSeconds (wrappingAdd now state.assertionTtlSeconds.toInt)) with
      | error e =>
          rw [hclaims] at hnow
          obtain ⟨-, rfl⟩ := Performs.of_ret hnow
          exact ha.elim
      | ok sealed_ =>
          rw [hclaims] at hnow
          obtain ⟨r', l''', rfl, hseal⟩ := Performs.of_call hnow
          rcases r' with _ | _ | assertion
          · obtain ⟨-, rfl⟩ := Performs.of_ret hseal
            exact ha.elim
          · obtain ⟨-, rfl⟩ := Performs.of_ret hseal
            exact ha.elim
          · change Performs (recordAndReturn P state claims eventId assertion) l''' _ at hseal
            rw [recordAndReturn_eq] at hseal
            obtain ⟨result, haudit, hres⟩ := performs_afterAudit hseal
            obtain ⟨rfl, rfl⟩ := afterAudit_success ha hres
            exact ⟨eventId, now, sealed_, assertion, l''', ⟨by omega, hclaims⟩, rfl, haudit, rfl⟩

/-- **What a successful authentication did.** -/
theorem performs_authenticated {L : Libraries} {state : AppState}
    {req : AuthenticationVerifyRequest} {l : List IdentityAct} {a : Response}
    (h : Performs (authenticationVerify L state req) l (.ret a)) (ha : a.Success) :
    ∃ inputs subjectId columns row claims eventId now sealed_ assertion l',
      Authenticating L state req inputs row claims ∧ authenticatorRow columns = some row ∧
      Issuing state claims eventId now sealed_ ∧
      l = ⟨.consumeChallenge inputs.presented "authentication", .ok (some subjectId)⟩ ::
        ⟨.selectAuthenticator inputs.credentialId, .ok (some columns)⟩ ::
        ⟨.advanceSignCount row.credentialId claims.newSignCount, .ok 1⟩ ::
        ⟨.audit .newV7, .ok eventId⟩ :: ⟨.audit .now, now⟩ ::
        ⟨.sealAssertion state.assertionSealer sealed_, some (.ok assertion)⟩ :: l' ∧
      Performs (liftAudit (sealAndAppendAuditEvent L.toPrimitives state.toAppState
        .authenticationSucceeded claims.subjectId
        (some ⟨eventId, "identity_assertion", hexEncode (assertion.digest L.toPrimitives).val⟩)
        none .success)) l' (.ret .appended) ∧
      a = .authenticated (b64Encode assertion.bytes) := by
  rcases performs_authenticationVerify h with
    hstop | ⟨inputs, subjectId, columns, row, claims, r, l', hauth, hrow, rfl, hend⟩
  · exact absurd ha (not_success_of_stopped hstop)
  match r, hend with
  | .error _, hend =>
      obtain ⟨-, rfl⟩ := Performs.of_ret hend
      exact ha.elim
  | .ok rows, hend =>
      by_cases hone : rows = 1
      · subst hone
        change Performs (issueAssertion L.toPrimitives state claims) l' _ at hend
        obtain ⟨eventId, now, sealed_, assertion, l'', hissue, rfl, haudit, rfl⟩ :=
          performs_issueAssertion hend ha
        exact ⟨inputs, subjectId, columns, row, claims, eventId, now, sealed_, assertion, l'',
          hauth, hrow, hissue, rfl, haudit, rfl⟩
      · dsimp only [afterAdvance] at hend
        rw [if_neg hone, refuseClone_eq] at hend
        obtain ⟨result, -, hres⟩ := performs_afterAudit hend
        obtain ⟨-, rfl⟩ := afterAudit_success ha hres
        exact ha.elim

/-- Only the two verify calls have a success to return. -/
theorem call_of_success {L : Libraries} {state : AppState} {call : Call} {l : List IdentityAct}
    {a : Response} (h : Performs (call.program L state) l (.ret a)) (ha : a.Success) :
    (∃ req, call = .registrationVerify req) ∨ ∃ req, call = .authenticationVerify req := by
  have hnot : ∀ {p : IdentityProg Response}, p.Returns (fun a => ¬ a.Success) →
      ¬ Performs p l (.ret a) := fun hp h => hp.of_performs h ha
  cases call with
  | registrationChallenge subjectId =>
      refine absurd h (hnot (Prog.returns_bind (fun challenge => ?_) _))
      refine Prog.returns_bind (fun r => ?_) _
      split
      · exact id
      refine Prog.returns_bind (fun now => ?_) _
      split <;> exact id
  | registrationVerify req => exact Or.inl ⟨req, rfl⟩
  | authenticationChallenge subjectId =>
      refine absurd h (hnot (Prog.returns_bind (fun challenge => ?_) _))
      refine Prog.returns_bind (fun r => ?_) _
      split
      · exact id
      refine Prog.returns_bind (fun now => ?_) _
      split
      · exact id
      refine Prog.returns_bind (fun r => ?_) _
      split <;> exact id
  | authenticationVerify req => exact Or.inr ⟨req, rfl⟩
  | record raw =>
      refine absurd h (hnot (Prog.returns_bind (fun result => ?_) _))
      exact id

/-! ## Which operations a call can come to -/

/-- The one challenge a verify call may consume, as the kind of its own
ceremony. -/
def Call.Consumes (L : Libraries) (challenge : Bytes) (kind : String) : Call → Prop
  | .registrationVerify req => kind = "registration" ∧
      ∃ inputs, registrationInputs L req = .ok inputs ∧ inputs.presented = challenge
  | .authenticationVerify req => kind = "authentication" ∧
      ∃ inputs, authenticationInputs L req = .ok inputs ∧ inputs.presented = challenge
  | _ => False

/-- The part of a call's reach that matters: the challenges it may consume and
the authenticators it may insert. -/
def Call.May (L : Libraries) (call : Call) : IdentityOp → Prop
  | .consumeChallenge challenge kind => call.Consumes L challenge kind
  | .insertAuthenticator columns => (∃ req, call = .registrationVerify req) ∧
      ∃ subjectId outcome, columns = registeredColumns subjectId outcome
  | _ => True

section Within

variable {L : Libraries} {state : AppState}

theorem within_liftAudit {α : Type} (call : Call) (p : Audit.AuditProg α) :
    (liftAudit p).Within (call.May L) :=
  Prog.within_lift (fun _ => trivial) p

theorem within_afterAudit (call : Call) (p : Audit.AuditProg CallResult) (success : Response) :
    (liftAudit p >>= fun result => (.ret (afterAudit success result) : IdentityProg Response)).Within
      (call.May L) :=
  Prog.within_bind (within_liftAudit call p) fun _ => trivial

theorem within_issueAssertion (call : Call) (claims : AuthenticationClaims) :
    (issueAssertion L.toPrimitives state claims).Within (call.May L) := by
  unfold issueAssertion
  refine Prog.within_bind (within_liftAudit call _) fun r => ?_
  split
  · trivial
  rw [rfc3339NowAndAfter_eq]
  refine Prog.within_bind ⟨trivial, fun _ => trivial⟩ fun now => ?_
  split
  · trivial
  split
  · trivial
  refine Prog.within_bind ⟨trivial, fun _ => trivial⟩ fun r => ?_
  split
  · trivial
  · trivial
  · rw [recordAndReturn_eq]
    exact within_afterAudit call _ _

theorem within_registrationVerify (req : RegistrationVerifyRequest) :
    (registrationVerify L state req).Within (Call.May L (.registrationVerify req)) := by
  unfold registrationVerify
  split
  · trivial
  rename_i inputs hinputs
  rw [consumeChallenge_eq]
  refine Prog.within_bind ⟨⟨rfl, inputs, hinputs, rfl⟩, fun _ => trivial⟩ fun r => ?_
  split
  · trivial
  · trivial
  split
  · trivial
  split
  · trivial
  rw [registerAuthenticator_eq]
  refine ⟨⟨⟨req, rfl⟩, _, _, rfl⟩, fun r => ?_⟩
  match r with
  | .error _ => trivial
  | .ok () =>
      rw [afterInsert_ok]
      exact within_afterAudit _ _ _

theorem within_authenticationVerify (req : AuthenticationVerifyRequest) :
    (authenticationVerify L state req).Within (Call.May L (.authenticationVerify req)) := by
  unfold authenticationVerify
  split
  · trivial
  rename_i inputs hinputs
  rw [consumeChallenge_eq]
  refine Prog.within_bind ⟨⟨rfl, inputs, hinputs, rfl⟩, fun _ => trivial⟩ fun r => ?_
  split
  · trivial
  · trivial
  rw [findAuthenticator_eq]
  refine Prog.within_bind ⟨trivial, fun _ => trivial⟩ fun r => ?_
  split
  · trivial
  · trivial
  split
  · trivial
  split
  · trivial
  rw [advanceSignCount_eq]
  refine Prog.within_bind ⟨trivial, fun _ => trivial⟩ fun r => ?_
  split
  · trivial
  · rw [refuseClone_eq]
    exact within_afterAudit _ _ _
  · exact within_issueAssertion _ _

/-- **A call consumes at most the challenge it presents, under its own kind,
and only a registration inserts.** -/
theorem within_program (call : Call) : (call.program L state).Within (call.May L) := by
  cases call with
  | registrationChallenge subjectId =>
      refine Prog.within_bind ⟨trivial, fun _ => trivial⟩ fun challenge => ?_
      refine Prog.within_bind ⟨trivial, fun _ => trivial⟩ fun r => ?_
      split
      · trivial
      rw [rfc3339NowAndAfter_eq]
      refine Prog.within_bind ⟨trivial, fun _ => trivial⟩ fun now => ?_
      split <;> trivial
  | registrationVerify req => exact within_registrationVerify req
  | authenticationChallenge subjectId =>
      refine Prog.within_bind ⟨trivial, fun _ => trivial⟩ fun challenge => ?_
      refine Prog.within_bind ⟨trivial, fun _ => trivial⟩ fun r => ?_
      split
      · trivial
      rw [rfc3339NowAndAfter_eq]
      refine Prog.within_bind ⟨trivial, fun _ => trivial⟩ fun now => ?_
      split
      · trivial
      refine Prog.within_bind ⟨trivial, fun _ => trivial⟩ fun r => ?_
      split <;> trivial
  | authenticationVerify req => exact within_authenticationVerify req
  | record raw => exact Prog.within_bind (within_liftAudit _ _) fun _ => trivial

end Within

end ZeroSecret.Identity
