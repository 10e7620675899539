import ZeroSecret.Identity.Events

/-!
# An assertion and the event that covers it

What `authentication_verify` returns is put together from the request, the
row of the credential, the clock and two seals. Here the answer is read the
way its reader reads it, and compared with the tables and with what the call
did.
-/

namespace ZeroSecret.Identity

open Crypto Crypto.AuditSeal Crypto.AuthenticatorProof Webauthn Interleave
open Audit (ExplicitTarget Filled actorJson rfc3339FromSeconds)

variable {Caller : Type}

/-! ## Claims -/

/-- The claims that are sealed, text by text. -/
structure ClaimsFilled (state : AppState) (claims : AuthenticationClaims)
    (eventId now expiresAt : String) (sealed_ : IdentityAssertion.AssertionClaims) : Prop where
  subject : sealed_.subjectId.val = claims.subjectId
  level : sealed_.aal = assuranceLevel claims.aal
  issuedAt : sealed_.issuedAt.val = now
  expiresAt : sealed_.expiresAt.val = expiresAt
  eventId : sealed_.auditEventId.val = eventId

theorem claimsFilled_of_eq_ok {state : AppState} {claims : AuthenticationClaims}
    {eventId now expiresAt : String} {sealed_ : IdentityAssertion.AssertionClaims}
    (h : assertionClaims state claims eventId now expiresAt = .ok sealed_) :
    ClaimsFilled state claims eventId now expiresAt sealed_ := by
  unfold assertionClaims at h
  obtain ⟨subject, hsubject, h⟩ := Fallible.bind_eq_ok_iff.mp h
  obtain ⟨method, -, h⟩ := Fallible.bind_eq_ok_iff.mp h
  obtain ⟨audience, -, h⟩ := Fallible.bind_eq_ok_iff.mp h
  obtain ⟨issued, hissued, h⟩ := Fallible.bind_eq_ok_iff.mp h
  obtain ⟨expires, hexpires, h⟩ := Fallible.bind_eq_ok_iff.mp h
  obtain ⟨id, hid, h⟩ := Fallible.bind_eq_ok_iff.mp h
  obtain rfl := Except.ok.inj h
  exact {
    subject := BoundedAscii.val_of_new hsubject
    level := rfl
    issuedAt := Timestamp.val_of_new hissued
    expiresAt := Timestamp.val_of_new hexpires
    eventId := Audit.uuid_val_of_new hid }

/-- **The window does not wrap.** A sum that left the range of `i64` would
have no four-digit year, and its text would not have been sealed. -/
theorem wrappingAdd_eq_add {now : Int} {ttlSeconds : Int64} {issued expires : Timestamp}
    (hclock : 0 ≤ now) (hissued : issued.val = rfc3339FromSeconds now)
    (hexpires : expires.val = rfc3339FromSeconds (wrappingAdd now ttlSeconds.toInt)) :
    wrappingAdd now ttlSeconds.toInt = now + ttlSeconds.toInt := by
  have hfirst := issued.valid
  rw [hissued] at hfirst
  have hsecond := expires.valid
  rw [hexpires] at hsecond
  obtain ⟨-, hnow⟩ := range_of_timestampValid hfirst
  obtain ⟨hlow, hhigh⟩ := range_of_timestampValid hsecond
  have hmin := ttlSeconds.le_toInt
  have hmax := ttlSeconds.toInt_lt
  generalize ttlSeconds.toInt = ttl at hlow hhigh hmin hmax ⊢
  have hword : (Audit.asU64 (now + ttl)).toNat = ((now + ttl) % 2 ^ 64).toNat := by
    rw [Audit.asU64, UInt64.toNat_ofNat']
    exact Nat.mod_eq_of_lt (by omega)
  -- a wrapped sum would lie far before the year 0
  unfold wrappingAdd Audit.asI64 at hlow ⊢
  rw [hword] at hlow ⊢
  split at hlow
  · rename_i hsmall
    rw [if_pos hsmall]
    omega
  · rename_i hbig
    rw [if_neg hbig]
    omega

/-! ## The subject -/

/-- The credential is stored, for this subject. -/
def StoredFor (credentialId : Bytes) (subjectId : String) (s : IdentityDb Caller) : Prop :=
  ∃ row ∈ s.authenticators, row.credentialId = credentialId ∧ row.subjectId = subjectId

section Steps

variable {P : Primitives} {sealer : AuditSealer} {i : Caller} {op : IdentityOp}
  {s s' : IdentityDb Caller} {credentialId : Bytes}

theorem storedFor_effect {subjectId : String} (hs : StoredFor credentialId subjectId s)
    (h : Effect P sealer i s op s') : StoredFor credentialId subjectId s' := by
  obtain ⟨row, hrow, rfl, rfl⟩ := hs
  obtain ⟨row', hrow', hcont⟩ := authenticator_continues h hrow
  refine ⟨row', hrow', ?_, ?_⟩
  · rw [hcont.columns]
  · rw [hcont.columns]

theorem storedFor_of_exec {columns : AuthenticatorColumns}
    (hx : identityExec P sealer i (.selectAuthenticator credentialId) s (.ok (some columns)) s') :
    StoredFor credentialId columns.subjectId s' := by
  obtain ⟨now, hf⟩ := statement_ok hx
  obtain ⟨hfind, rfl⟩ := Prod.mk.inj (Option.some.inj hf)
  obtain ⟨row, hrow, rfl⟩ := Option.map_eq_some_iff.mp hfind
  have hfound := List.find?_some hrow
  exact ⟨row, List.mem_of_find?_eq_some hrow, eq_of_beq hfound, rfl⟩

end Steps

/-! ## The event -/

/-- A target that was given is sealed as it is. -/
theorem target_of_explicit {e : ExplicitTarget} {target : Option Target}
    (h : Audit.explicitTarget (some e) = some target) :
    target.map Target.toWire = some ⟨e.targetType, e.id⟩ := by
  unfold Audit.explicitTarget at h
  dsimp only at h
  split at h
  · rename_i targetType id htype hid
    obtain rfl := Option.some.inj h
    have hfirst : targetType.val = e.targetType := BoundedAscii.val_of_new htype
    have hsecond : id.val = e.id := BoundedAscii.val_of_new hid
    rw [Option.map_some, Target.toWire, hfirst, hsecond]
  · cases h

/-- The one event with this identifier, and what was sealed in it. -/
def CoveredBy (db : IdentityDb Caller) (i : Caller) (eventId subjectId : String) (target : WireTarget) :
    Prop :=
  ∃ event document, (db.events.filter fun row => row.eventId = eventId) = [event] ∧
    event.owner = i ∧ event.eventType = "authentication.succeeded" ∧
    event.actor = actorJson subjectId ∧
    WireDocument.fromSlice event.sealedBytes = some document ∧ document.eventId = eventId ∧
    document.eventType = "authentication.succeeded" ∧ document.target = some target ∧
    document.actor.subjectId = subjectId

section Runs

variable [DecidableEq Caller] {L : Libraries} {sealer : AuditSealer} {start : Int}
  {state : AppState} {calls : Caller → Call} {h : List (Executed Caller IdentityOp.Resp)}
  {c : Config (identityWorld Caller L.toPrimitives sealer start) Response} {i : Caller}

theorem coveredBy_of_appended
    (hc : History (identityWorld Caller L.toPrimitives sealer start) (Serves L state calls) h c)
    {subjectId : String} {e : ExplicitTarget} {l : List IdentityAct}
    (hl : ∀ act ∈ l, act ∈ ownActs i h)
    (hperf : Performs (liftAudit (Audit.sealAndAppendAuditEvent L.toPrimitives state.toAppState
      .authenticationSucceeded subjectId (some e) none .success)) l (.ret .appended)) :
    CoveredBy c.state i e.eventId subjectId ⟨e.targetType, e.id⟩ := by
  obtain ⟨head, eventId, fields, hsm, sealedBytes, insertedAt, hfilled, hseal, hevent⟩ :=
    exists_event_of_appended hc hl hperf
  obtain rfl := hfilled.explicitId e rfl
  obtain ⟨-, -, signature, -, rfl⟩ := AuditSeal.seal_eq_ok hseal
  refine ⟨_, _, (eventsOk_history hc).filter_eq hevent, rfl, rfl, rfl,
    fromSlice_sealed fields _ signature, hfilled.eventId, ?_, target_of_explicit hfilled.target,
    hfilled.subject⟩
  change fields.eventType.asContractStr = _
  rw [hfilled.eventType]
  rfl

/-! ## The answer -/

/-- What holds of the octets and the document of a returned assertion, for
the values `inputs` that the request carried. -/
structure IssuedAssertion (L : Libraries) (state : AppState) (calls : Caller → Call)
    (h : List (Executed Caller IdentityOp.Resp)) (db : IdentityDb Caller) (i : Caller)
    (inputs : AuthenticationInputs) (bytes : Bytes) (document : IdentityAssertion.WireDocument) :
    Prop where
  request : ∃ req, calls i = .authenticationVerify req ∧ authenticationInputs L req = .ok inputs
  covered : CoveredBy db i document.auditEventId document.subjectId
    ⟨"identity_assertion", hexEncode (L.sha256 bytes).val⟩
  subject : StoredFor inputs.credentialId document.subjectId db
  signed : ∃ row challenge, row.credentialId = inputs.credentialId ∧
    Proven L.toVerifiers (authenticationCeremonyInput state inputs row challenge)
  level : ∃ parsed, parseAssertionAuthData inputs.authenticatorData = .ok parsed ∧
    document.aal = if parsed.flags &&& flagUserVerified ≠ 0 then "AAL2" else "AAL1"
  window : ∃ before count eventId now after, ownActs i h =
      before ++ ⟨.advanceSignCount inputs.credentialId count, .ok 1⟩ ::
        ⟨.audit .newV7, .ok eventId⟩ :: ⟨.audit .now, now⟩ :: after ∧
    document.issuedAt = rfc3339FromSeconds now ∧
    document.expiresAt = rfc3339FromSeconds (now + state.assertionTtlSeconds.toInt)

theorem asStr_assuranceLevel (flags : UInt8) :
    (assuranceLevel (aalOf flags)).asStr =
      if flags &&& flagUserVerified ≠ 0 then "AAL2" else "AAL1" := by
  unfold aalOf
  by_cases huv : flags &&& flagUserVerified ≠ 0
  · rw [if_pos huv, if_pos huv]
    rfl
  · rw [if_neg huv, if_neg huv]
    rfl

/-- What a call that returned an assertion went through, and how its document reads. -/
theorem performed_of_authenticated
    (hc : History (identityWorld Caller L.toPrimitives sealer start) (Serves L state calls) h c)
    {assertion : String} (hret : c.procs i = some (.ret (.authenticated assertion))) :
    ∃ req inputs challengeSubject columns row claims eventId now sealed_ sealedAssertion signature l,
      calls i = .authenticationVerify req ∧
      Authenticating L state req inputs row claims ∧ authenticatorRow columns = some row ∧
      Issuing state claims eventId now sealed_ ∧
      ownActs i h =
        ⟨.consumeChallenge inputs.presented "authentication", .ok (some challengeSubject)⟩ ::
        ⟨.selectAuthenticator inputs.credentialId, .ok (some columns)⟩ ::
        ⟨.advanceSignCount row.credentialId claims.newSignCount, .ok 1⟩ ::
        ⟨.audit .newV7, .ok eventId⟩ :: ⟨.audit .now, now⟩ ::
        ⟨.sealAssertion state.assertionSealer sealed_, some (.ok sealedAssertion)⟩ :: l ∧
      Performs (liftAudit (Audit.sealAndAppendAuditEvent L.toPrimitives state.toAppState
        .authenticationSucceeded claims.subjectId
        (some ⟨eventId, "identity_assertion",
          hexEncode (sealedAssertion.digest L.toPrimitives).val⟩)
        none .success)) l (.ret .appended) ∧
      assertion = b64Encode sealedAssertion.bytes ∧
      IdentityAssertion.WireDocument.fromSlice sealedAssertion.bytes =
        some (sealed_.toWire state.assertionSealer.keyId signature) := by
  have hperf := performs_program hc hret
  obtain ⟨req, hcall⟩ : ∃ req, calls i = .authenticationVerify req := by
    rcases call_of_success hperf trivial with ⟨req, hcall⟩ | hreq
    · -- a registration has no assertion to return
      rw [hcall] at hperf
      obtain ⟨_, _, _, _, _, _, _, ha⟩ := performs_registered hperf trivial
      cases ha
    · exact hreq
  rw [hcall] at hperf
  obtain ⟨inputs, challengeSubject, columns, row, claims, eventId, now, sealed_, sealedAssertion, l,
    hauth, hrow, hissuing, hacts, haudit, ha⟩ := performs_authenticated hperf trivial
  have hsealed : (⟨.sealAssertion state.assertionSealer sealed_, some (.ok sealedAssertion)⟩ :
      IdentityAct) ∈ ownActs i h := by
    rw [hacts]
    simp
  obtain ⟨hsm, hseal⟩ : ∃ hsm, state.assertionSealer.seal L.toPrimitives hsm sealed_ =
      .ok sealedAssertion := by
    obtain ⟨-, t, u, -, -, -, hans⟩ := hc.executes.exists_exec (mem_of_mem_ownActs hsealed)
    rcases hans with hnone | ⟨hsm, hsome⟩
    · cases hnone
    · exact ⟨hsm, (Option.some.inj hsome).symm⟩
  obtain ⟨signature, hread⟩ := IdentityAssertion.fromSlice_of_seal hseal
  exact ⟨req, inputs, challengeSubject, columns, row, claims, eventId, now, sealed_, sealedAssertion,
    signature, l, hcall, hauth, hrow, hissuing, hacts, haudit, Response.authenticated.inj ha, hread⟩

/-- The row that was read stands, for its subject. -/
theorem storedFor_of_selected
    (hc : History (identityWorld Caller L.toPrimitives sealer start) (Serves L state calls) h c)
    {credentialId : Bytes} {columns : AuthenticatorColumns}
    (hselected : (⟨.selectAuthenticator credentialId, .ok (some columns)⟩ : IdentityAct) ∈
      ownActs i h) : StoredFor credentialId columns.subjectId c.state :=
  execution_of_mem storedFor_effect (mem_of_mem_ownActs hselected) storedFor_of_exec hc.executes

theorem subjectId_of_authenticatorRow {columns : AuthenticatorColumns} {row : AuthenticatorRow}
    (h : authenticatorRow columns = some row) : row.subjectId = columns.subjectId := by
  obtain ⟨algorithm, -, rfl⟩ := Option.map_eq_some_iff.mp h
  rfl

/-- **Every assertion that is returned is covered by its event**, speaks for
the subject of the credential presented at the level of the flag that was
signed, and is valid from the clock reading after the counter on. -/
theorem issued_assertion_covered
    (hc : History (identityWorld Caller L.toPrimitives sealer start) (Serves L state calls) h c)
    {assertion : String} (hret : c.procs i = some (.ret (.authenticated assertion))) :
    ∃ inputs bytes document, Base64.decodeUrl assertion = some bytes ∧
      IdentityAssertion.WireDocument.fromSlice bytes = some document ∧
      IssuedAssertion L state calls h c.state i inputs bytes document := by
  obtain ⟨req, inputs, challengeSubject, columns, row, claims, eventId, now, sealed_,
    sealedAssertion, signature, l, hcall, hauth, hrow, hissuing, hacts, haudit, rfl, hread⟩ :=
    performed_of_authenticated hc hret
  have hselected : (⟨.selectAuthenticator inputs.credentialId, .ok (some columns)⟩ :
      IdentityAct) ∈ ownActs i h := by
    rw [hacts]
    simp
  have hrest : ∀ act ∈ l, act ∈ ownActs i h := by
    intro act hact
    rw [hacts]
    simp [hact]
  have hid := credentialId_of_selected hc hselected hrow
  -- what the ceremony established
  obtain ⟨challenge, -, hceremony⟩ := hauth.ceremony
  obtain ⟨parsed, hpresented, hproven, rfl⟩ := verifyAuthenticationCeremony_eq_ok_iff.mp hceremony
  -- what was sealed
  have hfilled := claimsFilled_of_eq_ok hissuing.claims
  have hsubject : sealed_.subjectId.val = row.subjectId := hfilled.subject
  refine ⟨inputs, sealedAssertion.bytes, _, Base64.decodeUrl_encodeUrl _, hread, ?_⟩
  constructor
  · exact ⟨req, hcall, hauth.decoded⟩
  · have hcovered := coveredBy_of_appended hc hrest haudit
    change CoveredBy c.state i sealed_.auditEventId.val sealed_.subjectId.val _
    rw [hfilled.eventId, hsubject]
    exact hcovered
  · change StoredFor inputs.credentialId sealed_.subjectId.val c.state
    rw [hsubject, subjectId_of_authenticatorRow hrow]
    exact storedFor_of_selected hc hselected
  · exact ⟨row, challenge, hid, hproven⟩
  · refine ⟨parsed, hpresented.authData, ?_⟩
    change sealed_.aal.asStr = _
    rw [hfilled.level]
    exact asStr_assuranceLevel parsed.flags
  · refine ⟨[⟨.consumeChallenge inputs.presented "authentication", .ok (some challengeSubject)⟩,
      ⟨.selectAuthenticator inputs.credentialId, .ok (some columns)⟩], parsed.signCount, eventId, now,
      ⟨.sealAssertion state.assertionSealer sealed_, some (.ok sealedAssertion)⟩ :: l, ?_,
      hfilled.issuedAt, ?_⟩
    · rw [hacts, hid]
      rfl
    · have hsum := wrappingAdd_eq_add hissuing.clock hfilled.issuedAt hfilled.expiresAt
      rw [← hsum]
      exact hfilled.expiresAt

end Runs

/-- The login of alice. -/
theorem issued_assertion_covered_alice :
    ∃ h c assertion, History sampleWorld (Serves .standard sampleState countingCalls) h c ∧
      c.procs 3 = some (.ret (.authenticated assertion)) ∧
      ∃ inputs bytes document, Base64.decodeUrl assertion = some bytes ∧
        IdentityAssertion.WireDocument.fromSlice bytes = some document ∧
        IssuedAssertion .standard sampleState countingCalls h c.state 3 inputs bytes document := by
  obtain ⟨h, c, hc, -, hprocs, -⟩ := sample_history countingCalls 4
  obtain ⟨assertion, hresult⟩ := countingCalls_loggedIn
  have hthree : c.procs 3 = some (.ret (.authenticated assertion)) := by
    rw [hprocs, ← hresult]
    rfl
  exact ⟨h, c, assertion, hc, hthree, issued_assertion_covered hc hthree⟩

end ZeroSecret.Identity
