import ZeroSecret.Base.Relabelling
import ZeroSecret.Console.Custody

/-!
# Assertions are opaque to the console

The console relays assertions and never looks into them. Let every assertion be
replaced by another one, in what identity-provider answers, in the store and in
what is sent on: the same run takes place, and the browsers get the same
responses.
-/

namespace ZeroSecret.Console

/-! ## The store -/

section
variable (ρ : Bytes → Bytes)

/-- The data with its assertion replaced. -/
def SessionData.conceal (data : SessionData) : SessionData :=
  { data with identityAssertion := ρ data.identityAssertion }

def StoredSession.conceal (session : StoredSession) : StoredSession :=
  { session.toSessionData.conceal ρ with id := session.id }

def SessionStore.conceal (sessions : SessionStore) : SessionStore :=
  ScriptMap.mapValues (StoredSession.conceal ρ) sessions

theorem create_conceal (sessions : SessionStore) (data : SessionData) (random : Random32) :
    ((sessions.conceal ρ).create (data.conceal ρ) random).2 =
      SessionStore.conceal ρ (sessions.create data random).2 :=
  ScriptMap.set_mapValues (StoredSession.conceal ρ) sessions (Base64.urlUnits random)
    { data with id := Base64.urlUnits random }

variable (fromBase64url : CodeUnits → Bytes)

theorem lookup_conceal (sessions : SessionStore) (id : CodeUnits) :
    (sessions.conceal ρ).lookupConstantTime fromBase64url id =
      (sessions.lookupConstantTime fromBase64url id).map (StoredSession.conceal ρ) := by
  unfold SessionStore.lookupConstantTime
  dsimp only
  split
  · rfl
  · rw [SessionStore.conceal, ScriptMap.values_mapValues, List.find?_map]
    rfl

theorem destroy_conceal (sessions : SessionStore) (id : CodeUnits) :
    (sessions.conceal ρ).destroy fromBase64url id =
      SessionStore.conceal ρ (sessions.destroy fromBase64url id) := by
  rw [SessionStore.destroy, SessionStore.destroy, lookup_conceal]
  cases sessions.lookupConstantTime fromBase64url id with
  | none => rfl
  | some found => exact ScriptMap.delete_mapValues (StoredSession.conceal ρ) sessions found.id

theorem get_conceal (sessions : SessionStore) (id : CodeUnits) (now : Number) :
    (sessions.conceal ρ).get fromBase64url id now =
      (((sessions.get fromBase64url id now).1.map (StoredSession.conceal ρ)),
        SessionStore.conceal ρ (sessions.get fromBase64url id now).2) := by
  rw [SessionStore.get, SessionStore.get, lookup_conceal]
  cases sessions.lookupConstantTime fromBase64url id with
  | none => rfl
  | some found =>
      by_cases hexpired : found.expiresAt ≤ now
      · have hdelete := ScriptMap.delete_mapValues (StoredSession.conceal ρ) sessions found.id
        simp only [Option.map_some, StoredSession.conceal, SessionData.conceal, if_pos hexpired]
        exact congrArg (Prod.mk none) hdelete
      · simp only [Option.map_some, StoredSession.conceal, SessionData.conceal, if_neg hexpired]

theorem sweepLoop_conceal (now : Number) (visited : List (CodeUnits × StoredSession))
    (sessions : SessionStore) (removed : Nat) :
    SessionStore.sweepLoop now (visited.map fun e => (e.1, e.2.conceal ρ)) (sessions.conceal ρ)
        removed =
      ((SessionStore.sweepLoop now visited sessions removed).1,
        SessionStore.conceal ρ (SessionStore.sweepLoop now visited sessions removed).2) := by
  induction visited generalizing sessions removed with
  | nil => rfl
  | cons e visited ih =>
      obtain ⟨id, session⟩ := e
      have hdelete : (sessions.conceal ρ).delete id = SessionStore.conceal ρ (sessions.delete id) :=
        ScriptMap.delete_mapValues (StoredSession.conceal ρ) sessions id
      rw [List.map_cons, SessionStore.sweepLoop, SessionStore.sweepLoop]
      by_cases hexpired : session.expiresAt ≤ now
      · have hsame : (session.conceal ρ).expiresAt ≤ now := hexpired
        rw [if_pos hsame, if_pos hexpired, hdelete]
        exact ih _ _
      · have hsame : ¬ (session.conceal ρ).expiresAt ≤ now := hexpired
        rw [if_neg hsame, if_neg hexpired]
        exact ih _ _

theorem sweepExpired_conceal (sessions : SessionStore) (now : Number) :
    (sessions.conceal ρ).sweepExpired now =
      ((sessions.sweepExpired now).1, SessionStore.conceal ρ (sessions.sweepExpired now).2) :=
  sweepLoop_conceal ρ now sessions.entries sessions 0

end

namespace Server

open Interleave

/-! ## Requests and answers -/

section
variable (platform : Platform) (ρ : Bytes → Bytes)

/-- The header of a replaced assertion. -/
def concealHeader (header : CodeUnits) : CodeUnits := base64Units (ρ (Base64.lenient header))

def concealRequest (ask : HttpRequest) : HttpRequest :=
  { ask with identityAssertion := ask.identityAssertion.map (concealHeader ρ) }

/-- The object with one more member, which then counts. -/
def withMember (json : JsonValue) (name : String) (value : JsonValue) : JsonValue :=
  match json with
  | .object members => .object (members ++ [(CodeUnits.ofString name, value)])
  | json => json

/-- The answer with the assertion it brings replaced. -/
def concealAnswer (answer : Option HttpAnswer) : Option HttpAnswer :=
  match assertionOf platform answer with
  | .error _ => answer
  | .ok bytes => answer.map fun a =>
      { a with json := some (withMember a.body "assertion" (urlField (ρ bytes))) }

/-- Asked for an assertion: a login. -/
def asksForAssertion (ask : HttpRequest) : Bool :=
  ask.identityAssertion = none ∧ ask.path = CodeUnits.ofString "/v1/webauthn/authentication/verify"

/-- Every assertion replaced. -/
def concealing : Relabelling ServerOp.Resp where
  op
    | .create data => .create (data.conceal ρ)
    | .fetch ask => .fetch (concealRequest ρ ask)
    | op => op
  answer
    | .create _, random => random
    | .fetch ask, answer => if asksForAssertion ask then concealAnswer platform ρ answer else answer
    | .get _ _, found => found.map (SessionData.conceal ρ)
    | .now, now => now
    | .destroy _, done => done
    | .sweepExpired _, removed => removed
    | .readFile _, data => data

end

variable {platform : Platform} {ρ : Bytes → Bytes}

theorem memberOf_append_self (members : List (CodeUnits × JsonValue)) (name : String)
    (value : JsonValue) :
    memberOf (members ++ [(CodeUnits.ofString name, value)]) name = some value := by
  simp [memberOf]

/-- What is answered brings an assertion in its member. -/
theorem assertionOf_eq_ok_iff {answer : Option HttpAnswer} {bytes : Bytes} :
    assertionOf platform answer = .ok bytes ↔
      ∃ a members, answer = some a ∧ a.ok = true ∧ a.body = .object members ∧
        b64urlDecode platform (memberOf members "assertion") = .ok bytes := by
  constructor
  · intro h
    obtain ⟨json, hposted, h⟩ := Fallible.bind_eq_ok_iff.mp h
    obtain ⟨assertion, hmember, h⟩ := Fallible.bind_eq_ok_iff.mp h
    cases answer with
    | none => cases hposted
    | some a =>
        rw [posted] at hposted
        split at hposted
        · rename_i hok
          obtain rfl := Except.ok.inj hposted
          generalize hbody : a.body = body at hmember
          cases body with
          | object members =>
              obtain rfl := Except.ok.inj hmember
              exact ⟨a, members, rfl, hok, hbody, h⟩
          | null => cases hmember
          | bool | number | string | array =>
              obtain rfl := Except.ok.inj hmember
              cases h
        · obtain ⟨reason, -, hposted⟩ := Fallible.bind_eq_ok_iff.mp hposted
          cases hposted
  · rintro ⟨a, members, rfl, hok, hbody, hdecode⟩
    refine Fallible.bind_eq_ok_iff.mpr ⟨a.body, if_pos hok, ?_⟩
    rw [hbody]
    exact hdecode

/-- The replaced answer brings the replaced assertion. -/
theorem assertionOf_concealAnswer (answer : Option HttpAnswer) :
    assertionOf platform (concealAnswer platform ρ answer) =
      (assertionOf platform answer).map ρ := by
  unfold concealAnswer
  cases hassertion : assertionOf platform answer with
  | error err => exact hassertion
  | ok bytes =>
      obtain ⟨a, members, rfl, hok, hbody, -⟩ := assertionOf_eq_ok_iff.mp hassertion
      refine assertionOf_eq_ok_iff.mpr ⟨_, members ++ [(CodeUnits.ofString "assertion",
        urlField (ρ bytes))], rfl, hok, ?_, ?_⟩
      · change withMember a.body "assertion" (urlField (ρ bytes)) = _
        rw [hbody]
        rfl
      · rw [memberOf_append_self]
        exact congrArg Except.ok (Base64.lenient_urlUnits (ρ bytes))

theorem lenient_base64Units (bytes : Bytes) : Base64.lenient (base64Units bytes) = bytes := by
  rw [base64Units_eq]
  exact Base64.lenient_digits bytes _

theorem concealHeader_base64Units (bytes : Bytes) :
    concealHeader ρ (base64Units bytes) = base64Units (ρ bytes) := by
  rw [concealHeader, lenient_base64Units]

/-! ## The world -/

theorem answers_conceal {sessions : SessionStore} {op : ServerOp} {answer : op.Resp}
    (h : Answers sessions op answer) :
    Answers (sessions.conceal ρ) ((concealing platform ρ).op op)
      ((concealing platform ρ).answer op answer) := by
  cases op with
  | get id now =>
      change Option.map (SessionData.conceal ρ) answer =
        (SessionStore.get Base64.lenient (sessions.conceal ρ) id now).1.map (·.toSessionData)
      have hanswer : answer = (sessions.get Base64.lenient id now).1.map (·.toSessionData) := h
      rw [hanswer, get_conceal, Option.map_map, Option.map_map]
      rfl
  | sweepExpired now =>
      have hanswer : answer = (sessions.sweepExpired now).1 := h
      change answer = ((sessions.conceal ρ).sweepExpired now).1
      rw [hanswer, sweepExpired_conceal]
  | now | create | destroy | fetch | readFile => trivial

theorem after_conceal (sessions : SessionStore) (op : ServerOp) (answer : op.Resp) :
    after (sessions.conceal ρ) ((concealing platform ρ).op op)
        ((concealing platform ρ).answer op answer) =
      SessionStore.conceal ρ (after sessions op answer) := by
  cases op with
  | create data => exact create_conceal ρ sessions data answer
  | get id now => exact congrArg Prod.snd (get_conceal ρ Base64.lenient sessions id now)
  | destroy id => exact destroy_conceal ρ Base64.lenient sessions id
  | sweepExpired now => exact congrArg Prod.snd (sweepExpired_conceal ρ sessions now)
  | now | fetch | readFile => rfl

theorem follows_concealing (Caller : Type) :
    (concealing platform ρ).Follows (serverWorld Caller) (SessionStore.conceal ρ) where
  init := rfl
  exec := by
    rintro i op sessions answer sessions' ⟨hanswers, rfl⟩
    exact ⟨answers_conceal hanswers, (after_conceal sessions op answer).symm⟩

/-! ## The programs -/

/-- A program and itself, the assertions replaced. -/
abbrev Mirrored {α β : Type} (platform : Platform) (ρ : Bytes → Bytes) (R : α → β → Prop)
    (p : ServerProg α) (q : ServerProg β) : Prop :=
  (concealing platform ρ).Mirrors R p q

/-- What a `try` came to, with the value replaced. -/
def ConcealedBy {κ α : Type} (g : α → α) (x y : Except Failure (κ × α)) : Prop :=
  y = x.map fun p => (p.1, g p.2)

theorem mirrored_getSession (id : CodeUnits) :
    Mirrored platform ρ (fun x y => y = x.map (SessionData.conceal ρ)) (getSession id)
      (getSession id) :=
  Relabelling.Mirrors.call ServerOp.now fun now =>
    Relabelling.Mirrors.call (ServerOp.get id now) fun _ => .ret rfl

theorem mirrored_requireSession (request : Request) :
    Mirrored platform ρ (fun x y => y = x.map (SessionData.conceal ρ)) (requireSession request)
      (requireSession request) := by
  unfold requireSession
  cases sessionIdOf request with
  | none => exact .ret rfl
  | some id => exact mirrored_getSession id

/-- A request whose answer is read the same way, up to `g`. -/
theorem mirrored_attempt {κ α : Type} {ask ask' : Except Failure (κ × HttpRequest)}
    {result : Option HttpAnswer → Except Failure α} (g : α → α)
    (hask : ask' = ask.map fun p => (p.1, concealRequest ρ p.2))
    (hresult : ∀ kept a, ask = .ok (kept, a) → ∀ answer,
      result (if asksForAssertion a then concealAnswer platform ρ answer else answer) =
        (result answer).map g) :
    Mirrored platform ρ (ConcealedBy g) (attempt ask result) (attempt ask' result) := by
  subst hask
  cases ask with
  | error err => exact .ret rfl
  | ok asked =>
      obtain ⟨kept, a⟩ := asked
      refine Relabelling.Mirrors.call (ServerOp.fetch a) fun answer => .ret ?_
      change (result (if asksForAssertion a then concealAnswer platform ρ answer else answer)).map
        (Prod.mk kept) = ((result answer).map (Prod.mk kept)).map fun p => (p.1, g p.2)
      rw [hresult kept a rfl answer]
      cases result answer with
      | error err => rfl
      | ok value => rfl

theorem map_id_except {α : Type} (x : Except Failure α) : x.map id = x := by
  cases x with
  | error err => rfl
  | ok a => rfl

/-- Nothing to replace: no assertion goes out, and none is asked for. -/
theorem mirrored_attempt_bare {κ α : Type} {ask : Except Failure (κ × HttpRequest)}
    {result : Option HttpAnswer → Except Failure α} (hbare : Fallible.OkOnly Bare ask)
    (hpath : ∀ kept a, ask = .ok (kept, a) → asksForAssertion a = false) :
    Mirrored platform ρ (ConcealedBy id) (attempt ask result) (attempt ask result) := by
  apply mirrored_attempt
  · cases ask with
    | error err => rfl
    | ok asked =>
        obtain ⟨kept, service, path, assertion, body⟩ := asked
        obtain ⟨-, hnone⟩ := hbare _ rfl
        obtain rfl : assertion = none := hnone
        rfl
  · intro kept a ha answer
    rw [hpath kept a ha, if_neg Bool.false_ne_true]
    exact (map_id_except _).symm

theorem mirrored_handleJson {κ α : Type} {ask : Except Failure (κ × HttpRequest)}
    {result : Option HttpAnswer → Except Failure α} {json : κ → α → JsonValue}
    (hbare : Fallible.OkOnly Bare ask)
    (hpath : ∀ kept a, ask = .ok (kept, a) → asksForAssertion a = false) :
    Mirrored platform ρ Eq (handleJson ask result json) (handleJson ask result json) := by
  apply (mirrored_attempt_bare hbare hpath).bind
  rintro x y rfl
  cases x with
  | error err => exact .ret rfl
  | ok outcome => exact .ret rfl

theorem not_asks_challenge {path : String} {request : Request}
    (hpath : CodeUnits.ofString path ≠ CodeUnits.ofString "/v1/webauthn/authentication/verify")
    (subjectId : CodeUnits) (ask : HttpRequest)
    (h : challengeRequest path request = .ok (subjectId, ask)) : asksForAssertion ask = false := by
  obtain ⟨body, -, h⟩ := Fallible.bind_eq_ok_iff.mp h
  obtain ⟨subject, -, h⟩ := Fallible.bind_eq_ok_iff.mp h
  rw [← (Prod.mk.inj (Except.ok.inj h)).2]
  exact decide_eq_false fun hasks => hpath hasks.2

theorem not_asks_attestation {request : Request} (kept : Unit) (ask : HttpRequest)
    (h : attestation request = .ok (kept, ask)) : asksForAssertion ask = false := by
  obtain ⟨body, -, h⟩ := Fallible.bind_eq_ok_iff.mp h
  obtain ⟨clientDataJson, -, h⟩ := Fallible.bind_eq_ok_iff.mp h
  obtain ⟨attestationObject, -, h⟩ := Fallible.bind_eq_ok_iff.mp h
  rw [← (Prod.mk.inj (Except.ok.inj h)).2]
  have hpath : CodeUnits.ofString "/v1/webauthn/registration/verify" ≠
      CodeUnits.ofString "/v1/webauthn/authentication/verify" := by decide +kernel
  exact decide_eq_false fun hasks => hpath hasks.2

theorem asks_verification {request : Request} (subjectId : CodeUnits) (ask : HttpRequest)
    (h : verification request = .ok (subjectId, ask)) :
    asksForAssertion ask = true ∧ concealRequest ρ ask = ask := by
  obtain ⟨body, -, h⟩ := Fallible.bind_eq_ok_iff.mp h
  obtain ⟨subject, -, h⟩ := Fallible.bind_eq_ok_iff.mp h
  obtain ⟨credentialId, -, h⟩ := Fallible.bind_eq_ok_iff.mp h
  obtain ⟨clientDataJson, -, h⟩ := Fallible.bind_eq_ok_iff.mp h
  obtain ⟨authenticatorData, -, h⟩ := Fallible.bind_eq_ok_iff.mp h
  obtain ⟨signature, -, h⟩ := Fallible.bind_eq_ok_iff.mp h
  rw [← (Prod.mk.inj (Except.ok.inj h)).2]
  exact ⟨decide_eq_true ⟨rfl, rfl⟩, rfl⟩

theorem mirrored_handleAuthenticationVerify (config : ServerConfig) (request : Request) :
    Mirrored platform ρ Eq (handleAuthenticationVerify platform config request)
      (handleAuthenticationVerify platform config request) := by
  have hattempt : Mirrored platform ρ (ConcealedBy ρ)
      (attempt (verification request) (assertionOf platform))
      (attempt (verification request) (assertionOf platform)) := by
    apply mirrored_attempt
    · cases hverify : verification request with
      | error err => rfl
      | ok asked =>
          obtain ⟨subjectId, ask⟩ := asked
          have hsame := (asks_verification (ρ := ρ) subjectId ask hverify).2
          change _ = Except.ok (subjectId, concealRequest ρ ask)
          rw [hsame]
    · intro subjectId ask hverify answer
      rw [(asks_verification (ρ := ρ) subjectId ask hverify).1]
      exact assertionOf_concealAnswer answer
  apply hattempt.bind
  rintro x y rfl
  cases x with
  | error err => exact .ret rfl
  | ok outcome =>
      obtain ⟨subjectId, identityAssertion⟩ := outcome
      refine Relabelling.Mirrors.call ServerOp.now fun now => ?_
      exact Relabelling.Mirrors.call
        (ServerOp.create ⟨subjectId, identityAssertion, config.expiresAt now⟩) fun _ => .ret rfl

/-! ### Requests under an assertion -/

/-- The rest of a block replaces what is returned. -/
theorem bind_eq_map_bind {α β : Type} {m : Except Failure α} {f f' : α → Except Failure β}
    {g : β → β} (h : ∀ a, f' a = (f a).map g) : (m >>= f') = (m >>= f).map g := by
  cases m with
  | error err => rfl
  | ok a => exact h a

theorem accessRequest_conceal (config : ServerConfig) (assertion : Bytes) (request : Request) :
    accessRequest config (ρ assertion) request =
      (accessRequest config assertion request).map fun p => (p.1, concealRequest ρ p.2) := by
  unfold accessRequest
  apply bind_eq_map_bind
  intro body
  apply bind_eq_map_bind
  intro verb
  apply bind_eq_map_bind
  intro type
  apply bind_eq_map_bind
  intro id
  apply bind_eq_map_bind
  intro authorityDomain
  apply bind_eq_map_bind
  intro justification
  apply bind_eq_map_bind
  intro ticketRef
  rw [← concealHeader_base64Units]
  rfl

theorem quorumRequest_conceal (assertion : Bytes) (request : Request) :
    quorumRequest platform (ρ assertion) request =
      (quorumRequest platform assertion request).map fun p => (p.1, concealRequest ρ p.2) := by
  unfold quorumRequest
  apply bind_eq_map_bind
  intro body
  apply bind_eq_map_bind
  intro operationId
  apply bind_eq_map_bind
  intro thresholdRaw
  apply bind_eq_map_bind
  intro _
  apply bind_eq_map_bind
  intro block
  apply bind_eq_map_bind
  intro assertions
  apply bind_eq_map_bind
  intro authorityDomain
  apply bind_eq_map_bind
  intro encoded
  rw [← concealHeader_base64Units]
  rfl

/-- A request under an assertion; its answer is left as it is. -/
theorem mirrored_attempt_under {κ α : Type} {ask ask' : Except Failure (κ × HttpRequest)}
    {result : Option HttpAnswer → Except Failure α}
    (hask : ask' = ask.map fun p => (p.1, concealRequest ρ p.2))
    (hunder : ∀ kept a, ask = .ok (kept, a) → a.identityAssertion ≠ none) :
    Mirrored platform ρ (ConcealedBy id) (attempt ask result) (attempt ask' result) := by
  apply mirrored_attempt id hask
  intro kept a ha answer
  have hasks : asksForAssertion a = false := decide_eq_false fun h => hunder kept a ha h.1
  rw [hasks, if_neg Bool.false_ne_true]
  exact (map_id_except _).symm

theorem mirrored_accessRefusal (id : CodeUnits) (err : Failure) :
    Mirrored platform ρ Eq (accessRefusal id err) (accessRefusal id err) := by
  cases err with
  | accessBrokerAuthError reason =>
      exact Relabelling.Mirrors.call (ServerOp.destroy id) fun _ => .ret rfl
  | badRequest | identityProviderError | adminApiError | other => exact .ret rfl

theorem mirrored_handleAccessRequestSubmit (config : ServerConfig) (request : Request) :
    Mirrored platform ρ Eq (handleAccessRequestSubmit config request)
      (handleAccessRequestSubmit config request) := by
  unfold handleAccessRequestSubmit
  cases sessionIdOf request with
  | none => exact .ret rfl
  | some id =>
      apply (mirrored_getSession id).bind
      rintro found found' rfl
      cases found with
      | none => exact .ret rfl
      | some session =>
          apply (mirrored_attempt_under (accessRequest_conceal config _ request) ?_).bind
          · rintro x y rfl
            cases x with
            | error err => exact mirrored_accessRefusal id err
            | ok outcome => exact .ret rfl
          · intro kept a ha hnone
            have hheader := accessRequest_header ha
            rw [hnone] at hheader
            cases hheader

theorem mirrored_handleQuorumSubmit (request : Request) :
    Mirrored platform ρ Eq (handleQuorumSubmit platform request)
      (handleQuorumSubmit platform request) := by
  apply (mirrored_requireSession request).bind
  rintro found found' rfl
  cases found with
  | none => exact .ret rfl
  | some session =>
      apply (mirrored_attempt_under (quorumRequest_conceal _ request) ?_).bind
      · rintro x y rfl
        cases x with
        | error err => exact .ret rfl
        | ok outcome => exact .ret rfl
      · intro kept a ha hnone
        have hheader := quorumRequest_header ha
        rw [hnone] at hheader
        cases hheader

theorem mirrored_handlePost (config : ServerConfig) (request : Request) :
    Mirrored platform ρ Eq (handlePost platform config request)
      (handlePost platform config request) := by
  unfold handlePost
  split
  · exact mirrored_handleJson (bare_challengeRequest _) (not_asks_challenge (by decide +kernel))
  split
  · exact mirrored_handleJson bare_attestation not_asks_attestation
  split
  · exact mirrored_handleJson (bare_challengeRequest _) (not_asks_challenge (by decide +kernel))
  split
  · exact mirrored_handleAuthenticationVerify config request
  split
  · exact mirrored_handleAccessRequestSubmit config request
  split
  · exact mirrored_handleQuorumSubmit request
  split
  · unfold handleLogout
    cases sessionIdOf request with
    | none => exact .ret rfl
    | some id => exact Relabelling.Mirrors.call (ServerOp.destroy id) fun _ => .ret rfl
  · exact .ret rfl

theorem mirrored_handleGet (config : ServerConfig) (request : Request) :
    Mirrored platform ρ Eq (handleGet config request) (handleGet config request) := by
  unfold handleGet
  split
  · exact .ret rfl
  split
  · exact .ret rfl
  split
  · apply (mirrored_requireSession request).bind
    rintro found found' rfl
    cases found with
    | none => exact .ret rfl
    | some session => exact .ret rfl
  split
  · apply (mirrored_requireSession request).bind
    rintro found found' rfl
    cases found with
    | none => exact .ret rfl
    | some session => exact .ret rfl
  split
  · unfold serveStatic
    dsimp only
    split
    · exact .ret rfl
    · exact Relabelling.Mirrors.call (ServerOp.readFile _) fun _ => .ret rfl
  · exact .ret rfl

/-- Whatever moves does the same with the assertions replaced. -/
theorem mirrored_serve (config : ServerConfig) (call : Call) :
    Mirrored platform ρ Eq (serve platform config call) (serve platform config call) := by
  cases call with
  | sweep =>
      exact Relabelling.Mirrors.call ServerOp.now fun now =>
        Relabelling.Mirrors.call (ServerOp.sweepExpired now) fun _ => .ret rfl
  | request request =>
      have hhandle : Mirrored platform ρ Eq (handle platform config request)
          (handle platform config request) := by
        unfold handle
        split
        · exact .ret rfl
        split
        · exact mirrored_handleGet config request
        split
        · exact mirrored_handlePost config request
        · exact .ret rfl
      apply hhandle.bind
      rintro response response' rfl
      exact .ret rfl

/-- **The console does not look into an assertion.** Replace every assertion in a run, in
what identity-provider answers, in the store and in what is sent to the other backends: the
run takes place as well, and every browser gets the response it got. -/
theorem assertions_opaque {Caller : Type} [DecidableEq Caller] {config : ServerConfig}
    {calls : Caller → Call} {h : List (Executed Caller ServerOp.Resp)}
    {c : Config (serverWorld Caller) (Option Response)}
    (hc : History (serverWorld Caller) (Serves platform config calls) h c) (ρ : Bytes → Bytes) :
    ∃ c' : Config (serverWorld Caller) (Option Response),
      History (serverWorld Caller) (Serves platform config calls)
        (h.map (concealing platform ρ).executed) c' ∧
      c'.state = SessionStore.conceal ρ c.state ∧
      ∀ i result, c.procs i = some (.ret result) → c'.procs i = some (.ret result) := by
  have hentry : ∀ i p, Serves platform config calls i p →
      ∃ q, Serves platform config calls i q ∧ Mirrored platform ρ Eq p q := by
    rintro i p rfl
    exact ⟨_, rfl, mirrored_serve config (calls i)⟩
  obtain ⟨c', hc', hstate, hbeside⟩ := hc.relabel (follows_concealing Caller) hentry
  refine ⟨c', hc', hstate, ?_⟩
  intro i result hi
  have hb := hbeside i
  rw [hi] at hb
  obtain ⟨result', hi', rfl⟩ := hb.of_ret
  exact hi'

/-- With another assertion in it, Alice gets the page she got. -/
theorem assertions_opaque_sample : ∃ c,
    History (serverWorld Nat) (Serves samplePlatform sampleConfig sampleCalls)
        ((sampleActs 2).map (concealing samplePlatform fun _ => [7]).executed) c ∧
      CodeUnits.ofString "Bw==" ∈ ((sampleActs 2).map
        (concealing samplePlatform fun _ => [7]).executed).filterMap (fun e => sentHeader e.toAct) ∧
      c.procs 1 = some (.ret (sampleResult 1)) := by
  obtain ⟨c, hc, hprocs⟩ := sample_history 2
  obtain ⟨c', hc', -, hsame⟩ := assertions_opaque hc fun _ => [7]
  exact ⟨c', hc', by decide +kernel, hsame 1 _ (hprocs 1 (by decide))⟩

end Server

end ZeroSecret.Console
