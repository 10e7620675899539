import ZeroSecret.Base.Guards
import ZeroSecret.Console.Server

/-!
# What a request may do

One inversion for the whole server: an operation is one of few, each behind the
acts that lead up to it (`Permitted`), and a response is delivered behind the
acts it speaks of (`Delivered`). The handlers are looked at here and nowhere
else.
-/

namespace ZeroSecret.Console.Server

open Interleave

abbrev ServerAct := Act ServerOp.Resp

/-- A `POST` to a path, from the console's own pages. -/
structure Posted (config : ServerConfig) (request : Request) (path : String) : Prop where
  method : request.method = "POST"
  sameOrigin : isSameOrigin request config.origin = true
  path : request.pathname = path

variable (platform : Platform) (config : ServerConfig)

/-- What is presented when a session is called upon. -/
structure Presented (request : Request) (past : List ServerAct) (data : SessionData) : Prop where
  found : ∃ id now, sessionIdOf request = some id ∧ (⟨.get id now, some data⟩ : ServerAct) ∈ past

/-- The login that a session is created for. -/
structure Verified (request : Request) (past : List ServerAct) (data : SessionData) : Prop where
  answered : ∃ verify answer, verification request = .ok (data.subjectId, verify) ∧
    (⟨.fetch verify, answer⟩ : ServerAct) ∈ past ∧
    assertionOf platform answer = .ok data.identityAssertion
  expires : ∃ now : Number, (⟨.now, now⟩ : ServerAct) ∈ past ∧ data.expiresAt = config.expiresAt now

/-- An operation of a request, behind its acts so far. -/
inductive Permitted (request : Request) (past : List ServerAct) : ServerOp → Prop
  | now : Permitted request past .now
  | get {id : CodeUnits} {now : Number} (hcookie : sessionIdOf request = some id)
      (hclock : (⟨.now, now⟩ : ServerAct) ∈ past) : Permitted request past (.get id now)
  | create {data : SessionData}
      (hposted : Posted config request "/api/webauthn/authentication/verify")
      (hverified : Verified platform config request past data) : Permitted request past (.create data)
  | logout {id : CodeUnits} (hposted : Posted config request "/logout")
      (hcookie : sessionIdOf request = some id) : Permitted request past (.destroy id)
  | refused {id : CodeUnits} {ask : HttpRequest} {answer : Option HttpAnswer} {reason : CodeUnits}
      (hposted : Posted config request "/access-request") (hcookie : sessionIdOf request = some id)
      (hanswer : (⟨.fetch ask, answer⟩ : ServerAct) ∈ past)
      (hreason : decisionOf answer = .error (.accessBrokerAuthError reason)) :
      Permitted request past (.destroy id)
  | identityProvider {ask : HttpRequest} {path : String} (hposted : Posted config request path)
      (hservice : ask.service = .identityProvider) (hbare : ask.identityAssertion = none) :
      Permitted request past (.fetch ask)
  | accessBroker {ask : HttpRequest} {data : SessionData}
      (hposted : Posted config request "/access-request")
      (hpresented : Presented request past data)
      (hask : accessRequest config data.identityAssertion request = .ok ((), ask)) :
      Permitted request past (.fetch ask)
  | adminApi {ask : HttpRequest} {data : SessionData} {operationId : CodeUnits}
      (hposted : Posted config request "/quorum") (hpresented : Presented request past data)
      (hask : quorumRequest platform data.identityAssertion request = .ok (operationId, ask)) :
      Permitted request past (.fetch ask)
  | readFile (hmethod : request.method = "GET")
      (hstatic : staticPrefix.isPrefixOf request.pathname.toList = true)
      (hdots : includesDots (relOf request.pathname) = false)
      (hrelative : (relOf request.pathname).head? ≠ some '/') :
      Permitted request past
        (.readFile (LexicalPath.joinPaths [config.publicDir, relOf request.pathname]))

/-- Who a page says is logged in. -/
def subjectOf : Page → Option CodeUnits
  | .accessRequest subjectId => some subjectId
  | .accessDecision subjectId _ => some subjectId
  | _ => none

/-- The cookie that a response sets, behind the acts of its request. -/
inductive CookieFor (request : Request) (past : List ServerAct) : CodeUnits → Prop
  | created {data : SessionData} {random : Random32}
      (hcreate : (⟨.create data, random⟩ : ServerAct) ∈ past) :
      CookieFor request past (setCookieHeader (Base64.urlUnits random) config.maxAge)
  | cleared (hgone : ∀ id, sessionIdOf request = some id → (⟨.destroy id, ()⟩ : ServerAct) ∈ past) :
      CookieFor request past clearCookieHeader

structure Delivered (request : Request) (past : List ServerAct) (response : Response) : Prop where
  plain : ∀ page, response.content = .page page → page.Plain
  shown : ∀ page subjectId, response.content = .page page → subjectOf page = some subjectId →
    ∃ data, Presented request past data ∧ data.subjectId = subjectId
  cookie : ∀ cookie, response.setCookie = some cookie → CookieFor config request past cookie

section
variable {platform : Platform} {config : ServerConfig} {request : Request} {past : List ServerAct}

/-- A response without a cookie, and with no page. -/
theorem delivered_send (status : Nat) (body : List (String × JsonValue)) :
    Delivered config request past (send status body) :=
  ⟨nofun, nofun, nofun⟩

theorem delivered_redirect : Delivered config request past redirect :=
  ⟨nofun, nofun, nofun⟩

theorem delivered_sendPage (page : Page) (status : Nat) (hplain : page.Plain)
    (hshown : ∀ subjectId, subjectOf page = some subjectId →
      ∃ data, Presented request past data ∧ data.subjectId = subjectId) :
    Delivered config request past (sendPage page status) := by
  refine ⟨?_, ?_, nofun⟩
  · intro page' hpage
    rw [← Content.page.inj hpage]
    exact hplain
  · intro page' subjectId hpage hsubject
    rw [← Content.page.inj hpage] at hsubject
    exact hshown subjectId hsubject

/-- A page that names nobody. -/
theorem delivered_page (page : Page) (status : Nat) (hplain : page.Plain)
    (hnobody : subjectOf page = none) : Delivered config request past (sendPage page status) := by
  apply delivered_sendPage page status hplain
  intro subjectId hsubject
  rw [hnobody] at hsubject
  cases hsubject

/-- A page for whoever the session is of. -/
theorem delivered_sessionPage {page : Page} {data : SessionData} (status : Nat)
    (hplain : page.Plain) (hsubject : subjectOf page = some data.subjectId)
    (hpresented : Presented request past data) :
    Delivered config request past (sendPage page status) := by
  apply delivered_sendPage page status hplain
  intro subjectId hnamed
  exact ⟨data, hpresented, Option.some.inj (hsubject.symm.trans hnamed)⟩

theorem Presented.mono {past' : List ServerAct} {data : SessionData}
    (h : Presented request past data) (hpast : past ⊆ past') : Presented request past' data := by
  obtain ⟨id, now, hcookie, hfound⟩ := h
  exact ⟨id, now, hcookie, hpast hfound⟩

theorem delivered_jsonRefusal (err : Failure) :
    Delivered config request past (jsonRefusal err) := by
  cases err with
  | badRequest | identityProviderError | accessBrokerAuthError | adminApiError | other =>
      exact delivered_send _ _

theorem delivered_quorumRefusal (err : Failure) :
    Delivered config request past (quorumRefusal err) := by
  cases err with
  | adminApiError status reason => exact delivered_page (.quorumRefused reason) status trivial rfl
  | badRequest message => exact delivered_page (.quorumInvalid message) 400 trivial rfl
  | identityProviderError | accessBrokerAuthError | other =>
      exact delivered_page .adminUnavailable 502 trivial rfl

/-- What JSON brings into a page is plain. -/
theorem plain_shown {elements : List JsonValue} {vs : List Value} (h : shown elements = .ok vs) :
    ∀ v ∈ vs, v.RawFree := by
  intro v hv
  obtain ⟨j, -, hj⟩ := mem_ofJsons (Fallible.okOr_eq_ok h) v hv
  exact rawFree_ofJson hj

theorem plain_decisionOf {answer : Option HttpAnswer} {decision : Decision}
    (h : decisionOf answer = .ok decision) (subjectId : CodeUnits) :
    (Page.accessDecision subjectId decision).Plain := by
  cases answer with
  | none => cases h
  | some answer =>
      rw [decisionOf] at h
      split at h
      · obtain ⟨reason, -, h⟩ := Fallible.bind_eq_ok_iff.mp h
        cases h
      · split at h
        · obtain ⟨policyVersion, -, h⟩ := Fallible.bind_eq_ok_iff.mp h
          obtain ⟨allowed, -, h⟩ := Fallible.bind_eq_ok_iff.mp h
          obtain ⟨reasons, -, h⟩ := Fallible.bind_eq_ok_iff.mp h
          obtain ⟨vs, hshown, h⟩ := Fallible.bind_eq_ok_iff.mp h
          rw [← Except.ok.inj h]
          exact plain_shown hshown
        · cases h

theorem plain_quorumResultOf {answer : Option HttpAnswer} {result : QuorumResult}
    (h : quorumResultOf answer = .ok result) (operationId : CodeUnits) :
    (Page.quorumResult operationId result).Plain := by
  cases answer with
  | none => cases h
  | some answer =>
      rw [quorumResultOf] at h
      split at h
      · obtain ⟨reached, -, h⟩ := Fallible.bind_eq_ok_iff.mp h
        obtain ⟨distinctSubjects, -, h⟩ := Fallible.bind_eq_ok_iff.mp h
        obtain ⟨vs, hshown, h⟩ := Fallible.bind_eq_ok_iff.mp h
        rw [← Except.ok.inj h]
        exact plain_shown hshown
      · obtain ⟨reason, -, h⟩ := Fallible.bind_eq_ok_iff.mp h
        cases h

end

/-! ## The handlers -/

/-- A program of a request keeps to what is permitted. -/
abbrev Conducted (request : Request) (past : List ServerAct) (p : ServerProg Response) : Prop :=
  p.Guarded (Permitted platform config request) (Delivered config request) past

section
variable {platform : Platform} {config : ServerConfig} {request : Request} {past : List ServerAct}

/-- A session is looked for by the identifier of the cookie. -/
theorem conducted_getSession {id : CodeUnits} (hcookie : sessionIdOf request = some id)
    {k : Option SessionData → ServerProg Response}
    (hnone : ∀ past', Conducted platform config request past' (k none))
    (hsome : ∀ past' data, Presented request past' data →
      Conducted platform config request past' (k (some data))) :
    Conducted platform config request past (getSession id >>= k) := by
  refine ⟨.now, fun now => ⟨.get hcookie (List.mem_append_right _ (List.mem_singleton_self _)), ?_⟩⟩
  intro found
  cases found with
  | none => exact hnone _
  | some data =>
      apply hsome _ data
      exact ⟨id, now, hcookie, List.mem_append_right _ (List.mem_singleton_self _)⟩

theorem conducted_requireSession {k : Option SessionData → ServerProg Response}
    (hnone : ∀ past', Conducted platform config request past' (k none))
    (hsome : ∀ past' data, Presented request past' data →
      Conducted platform config request past' (k (some data))) :
    Conducted platform config request past (requireSession request >>= k) := by
  unfold requireSession
  cases hcookie : sessionIdOf request with
  | none => exact hnone past
  | some id => exact conducted_getSession hcookie hnone hsome

/-- A backend is asked, and what is thrown is caught. -/
theorem conducted_attempt {κ α : Type} {ask : Except Failure (κ × HttpRequest)}
    {result : Option HttpAnswer → Except Failure α}
    {k : Except Failure (κ × α) → ServerProg Response}
    (hpermitted : ∀ kept a, ask = .ok (kept, a) → Permitted platform config request past (.fetch a))
    (hunasked : ∀ err, ask = .error err → Conducted platform config request past (k (.error err)))
    (hrefused : ∀ past' a answer err, (⟨.fetch a, answer⟩ : ServerAct) ∈ past' →
      result answer = .error err → Conducted platform config request past' (k (.error err)))
    (hanswered : ∀ past' kept a answer value, past ⊆ past' → ask = .ok (kept, a) →
      (⟨.fetch a, answer⟩ : ServerAct) ∈ past' → result answer = .ok value →
      Conducted platform config request past' (k (.ok (kept, value)))) :
    Conducted platform config request past (attempt ask result >>= k) := by
  cases ask with
  | error err => exact hunasked err rfl
  | ok asked =>
      obtain ⟨kept, a⟩ := asked
      refine ⟨hpermitted kept a rfl, fun answer => ?_⟩
      have hmem : (⟨.fetch a, answer⟩ : ServerAct) ∈ past ++ [⟨.fetch a, answer⟩] :=
        List.mem_append_right _ (List.mem_singleton_self _)
      change Conducted platform config request _ (k ((result answer).map (Prod.mk kept)))
      cases hresult : result answer with
      | error err => exact hrefused _ a answer err hmem hresult
      | ok value => exact hanswered _ kept a answer value (List.subset_append_left _ _) rfl hmem hresult

/-- A request goes to identity-provider, under no assertion. -/
def Bare {κ : Type} (asked : κ × HttpRequest) : Prop :=
  asked.2.service = .identityProvider ∧ asked.2.identityAssertion = none

/-- A request of identity-provider and a response without a cookie. -/
theorem conducted_handleJson {κ α : Type} {path : String} (hposted : Posted config request path)
    {ask : Except Failure (κ × HttpRequest)} {result : Option HttpAnswer → Except Failure α}
    {json : κ → α → JsonValue} (hask : Fallible.OkOnly Bare ask) :
    Conducted platform config request past (handleJson ask result json) := by
  apply conducted_attempt
  · intro kept a ha
    obtain ⟨hservice, hbare⟩ := hask _ ha
    exact .identityProvider hposted hservice hbare
  · exact fun err _ => delivered_jsonRefusal err
  · exact fun past' a answer err _ _ => delivered_jsonRefusal err
  · exact fun past' kept a answer value _ _ _ _ => ⟨nofun, nofun, nofun⟩

theorem bare_challengeRequest (path : String) :
    Fallible.OkOnly Bare (challengeRequest path request) := by
  intro asked h
  obtain ⟨body, -, h⟩ := Fallible.bind_eq_ok_iff.mp h
  obtain ⟨subjectId, -, h⟩ := Fallible.bind_eq_ok_iff.mp h
  rw [← Except.ok.inj h]
  exact ⟨rfl, rfl⟩

theorem bare_attestation : Fallible.OkOnly Bare (attestation request) := by
  intro asked h
  obtain ⟨body, -, h⟩ := Fallible.bind_eq_ok_iff.mp h
  obtain ⟨clientDataJson, -, h⟩ := Fallible.bind_eq_ok_iff.mp h
  obtain ⟨attestationObject, -, h⟩ := Fallible.bind_eq_ok_iff.mp h
  rw [← Except.ok.inj h]
  exact ⟨rfl, rfl⟩

theorem bare_verification : Fallible.OkOnly Bare (verification request) := by
  intro asked h
  obtain ⟨body, -, h⟩ := Fallible.bind_eq_ok_iff.mp h
  obtain ⟨subject, -, h⟩ := Fallible.bind_eq_ok_iff.mp h
  obtain ⟨credentialId, -, h⟩ := Fallible.bind_eq_ok_iff.mp h
  obtain ⟨clientDataJson, -, h⟩ := Fallible.bind_eq_ok_iff.mp h
  obtain ⟨authenticatorData, -, h⟩ := Fallible.bind_eq_ok_iff.mp h
  obtain ⟨signature, -, h⟩ := Fallible.bind_eq_ok_iff.mp h
  rw [← Except.ok.inj h]
  exact ⟨rfl, rfl⟩

theorem conducted_handleAuthenticationVerify
    (hposted : Posted config request "/api/webauthn/authentication/verify") :
    Conducted platform config request past (handleAuthenticationVerify platform config request) := by
  apply conducted_attempt
  · intro subjectId verify hverify
    obtain ⟨hservice, hbare⟩ := bare_verification _ hverify
    exact .identityProvider hposted hservice hbare
  · exact fun err _ => delivered_send _ _
  · exact fun past' a answer err _ _ => delivered_send _ _
  · intro past' subjectId verify answer identityAssertion _ hverify hanswer hassertion
    refine ⟨.now, fun now => ⟨.create hposted ⟨⟨verify, answer, hverify, ?_, hassertion⟩,
      now, ?_, rfl⟩, fun random => ⟨nofun, nofun, ?_⟩⟩⟩
    · exact List.mem_append_left _ hanswer
    · exact List.mem_append_right _ (List.mem_singleton_self _)
    · intro cookie hcookie
      rw [← Option.some.inj hcookie]
      exact .created (List.mem_append_right _ (List.mem_singleton_self _))

theorem conducted_handleAccessRequestPage :
    Conducted platform config request past (handleAccessRequestPage request) := by
  apply conducted_requireSession
  · exact fun past' => delivered_redirect
  · exact fun past' data hpresented => delivered_sessionPage 200 trivial rfl hpresented

theorem conducted_handleQuorumPage :
    Conducted platform config request past (handleQuorumPage request) := by
  apply conducted_requireSession
  · exact fun past' => delivered_redirect
  · exact fun past' data _ => delivered_page .quorum 200 trivial rfl

/-- A session is given up only for what access-broker refuses. -/
theorem conducted_accessRefusal {id : CodeUnits} {err : Failure}
    (hcookie : sessionIdOf request = some id)
    (hauth : ∀ reason, err = .accessBrokerAuthError reason →
      Permitted platform config request past (.destroy id)) :
    Conducted platform config request past (accessRefusal id err) := by
  cases err with
  | accessBrokerAuthError reason =>
      refine ⟨hauth reason rfl, fun _ => ⟨nofun, nofun, ?_⟩⟩
      intro cookie hcleared
      rw [← Option.some.inj hcleared]
      apply CookieFor.cleared
      intro id' hid'
      rw [← Option.some.inj (hcookie.symm.trans hid')]
      exact List.mem_append_right _ (List.mem_singleton_self _)
  | badRequest message => exact delivered_page (.requestRefused message) 400 trivial rfl
  | identityProviderError | adminApiError | other =>
      exact delivered_page .brokerUnavailable 502 trivial rfl

/-- What is asked of access-broker is asked under the assertion. -/
theorem accessRequest_sent {assertion : Bytes} {asked : Unit × HttpRequest}
    (h : accessRequest config assertion request = .ok asked) :
    asked.2.service = .accessBroker ∧
      asked.2.identityAssertion = some (base64Units assertion) := by
  obtain ⟨body, -, h⟩ := Fallible.bind_eq_ok_iff.mp h
  obtain ⟨verb, -, h⟩ := Fallible.bind_eq_ok_iff.mp h
  obtain ⟨type, -, h⟩ := Fallible.bind_eq_ok_iff.mp h
  obtain ⟨id, -, h⟩ := Fallible.bind_eq_ok_iff.mp h
  obtain ⟨authorityDomain, -, h⟩ := Fallible.bind_eq_ok_iff.mp h
  obtain ⟨justification, -, h⟩ := Fallible.bind_eq_ok_iff.mp h
  obtain ⟨ticketRef, -, h⟩ := Fallible.bind_eq_ok_iff.mp h
  rw [← Except.ok.inj h]
  exact ⟨rfl, rfl⟩

theorem accessRequest_header {assertion : Bytes} {asked : Unit × HttpRequest}
    (h : accessRequest config assertion request = .ok asked) :
    asked.2.identityAssertion = some (base64Units assertion) :=
  (accessRequest_sent h).2

/-- Where admin-api is asked about an operation. -/
def quorumPath (encoded : CodeUnits) : CodeUnits :=
  CodeUnits.ofString "/v1/critical-operations/" ++ encoded ++ CodeUnits.ofString "/quorum"

/-- The operation of a form, and the path it is named in. -/
theorem quorumRequest_names {assertion : Bytes} {asked : CodeUnits × HttpRequest}
    (h : quorumRequest platform assertion request = .ok asked) :
    ∃ body encoded, readFormBody request = .ok body ∧
      required body "operation_id" = .ok asked.1 ∧
      PercentEncoding.encodeURIComponent asked.1 = some encoded ∧
      asked.2.path = quorumPath encoded := by
  obtain ⟨body, hbody, h⟩ := Fallible.bind_eq_ok_iff.mp h
  obtain ⟨operation, hoperation, h⟩ := Fallible.bind_eq_ok_iff.mp h
  obtain ⟨thresholdRaw, -, h⟩ := Fallible.bind_eq_ok_iff.mp h
  obtain ⟨_, -, h⟩ := Fallible.bind_eq_ok_iff.mp h
  obtain ⟨block, -, h⟩ := Fallible.bind_eq_ok_iff.mp h
  obtain ⟨assertions, -, h⟩ := Fallible.bind_eq_ok_iff.mp h
  obtain ⟨authorityDomain, -, h⟩ := Fallible.bind_eq_ok_iff.mp h
  obtain ⟨encoded, hencoded, h⟩ := Fallible.okOr_bind_eq_ok_iff.mp h
  rw [← Except.ok.inj h]
  exact ⟨body, encoded, hbody, hoperation, hencoded, rfl⟩

/-- The header of what is asked of admin-api. -/
theorem quorumRequest_header {assertion : Bytes} {asked : CodeUnits × HttpRequest}
    (h : quorumRequest platform assertion request = .ok asked) :
    asked.2.identityAssertion = some (base64Units assertion) := by
  obtain ⟨body, -, h⟩ := Fallible.bind_eq_ok_iff.mp h
  obtain ⟨operation, -, h⟩ := Fallible.bind_eq_ok_iff.mp h
  obtain ⟨thresholdRaw, -, h⟩ := Fallible.bind_eq_ok_iff.mp h
  obtain ⟨_, -, h⟩ := Fallible.bind_eq_ok_iff.mp h
  obtain ⟨block, -, h⟩ := Fallible.bind_eq_ok_iff.mp h
  obtain ⟨assertions, -, h⟩ := Fallible.bind_eq_ok_iff.mp h
  obtain ⟨authorityDomain, -, h⟩ := Fallible.bind_eq_ok_iff.mp h
  obtain ⟨encoded, -, h⟩ := Fallible.bind_eq_ok_iff.mp h
  rw [← Except.ok.inj h]

/-- Thrown by something else than the client of access-broker. -/
def NotAuth (err : Failure) : Prop := ∀ reason, err ≠ .accessBrokerAuthError reason

theorem notAuth_required (body : Body) (field : String) :
    Fallible.FailsWith NotAuth (required body field) :=
  Fallible.failsWith_mapError (fun _ _ => Failure.noConfusion) _

/-- No session is given up before access-broker is asked. -/
theorem notAuth_accessRequest (assertion : Bytes) :
    Fallible.FailsWith NotAuth (accessRequest config assertion request) := by
  apply Fallible.failsWith_bind
  · intro err herr reason
    unfold readFormBody Fallible.okOr at herr
    cases hform : request.form with
    | none =>
        rw [hform] at herr
        rw [← Except.error.inj herr]
        exact Failure.noConfusion
    | some pairs =>
        rw [hform] at herr
        cases herr
  intro body
  apply Fallible.failsWith_bind (notAuth_required body "verb")
  intro verb
  apply Fallible.failsWith_bind (notAuth_required body "resource_type")
  intro type
  apply Fallible.failsWith_bind (notAuth_required body "resource_id")
  intro id
  apply Fallible.failsWith_bind (notAuth_required body "resource_authority_domain")
  intro authorityDomain
  apply Fallible.failsWith_bind (notAuth_required body "justification")
  intro justification
  apply Fallible.failsWith_bind (notAuth_required body "ticket_ref")
  exact fun ticketRef => Fallible.failsWith_ok _ _

theorem conducted_handleAccessRequestSubmit (hposted : Posted config request "/access-request") :
    Conducted platform config request past (handleAccessRequestSubmit config request) := by
  unfold handleAccessRequestSubmit
  cases hcookie : sessionIdOf request with
  | none => exact delivered_redirect
  | some id =>
      apply conducted_getSession hcookie
      · exact fun past' => delivered_redirect
      · intro past' session hpresented
        apply conducted_attempt
        · intro _ ask hask
          exact .accessBroker hposted hpresented hask
        · intro err herr
          apply conducted_accessRefusal hcookie
          intro reason hreason
          exact absurd hreason (notAuth_accessRequest _ _ herr reason)
        · intro past'' ask answer err hanswer herr
          apply conducted_accessRefusal hcookie
          rintro reason rfl
          exact .refused hposted hcookie hanswer herr
        · intro past'' _ ask answer decision hpast _ _ hdecision
          exact delivered_sessionPage 200 (plain_decisionOf hdecision session.subjectId) rfl
            (hpresented.mono hpast)

theorem conducted_handleQuorumSubmit (hposted : Posted config request "/quorum") :
    Conducted platform config request past (handleQuorumSubmit platform request) := by
  apply conducted_requireSession
  · exact fun past' => delivered_redirect
  · intro past' session hpresented
    apply conducted_attempt
    · intro operationId ask hask
      exact .adminApi hposted hpresented hask
    · exact fun err _ => delivered_quorumRefusal err
    · exact fun past'' ask answer err _ _ => delivered_quorumRefusal err
    · intro past'' operationId ask answer result _ _ _ hresult
      exact delivered_page _ 200 (plain_quorumResultOf hresult operationId) rfl

theorem conducted_handleLogout (hposted : Posted config request "/logout") :
    Conducted platform config request past (handleLogout request) := by
  unfold handleLogout
  cases hcookie : sessionIdOf request with
  | none =>
      refine ⟨nofun, nofun, ?_⟩
      intro cookie hcleared
      rw [← Option.some.inj hcleared]
      apply CookieFor.cleared
      rw [hcookie]
      exact nofun
  | some id =>
      refine ⟨.logout hposted hcookie, fun _ => ⟨nofun, nofun, ?_⟩⟩
      intro cookie hcleared
      rw [← Option.some.inj hcleared]
      apply CookieFor.cleared
      intro id' hid'
      rw [← Option.some.inj (hcookie.symm.trans hid')]
      exact List.mem_append_right _ (List.mem_singleton_self _)

theorem conducted_serveStatic (hmethod : request.method = "GET")
    (hstatic : staticPrefix.isPrefixOf request.pathname.toList = true) :
    Conducted platform config request past (serveStatic request.pathname config.publicDir) := by
  unfold serveStatic
  dsimp only
  split
  · exact delivered_send _ _
  · rename_i hplain
    obtain ⟨hdots, hrelative⟩ := not_or.mp hplain
    refine ⟨.readFile hmethod hstatic (Bool.eq_false_iff.mpr hdots) hrelative, fun data => ?_⟩
    cases data with
    | none => exact delivered_send _ _
    | some data => exact ⟨nofun, nofun, nofun⟩

theorem conducted_handleGet (hmethod : request.method = "GET") :
    Conducted platform config request past (handleGet config request) := by
  unfold handleGet
  split
  · exact delivered_page .register 200 trivial rfl
  split
  · exact delivered_page .login 200 trivial rfl
  split
  · exact conducted_handleAccessRequestPage
  split
  · exact conducted_handleQuorumPage
  split
  · rename_i hstatic
    exact conducted_serveStatic hmethod hstatic
  · exact delivered_send _ _

theorem conducted_handlePost (hmethod : request.method = "POST")
    (hsame : isSameOrigin request config.origin = true) :
    Conducted platform config request past (handlePost platform config request) := by
  unfold handlePost
  split
  · rename_i hpath
    exact conducted_handleJson ⟨hmethod, hsame, hpath⟩ (bare_challengeRequest _)
  split
  · rename_i hpath
    exact conducted_handleJson ⟨hmethod, hsame, hpath⟩ bare_attestation
  split
  · rename_i hpath
    exact conducted_handleJson ⟨hmethod, hsame, hpath⟩ (bare_challengeRequest _)
  split
  · rename_i hpath
    exact conducted_handleAuthenticationVerify ⟨hmethod, hsame, hpath⟩
  split
  · rename_i hpath
    exact conducted_handleAccessRequestSubmit ⟨hmethod, hsame, hpath⟩
  split
  · rename_i hpath
    exact conducted_handleQuorumSubmit ⟨hmethod, hsame, hpath⟩
  split
  · rename_i hpath
    exact conducted_handleLogout ⟨hmethod, hsame, hpath⟩
  · exact delivered_send _ _

theorem conducted_handle : Conducted platform config request past (handle platform config request) := by
  unfold handle
  split
  · exact delivered_send _ _
  rename_i hsame
  split
  · rename_i hget
    exact conducted_handleGet hget
  split
  · rename_i hpost
    exact conducted_handlePost hpost (Bool.of_not_eq_false fun hother => hsame ⟨hpost, hother⟩)
  · exact delivered_send _ _

end

/-! ## The system -/

/-- What a caller may do. -/
def May (calls : Call) (past : List ServerAct) : ServerOp → Prop :=
  match calls with
  | .request request => Permitted platform config request past
  | .sweep => fun op => op = .now ∨ ∃ now, op = .sweepExpired now

/-- What a caller comes to. -/
def Ends (call : Call) (past : List ServerAct) (result : Option Response) : Prop :=
  ∀ response, result = some response → ∃ request, call = .request request ∧
    Delivered config request past response

theorem guarded_serve (call : Call) :
    (serve platform config call).Guarded (May platform config call) (Ends config call) [] := by
  cases call with
  | request request =>
      refine Prog.guarded_bind
        (conducted_handle : Conducted platform config request [] (handle platform config request)) ?_
      rintro past response hdelivered _ ⟨⟩
      exact ⟨request, rfl, hdelivered⟩
  | sweep => exact ⟨.inl rfl, fun now => ⟨.inr ⟨now, rfl⟩, fun _ => nofun⟩⟩

section
variable {Caller : Type} [DecidableEq Caller] {platform config} {calls : Caller → Call}
  {h : List (Executed Caller ServerOp.Resp)}
  {c : Config (serverWorld Caller) (Option Response)}

/-- Every act of a run is one that its caller may do there. -/
theorem may_of_history (hc : History (serverWorld Caller) (Serves platform config calls) h c)
    {before after : List (Executed Caller ServerOp.Resp)} {e : Executed Caller ServerOp.Resp}
    (hh : h = before ++ e :: after) :
    May platform config (calls e.caller) (ownActs e.caller before) e.op := by
  refine hc.guarded (G := fun i => May platform config (calls i))
    (Q := fun i => Ends config (calls i)) ?_ hh
  rintro i p rfl
  exact guarded_serve platform config (calls i)

/-- Every response of a run is one that its request comes to. -/
theorem ends_of_history (hc : History (serverWorld Caller) (Serves platform config calls) h c)
    {i : Caller} {response : Response} (hi : c.procs i = some (.ret (some response))) :
    ∃ request, calls i = .request request ∧
      Delivered config request (ownActs i h) response := by
  refine hc.guarded_ret (G := fun i => May platform config (calls i))
    (Q := fun i => Ends config (calls i)) ?_ hi response rfl
  rintro i p rfl
  exact guarded_serve platform config (calls i)

end

/-! ## A run

Alice logs in, asks for access and logs out; then the script of the pages is read. -/

def samplePlatform : Platform := ⟨fun _ => .nan, fun _ => [], fun _ => none⟩

def sampleConfig : ServerConfig where
  origin := CodeUnits.ofString "https://console"
  expectedAuthorityDomain := CodeUnits.ofString "access-broker"
  expiresAt := fun _ => .exact 120
  maxAge := CodeUnits.ofString "120"
  publicDir := "/public".toList

/-- A `POST` of the console's own pages, with the cookie of `sampleRandom`. -/
def samplePost (pathname : String) (json : JsonValue) (form : List (String × String)) : Request where
  method := "POST"
  pathname := pathname
  secFetchSite := some (CodeUnits.ofString "same-origin")
  origin := none
  cookie := some (sessionCookieName ++ CodeUnits.ofString "=" ++ Base64.urlUnits sampleRandom)
  json := some json
  form := some (form.map fun p => (CodeUnits.ofString p.1, CodeUnits.ofString p.2))

def sampleLogin : Request :=
  samplePost "/api/webauthn/authentication/verify"
    (objectOf [("subject_id", text "alice"), ("credential_id", text "AQ"),
      ("client_data_json", text "AQ"), ("authenticator_data", text "AQ"), ("signature", text "AQ")]) []

def sampleSubmit : Request :=
  samplePost "/access-request" .null
    [("verb", "db.connect"), ("resource_type", "Database"), ("resource_id", "db-1"),
      ("resource_authority_domain", "access-broker"), ("justification", "panne"), ("ticket_ref", "T-1")]

def sampleLogout : Request := samplePost "/logout" .null []

/-- A request for the script of the pages, by a path with a dot in it. -/
def sampleScript : Request :=
  { sampleLogout with method := "GET", pathname := "/static/./webauthn.js" }

def sampleCalls : Nat → Call
  | 0 => .request sampleLogin
  | 1 => .request sampleSubmit
  | 2 => .request sampleLogout
  | 3 => .request sampleScript
  | _ => .sweep

/-- Every backend answers, and the clock stands still. -/
def sampleAnswered (_ : Nat) : (op : ServerOp) → SessionStore → op.Resp × SessionStore
  | .now, sessions => (.exact 0, sessions)
  | .create data, sessions => (sampleRandom, (sessions.create data sampleRandom).2)
  | .get id now, sessions =>
      ((sessions.get Base64.lenient id now).1.map (·.toSessionData),
        (sessions.get Base64.lenient id now).2)
  | .destroy id, sessions => ((), sessions.destroy Base64.lenient id)
  | .sweepExpired now, sessions => sessions.sweepExpired now
  | .fetch _, sessions =>
      (some ⟨200, [], some (objectOf [("assertion", text "AQID"), ("allowed", .bool true)])⟩, sessions)
  | .readFile _, sessions => (none, sessions)

theorem sampleAnswered_exec (n : Nat) (op : ServerOp) (sessions : SessionStore) :
    (serverWorld Nat).exec n op sessions (sampleAnswered n op sessions).1
      (sampleAnswered n op sessions).2 := by
  cases op with
  | now | create | destroy | fetch | readFile => exact ⟨trivial, rfl⟩
  | get | sweepExpired => exact ⟨rfl, rfl⟩

/-- The first `n` requests are served, one after the other. -/
def sampleActs (n : Nat) : List (Executed Nat ServerOp.Resp) :=
  actsOf (W := serverWorld Nat) (fun i => serve samplePlatform sampleConfig (sampleCalls i))
    sampleAnswered n

def sampleResult (n : Nat) : Option Response :=
  resultOf (W := serverWorld Nat) (fun i => serve samplePlatform sampleConfig (sampleCalls i))
    sampleAnswered n

theorem sample_history (n : Nat) : ∃ c,
    History (serverWorld Nat) (Serves samplePlatform sampleConfig sampleCalls) (sampleActs n) c ∧
      ∀ i < n, c.procs i = some (.ret (sampleResult i)) := by
  have hserves : ∀ i, Serves samplePlatform sampleConfig sampleCalls i
      (serve samplePlatform sampleConfig (sampleCalls i)) := fun _ => rfl
  obtain ⟨c, hc, -, hprocs⟩ := History.actsOf (W := serverWorld Nat)
    (fun i => serve samplePlatform sampleConfig (sampleCalls i)) sampleAnswered hserves
    sampleAnswered_exec n
  refine ⟨c, hc, ?_⟩
  intro i hi
  rw [hprocs]
  exact if_pos hi

/-- The header under which something is asked. -/
def sentHeader (act : ServerAct) : Option CodeUnits :=
  match act.op with
  | .fetch ask => ask.identityAssertion
  | _ => none

theorem sentHeader_eq_some {act : ServerAct} {header : CodeUnits}
    (h : sentHeader act = some header) :
    ∃ ask, act.op = .fetch ask ∧ ask.identityAssertion = some header := by
  obtain ⟨op, answer⟩ := act
  cases op with
  | fetch ask => exact ⟨ask, rfl, h⟩
  | now | create | get | destroy | sweepExpired | readFile => cases h

/-- The page of a result. -/
def pageOf (result : Option Response) : Option Page :=
  result.bind fun response => match response.content with
    | .page page => some page
    | _ => none

theorem pageOf_eq_some {result : Option Response} {page : Page} (h : pageOf result = some page) :
    ∃ response, result = some response ∧ response.content = .page page := by
  cases result with
  | none => cases h
  | some response =>
      obtain ⟨status, location, setCookie, content⟩ := response
      cases content with
      | page page' => exact ⟨_, rfl, congrArg Content.page (Option.some.inj h)⟩
      | empty | json | file => cases h

end ZeroSecret.Console.Server
