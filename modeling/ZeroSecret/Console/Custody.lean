import ZeroSecret.Console.Conduct

/-!
# Custody of sessions and assertions

Whatever moves in between, a session that is called upon was opened by a login
that identity-provider answered, has not been given up since, and is not
expired. On this rest what is asked of access-broker and admin-api, whom a page
names, and that a session whose cookie has been cleared is gone.
-/

namespace ZeroSecret.Console.Server

open Interleave

variable {Caller : Type} [DecidableEq Caller] {platform : Platform} {config : ServerConfig}
  {calls : Caller → Call} {h : List (Executed Caller ServerOp.Resp)}
  {c : Config (serverWorld Caller) (Option Response)}

/-- The login a session comes from. -/
structure Opened (platform : Platform) (config : ServerConfig) (calls : Caller → Call)
    (h : List (Executed Caller ServerOp.Resp)) (data : SessionData) (random : Random32) : Prop where
  login : ∃ login request verify answer, calls login = .request request ∧
    Posted config request "/api/webauthn/authentication/verify" ∧
    verification request = .ok (data.subjectId, verify) ∧
    (⟨⟨.fetch verify, answer⟩, login⟩ : Executed Caller ServerOp.Resp) ∈ h ∧
    assertionOf platform answer = .ok data.identityAssertion ∧
    (⟨⟨.create data, random⟩, login⟩ : Executed Caller ServerOp.Resp) ∈ h

/-- The session that a request has called upon: the one its cookie stands for, live when it
was looked for. -/
structure CalledUpon (platform : Platform) (config : ServerConfig) (calls : Caller → Call)
    (h : List (Executed Caller ServerOp.Resp)) (i : Caller) (request : Request)
    (data : SessionData) : Prop where
  live : ∃ id now random first second, sessionIdOf request = some id ∧
    Base64.lenient id = (random : Random32).val ∧
    h = first ++ ⟨⟨.get id now, some data⟩, i⟩ :: second ∧
    Survives Base64.lenient (operations first) random data ∧ ¬ data.expiresAt ≤ now ∧
    Opened platform config calls first data random

/-! ## Sessions -/

omit [DecidableEq Caller] in
theorem mem_operations {op : Operation} (hop : op ∈ operations h) :
    ∃ e ∈ h, operationOf e.op e.answer = some op :=
  List.mem_filterMap.mp hop

omit [DecidableEq Caller] in
/-- The one operation that creates. -/
theorem act_of_create {op : ServerOp} {answer : op.Resp} {data : SessionData} {random : Random32}
    (h : operationOf op answer = some (.create data random)) :
    (⟨op, answer⟩ : ServerAct) = ⟨.create data, random⟩ := by
  cases op with
  | create data' =>
      obtain ⟨rfl, rfl⟩ := Operation.create.inj (Option.some.inj h)
      rfl
  | get | destroy | sweepExpired | now | fetch | readFile => cases h

/-- Whoever creates a session may: it is a login that was answered. -/
theorem opened_of_mem (hc : History (serverWorld Caller) (Serves platform config calls) h c)
    {before after : List (Executed Caller ServerOp.Resp)} (hh : h = before ++ after)
    {data : SessionData} {random : Random32}
    (hcreated : Operation.create data random ∈ operations before) :
    Opened platform config calls before data random := by
  obtain ⟨⟨act, login⟩, hmem, hop⟩ := mem_operations hcreated
  obtain rfl : act = ⟨.create data, random⟩ := act_of_create hop
  obtain ⟨earlier, later, rfl⟩ := List.append_of_mem hmem
  have hsplit : h = earlier ++ ⟨⟨.create data, random⟩, login⟩ :: (later ++ after) := by
    rw [hh, List.append_assoc, List.cons_append]
  have hmay := may_of_history hc hsplit
  cases hcall : calls login with
  | sweep =>
      simp only [hcall, May] at hmay
      rcases hmay with hmay | ⟨now, hmay⟩
      · cases hmay
      · cases hmay
  | request request =>
      simp only [hcall, May] at hmay
      cases hmay with
      | create hposted hverified =>
          obtain ⟨verify, answer, hverify, hfetch, hassertion⟩ := hverified.answered
          exact ⟨login, request, verify, answer, hcall, hposted, hverify,
            List.mem_append_left _ (mem_of_mem_ownActs hfetch), hassertion, hmem⟩

omit [DecidableEq Caller] in
theorem survives_created {history : List Operation} {random : Random32} {data : SessionData}
    (h : Survives Base64.lenient history random data) : Operation.create data random ∈ history := by
  obtain ⟨before, after, rfl, -⟩ := h
  exact List.mem_append_right _ List.mem_cons_self

/-- **A session that is found is the live session of the cookie's octets.** -/
theorem calledUpon_of_presented
    (hc : History (serverWorld Caller) (Serves platform config calls) h c)
    {before after : List (Executed Caller ServerOp.Resp)} (hh : h = before ++ after) {i : Caller}
    {request : Request} {data : SessionData}
    (hpresented : Presented request (ownActs i before) data) :
    CalledUpon platform config calls before i request data := by
  obtain ⟨id, now, hcookie, hfound⟩ := hpresented
  obtain ⟨first, second, rfl⟩ := List.append_of_mem (mem_of_mem_ownActs hfound)
  have hsplit : h = first ++ ⟨⟨.get id now, some data⟩, i⟩ :: (second ++ after) := by
    rw [hh, List.append_assoc, List.cons_append]
  obtain ⟨sessions, sessions', hexec, hanswers, -⟩ := hc.split hsplit
  -- the store is what its operations have made of it, and holds the sessions that survive
  have hholds := holds_run Base64.lenient Base64.lenient_urlUnits (operations first)
  rw [← state_eq_run hexec] at hholds
  have hget : (SessionStore.get Base64.lenient sessions id now).1.map (·.toSessionData) =
      some data := hanswers.symm
  obtain ⟨random, hid, hheld, hlive⟩ :=
    (get_of_holds Base64.lenient Base64.lenient_urlUnits hholds id now data).mp hget
  have hsurvives := survives_of_held Base64.lenient hheld
  exact ⟨id, now, random, first, second, hcookie, hid, rfl, hsurvives, hlive,
    opened_of_mem hc hsplit (survives_created hsurvives)⟩

/-! ## Assertions -/

/-- What is asked under an assertion is asked for a session that was presented. -/
theorem presented_of_permitted {request : Request} {past : List ServerAct} {ask : HttpRequest}
    {header : CodeUnits} (h : Permitted platform config request past (.fetch ask))
    (hheader : ask.identityAssertion = some header) :
    ∃ data, Presented request past data ∧ header = base64Units data.identityAssertion := by
  cases h with
  | identityProvider hposted hservice hbare =>
      rw [hbare] at hheader
      cases hheader
  | @accessBroker _ data hposted hpresented hask =>
      exact ⟨data, hpresented, Option.some.inj (hheader.symm.trans (accessRequest_header hask))⟩
  | @adminApi _ data operationId hposted hpresented hask =>
      exact ⟨data, hpresented, Option.some.inj (hheader.symm.trans (quorumRequest_header hask))⟩

/-- **No assertion leaves but for its own session.** What any run sends to access-broker or
admin-api under an assertion, it sends for a request whose cookie stands for a session that
is live when it is looked for; and the assertion is the one that identity-provider answered
to the login the session comes from. -/
theorem assertion_custody (hc : History (serverWorld Caller) (Serves platform config calls) h c)
    {before after : List (Executed Caller ServerOp.Resp)} {e : Executed Caller ServerOp.Resp}
    (hh : h = before ++ e :: after) {ask : HttpRequest} (hask : e.op = .fetch ask)
    {header : CodeUnits} (hheader : ask.identityAssertion = some header) :
    ∃ request data, calls e.caller = .request request ∧
      header = base64Units data.identityAssertion ∧
      CalledUpon platform config calls before e.caller request data := by
  have hmay := may_of_history hc hh
  rw [hask] at hmay
  cases hcall : calls e.caller with
  | sweep =>
      simp only [hcall, May] at hmay
      rcases hmay with hmay | ⟨now, hmay⟩
      · cases hmay
      · cases hmay
  | request request =>
      simp only [hcall, May] at hmay
      obtain ⟨data, hpresented, hdata⟩ := presented_of_permitted hmay hheader
      exact ⟨request, data, rfl, hdata, calledUpon_of_presented hc hh hpresented⟩

/-- Alice's assertion goes to access-broker with her request. -/
theorem assertion_custody_submit : ∃ before e after ask header request data,
    sampleActs 2 = before ++ e :: after ∧ e.op = .fetch ask ∧
      ask.identityAssertion = some header ∧ header = CodeUnits.ofString "AQID" ∧
      sampleCalls e.caller = .request request ∧ header = base64Units data.identityAssertion ∧
      CalledUpon samplePlatform sampleConfig sampleCalls before e.caller request data := by
  obtain ⟨c, hc, -⟩ := sample_history 2
  have hsent : CodeUnits.ofString "AQID" ∈
      (sampleActs 2).filterMap fun e => sentHeader e.toAct := by decide +kernel
  obtain ⟨e, he, hheader⟩ := List.mem_filterMap.mp hsent
  obtain ⟨ask, hask, hheader⟩ := sentHeader_eq_some hheader
  obtain ⟨before, after, hh⟩ := List.append_of_mem he
  obtain ⟨request, data, hcall, hdata, hcalled⟩ := assertion_custody hc hh hask hheader
  exact ⟨before, e, after, ask, _, request, data, hh, hask, hheader, rfl, hcall, hdata, hcalled⟩

/-! ## Pages -/

/-- **What a page of a run says.** Its markup is that of its kind, whatever was answered; and
whom it names is the subject of the live session that its request presents. -/
theorem page_custody (hc : History (serverWorld Caller) (Serves platform config calls) h c)
    {i : Caller} {response : Response} (hi : c.procs i = some (.ret (some response))) {page : Page}
    (hpage : response.content = .page page) :
    markup page.text = markup page.blank.text ∧
      ∀ subjectId, subjectOf page = some subjectId →
        ∃ request data, calls i = .request request ∧ data.subjectId = subjectId ∧
          CalledUpon platform config calls h i request data := by
  obtain ⟨request, hcall, hdelivered⟩ := ends_of_history hc hi
  refine ⟨Page.markup_text (hdelivered.plain page hpage), ?_⟩
  intro subjectId hsubject
  obtain ⟨data, hpresented, hdata⟩ := hdelivered.shown page subjectId hpage hsubject
  exact ⟨request, data, hcall, hdata,
    calledUpon_of_presented hc (List.append_nil h).symm hpresented⟩

/-- The page that answers Alice's request names her. -/
theorem page_custody_submit : ∃ page request data,
    pageOf (sampleResult 1) = some page ∧ markup page.text = markup page.blank.text ∧
      sampleCalls 1 = .request request ∧ data.subjectId = CodeUnits.ofString "alice" ∧
      CalledUpon samplePlatform sampleConfig sampleCalls (sampleActs 2) 1 request data := by
  obtain ⟨c, hc, hprocs⟩ := sample_history 2
  have hnamed : (pageOf (sampleResult 1)).bind subjectOf = some (CodeUnits.ofString "alice") := by
    decide +kernel
  obtain ⟨page, hpage, hsubject⟩ := Option.bind_eq_some_iff.mp hnamed
  obtain ⟨response, hresult, hcontent⟩ := pageOf_eq_some hpage
  have hi := hprocs 1 (by decide)
  rw [hresult] at hi
  obtain ⟨hmarkup, hnames⟩ := page_custody hc hi hcontent
  obtain ⟨request, data, hcall, hdata, hcalled⟩ := hnames _ hsubject
  exact ⟨page, request, data, hpage, hmarkup, hcall, hdata, hcalled⟩

/-! ## Where requests come from -/

/-- **Backends are called and sessions opened and ended by the console's own pages alone**:
by a `POST` that is of the same origin. Of a `POST` from elsewhere comes nothing but a
refusal. -/
theorem only_posted (hc : History (serverWorld Caller) (Serves platform config calls) h c) :
    (∀ e ∈ h, (∃ ask, e.op = .fetch ask) ∨ (∃ data, e.op = .create data) ∨
        (∃ id, e.op = .destroy id) →
      ∃ request path, calls e.caller = .request request ∧ Posted config request path) ∧
    ∀ i request, calls i = .request request → request.method = "POST" →
      isSameOrigin request config.origin = false →
      ownActs i h = [] ∧ ∀ response, c.procs i = some (.ret (some response)) →
        response = send 403 [("reason", text "origine_inattendue")] := by
  constructor
  · intro e he hop
    obtain ⟨before, after, hh⟩ := List.append_of_mem he
    have hmay := may_of_history hc hh
    cases hcall : calls e.caller with
    | sweep =>
        simp only [hcall, May] at hmay
        rcases hop with ⟨ask, hop⟩ | ⟨data, hop⟩ | ⟨id, hop⟩
        · simp [hop] at hmay
        · simp [hop] at hmay
        · simp [hop] at hmay
    | request request =>
        simp only [hcall, May] at hmay
        refine ⟨request, ?_⟩
        generalize e.op = op at hmay hop
        cases hmay with
        | now | get | readFile => simp at hop
        | create hposted | logout hposted | refused hposted | identityProvider hposted
        | accessBroker hposted | adminApi hposted => exact ⟨_, rfl, hposted⟩
  · intro i request hcall hmethod hother
    have hserve : serve platform config (calls i) =
        .ret (some (send 403 [("reason", text "origine_inattendue")])) := by
      rw [hcall, serve, handle, if_pos ⟨hmethod, hother⟩]
      rfl
    have hfollows := hc.follows i
    cases hprocs : c.procs i with
    | none =>
        rw [hprocs] at hfollows
        exact ⟨hfollows, nofun⟩
    | some q =>
        rw [hprocs] at hfollows
        obtain ⟨p, hp, hperforms⟩ := hfollows
        have hp' : p = serve platform config (calls i) := hp
        rw [hp', hserve] at hperforms
        generalize ownActs i h = l at hperforms
        cases hperforms with
        | refl =>
            refine ⟨rfl, ?_⟩
            rintro response ⟨⟩
            rfl

/-- Alice's requests come from the console's own pages. -/
theorem only_posted_sample : ∃ e ask request path, e ∈ sampleActs 2 ∧ e.op = .fetch ask ∧
    sampleCalls e.caller = .request request ∧ Posted sampleConfig request path := by
  obtain ⟨c, hc, -⟩ := sample_history 2
  have hsent : CodeUnits.ofString "AQID" ∈
      (sampleActs 2).filterMap fun e => sentHeader e.toAct := by decide +kernel
  obtain ⟨e, he, hheader⟩ := List.mem_filterMap.mp hsent
  obtain ⟨ask, hask, -⟩ := sentHeader_eq_some hheader
  obtain ⟨request, path, hcall, hposted⟩ := (only_posted hc).1 e he (.inl ⟨ask, hask⟩)
  exact ⟨e, ask, request, path, he, hask, hcall, hposted⟩

/-! ## Operations -/

/-- The route of `apps/admin-api`, `POST /v1/critical-operations/{operation_id}/quorum`: the
octets that the wildcard of the segments stands for. -/
def routedOperation : List CodeUnits → Option Bytes
  | [version, kind, operation, last] =>
      if version = CodeUnits.ofString "v1" ∧ kind = CodeUnits.ofString "critical-operations" ∧
          last = CodeUnits.ofString "quorum" then
        PercentEncoding.decode (PercentEncoding.octets operation)
      else none
  | _ => none

/-- The segments of a path that an operation is a part of. -/
theorem split_quorumPath {encoded : CodeUnits} (h : (47 : UInt16) ∉ encoded) :
    ((quorumPath encoded).splitOn 47).drop 1 =
      [CodeUnits.ofString "v1", CodeUnits.ofString "critical-operations", encoded,
        CodeUnits.ofString "quorum"] := by
  have hpath : quorumPath encoded = ([47] : CodeUnits).intercalate
      [[], CodeUnits.ofString "v1", CodeUnits.ofString "critical-operations", encoded,
        CodeUnits.ofString "quorum"] := by
    have hfront : CodeUnits.ofString "/v1/critical-operations/" =
        47 :: (CodeUnits.ofString "v1" ++ 47 :: (CodeUnits.ofString "critical-operations" ++ [47])) := by
      decide
    have hback : CodeUnits.ofString "/quorum" = 47 :: CodeUnits.ofString "quorum" := by decide
    rw [quorumPath, hfront, hback]
    simp [List.intercalate_cons_cons]
  rw [hpath, List.splitOn_intercalate 47 _ (List.cons_ne_nil _ _)]
  · rfl
  · intro segment hsegment
    have hfixed : ∀ s ∈ [CodeUnits.ofString "v1", CodeUnits.ofString "critical-operations",
        CodeUnits.ofString "quorum"], (47 : UInt16) ∉ s := by decide
    simp only [List.mem_cons, List.not_mem_nil, or_false] at hsegment
    rcases hsegment with rfl | rfl | rfl | rfl | rfl
    · exact List.not_mem_nil
    · exact hfixed _ (by simp)
    · exact hfixed _ (by simp)
    · exact h
    · exact hfixed _ (by simp)

open PercentEncoding in
theorem eq_dot_of_encoded {text encoded : CodeUnits} {cs : List Char}
    (h : encodeURIComponent text = some encoded) (hcs : toChars text = some cs)
    (hdot : isDot encoded = true) : cs = ['.'] := by
  have hutf8 : Json.utf8 cs = Json.utf8 ['.'] :=
    Option.some.inj ((decode_encodeURIComponent h hcs).symm.trans (decode_of_isDot hdot))
  exact Json.utf8_injective hutf8

open PercentEncoding in
theorem eq_dotDot_of_encoded {text encoded : CodeUnits} {cs : List Char}
    (h : encodeURIComponent text = some encoded) (hcs : toChars text = some cs)
    (hdot : isDotDot encoded = true) : cs = ['.', '.'] := by
  have hutf8 : Json.utf8 cs = Json.utf8 ['.', '.'] :=
    Option.some.inj ((decode_encodeURIComponent h hcs).symm.trans (decode_of_isDotDot hdot))
  exact Json.utf8_injective hutf8

open PercentEncoding in
/-- A path that names an operation is routed to that operation; a name of dots alone takes
a segment of the path away, and the path has no route. -/
theorem routed_quorumPath {operationId encoded : CodeUnits} {cs : List Char}
    (h : encodeURIComponent operationId = some encoded) (hcs : toChars operationId = some cs) :
    routedOperation (urlSegments (quorumPath encoded)) =
      if cs = ['.'] ∨ cs = ['.', '.'] then none else some (Json.utf8 cs) := by
  have hsplit := split_quorumPath (not_mem_encodeURIComponent h 47 (by decide))
  have hfixed : ∀ s ∈ [CodeUnits.ofString "v1", CodeUnits.ofString "critical-operations",
      CodeUnits.ofString "quorum"], isDot s = false ∧ isDotDot s = false := by decide
  obtain ⟨hv, hv'⟩ := hfixed (CodeUnits.ofString "v1") (by simp)
  obtain ⟨hk, hk'⟩ := hfixed (CodeUnits.ofString "critical-operations") (by simp)
  obtain ⟨hq, hq'⟩ := hfixed (CodeUnits.ofString "quorum") (by simp)
  rw [urlSegments, hsplit]
  by_cases hdots : cs = ['.'] ∨ cs = ['.', '.']
  · rw [if_pos hdots]
    obtain ⟨ds, hds, rfl⟩ := encodeURIComponent_eq_some h
    obtain rfl := Option.some.inj (hds.symm.trans hcs)
    rcases hdots with rfl | rfl
    · decide
    · decide
  · rw [if_neg hdots]
    obtain ⟨hone, htwo⟩ := not_or.mp hdots
    have hdot : isDot encoded = false :=
      Bool.eq_false_iff.mpr fun hdot => hone (eq_dot_of_encoded h hcs hdot)
    have hdotDot : isDotDot encoded = false :=
      Bool.eq_false_iff.mpr fun hdot => htwo (eq_dotDot_of_encoded h hcs hdot)
    simp only [walkSegments, hv, hv', hk, hk', hq, hq', hdot, hdotDot, List.nil_append,
      List.cons_append, routedOperation, and_self, if_true, Bool.false_eq_true, if_false]
    exact decode_encodeURIComponent h hcs

theorem not_mem_quorumPath {operationId encoded : CodeUnits}
    (h : PercentEncoding.encodeURIComponent operationId = some encoded) :
    ∀ u ∈ ([63, 35, 92] : CodeUnits), u ∉ quorumPath encoded := by
  have hfixed : ∀ u ∈ ([63, 35, 92] : CodeUnits),
      u ∉ CodeUnits.ofString "/v1/critical-operations/" ∧ u ∉ CodeUnits.ofString "/quorum" := by
    decide
  intro u hu
  simp only [quorumPath, List.mem_append, not_or]
  exact ⟨⟨(hfixed u hu).1, PercentEncoding.not_mem_encodeURIComponent h u
    (List.mem_cons_of_mem _ hu)⟩, (hfixed u hu).2⟩

theorem routed_octets {cs : List Char} {operation : Bytes}
    (h : (if cs = ['.'] ∨ cs = ['.', '.'] then none else some (Json.utf8 cs)) = some operation) :
    operation = Json.utf8 cs := by
  split at h
  · cases h
  · exact (Option.some.inj h).symm

/-- What a call of admin-api is about: the operation of the form of its request. -/
structure AsksAbout (config : ServerConfig) (calls : Caller → Call)
    (e : Executed Caller ServerOp.Resp) (ask : HttpRequest) (operationId : CodeUnits) : Prop where
  sent : e.op = .fetch ask
  adminApi : ask.service = .adminApi
  posted : ∃ request body, calls e.caller = .request request ∧ Posted config request "/quorum" ∧
    readFormBody request = .ok body ∧ required body "operation_id" = .ok operationId

omit [DecidableEq Caller] in
/-- A request has one form, and the form one operation. -/
theorem AsksAbout.unique {e : Executed Caller ServerOp.Resp} {ask ask' : HttpRequest}
    {operationId operationId' : CodeUnits} (h : AsksAbout config calls e ask operationId)
    (h' : AsksAbout config calls e ask' operationId') :
    ask = ask' ∧ operationId = operationId' := by
  obtain ⟨request, body, hcall, -, hbody, hoperation⟩ := h.posted
  obtain ⟨request', body', hcall', -, hbody', hoperation'⟩ := h'.posted
  obtain rfl := Call.request.inj (hcall.symm.trans hcall')
  obtain rfl := Except.ok.inj (hbody.symm.trans hbody')
  exact ⟨ServerOp.fetch.inj (h.sent.symm.trans h'.sent),
    Except.ok.inj (hoperation.symm.trans hoperation')⟩

open PercentEncoding in
theorem asksAbout_of_mem (hc : History (serverWorld Caller) (Serves platform config calls) h c)
    {e : Executed Caller ServerOp.Resp} (he : e ∈ h) {ask : HttpRequest}
    (hsent : e.op = .fetch ask) (hadmin : ask.service = .adminApi) :
    ∃ operationId encoded, AsksAbout config calls e ask operationId ∧
      encodeURIComponent operationId = some encoded ∧ ask.path = quorumPath encoded := by
  obtain ⟨before, after, hh⟩ := List.append_of_mem he
  have hmay := may_of_history hc hh
  rw [hsent] at hmay
  cases hcall : calls e.caller with
  | sweep =>
      rw [hcall] at hmay
      rcases hmay with hmay | ⟨now, hmay⟩ <;> cases hmay
  | request request =>
      rw [hcall] at hmay
      -- only the last of the three services is admin-api
      cases hmay with
      | identityProvider hposted hservice hbare =>
          rw [hservice] at hadmin
          cases hadmin
      | accessBroker hposted hpresented hask =>
          rw [(accessRequest_sent hask).1] at hadmin
          cases hadmin
      | adminApi hposted hpresented hask =>
          obtain ⟨body, encoded, hbody, hoperation, hencoded, hpath⟩ := quorumRequest_names hask
          exact ⟨_, encoded, ⟨hsent, hadmin, request, body, hcall, hposted, hbody, hoperation⟩,
            hencoded, hpath⟩

open PercentEncoding in
/-- **admin-api is asked about the operation of the form and about no other.** In any run,
the path of a request for admin-api that is handed to `fetch` is routed to the octets of the
operation that the form names; an operation called `.` or `..` has no route. So two such
requests that are routed to one operation come from forms that name the same. Where a
redirect would take them after that is up to the answer. -/
theorem operation_asked (hc : History (serverWorld Caller) (Serves platform config calls) h c) :
    (∀ e ∈ h, ∀ ask, e.op = .fetch ask → ask.service = .adminApi →
      ∃ operationId cs, AsksAbout config calls e ask operationId ∧
        toChars operationId = some cs ∧ (∀ u ∈ ([63, 35, 92] : CodeUnits), u ∉ ask.path) ∧
        routedOperation (urlSegments ask.path) =
          if cs = ['.'] ∨ cs = ['.', '.'] then none else some (Json.utf8 cs)) ∧
    ∀ e ∈ h, ∀ e' ∈ h, ∀ ask ask' operationId operationId' operation,
      AsksAbout config calls e ask operationId → AsksAbout config calls e' ask' operationId' →
      routedOperation (urlSegments ask.path) = some operation →
      routedOperation (urlSegments ask'.path) = some operation → operationId = operationId' := by
  have hfirst : ∀ e ∈ h, ∀ ask, e.op = .fetch ask → ask.service = .adminApi →
      ∃ operationId cs, AsksAbout config calls e ask operationId ∧
        toChars operationId = some cs ∧ (∀ u ∈ ([63, 35, 92] : CodeUnits), u ∉ ask.path) ∧
        routedOperation (urlSegments ask.path) =
          if cs = ['.'] ∨ cs = ['.', '.'] then none else some (Json.utf8 cs) := by
    intro e he ask hsent hadmin
    obtain ⟨operationId, encoded, habout, hencoded, hpath⟩ := asksAbout_of_mem hc he hsent hadmin
    obtain ⟨cs, hcs, -⟩ := encodeURIComponent_eq_some hencoded
    refine ⟨operationId, cs, habout, hcs, ?_, ?_⟩
    · rw [hpath]
      exact not_mem_quorumPath hencoded
    · rw [hpath]
      exact routed_quorumPath hencoded hcs
  refine ⟨hfirst, ?_⟩
  intro e he e' he' ask ask' operationId operationId' operation habout habout' hrouted hrouted'
  obtain ⟨named, cs, hnamed, hcs, -, hroute⟩ := hfirst e he ask habout.sent habout.adminApi
  obtain ⟨named', cs', hnamed', hcs', -, hroute'⟩ :=
    hfirst e' he' ask' habout'.sent habout'.adminApi
  have hoctets : operation = Json.utf8 cs := routed_octets (hroute.symm.trans hrouted)
  have hoctets' : operation = Json.utf8 cs' := routed_octets (hroute'.symm.trans hrouted')
  have hchars : cs = cs' := Json.utf8_injective (hoctets.symm.trans hoctets')
  rw [(habout.unique hnamed).2, (habout'.unique hnamed').2, eq_flatMap_of_toChars hcs,
    eq_flatMap_of_toChars hcs', hchars]

/-- Every text is read as the number 2. -/
def quorumPlatform : Platform := { samplePlatform with toNumber := fun _ => .exact 2 }

/-- A form for the operation `clés/1`. -/
def sampleQuorum : Request :=
  samplePost "/quorum" .null
    [("operation_id", "clés/1"), ("threshold", "2"), ("assertions", "AQID"),
      ("expected_authority_domain", "access-broker")]

def quorumCalls : Nat → Call
  | 0 => .request sampleLogin
  | 1 => .request sampleQuorum
  | _ => .sweep

def quorumActs (n : Nat) : List (Executed Nat ServerOp.Resp) :=
  actsOf (W := serverWorld Nat) (fun i => serve quorumPlatform sampleConfig (quorumCalls i))
    sampleAnswered n

/-- Where admin-api is asked. -/
def adminPath (act : ServerAct) : Option CodeUnits :=
  match act.op with
  | .fetch ask => if ask.service = .adminApi then some ask.path else none
  | _ => none

theorem adminPath_eq_some {act : ServerAct} {path : CodeUnits} (h : adminPath act = some path) :
    ∃ ask, act.op = .fetch ask ∧ ask.service = .adminApi ∧ ask.path = path := by
  obtain ⟨op, answer⟩ := act
  cases op with
  | fetch ask =>
      have hpath : (if ask.service = .adminApi then some ask.path else none) = some path := h
      split at hpath
      · rename_i hadmin
        exact ⟨ask, rfl, hadmin, Option.some.inj hpath⟩
      · cases hpath
  | now | create | get | destroy | sweepExpired | readFile => cases h

/-- The slash and the accent of the form's operation do not change what is asked about. -/
theorem operation_asked_sample : ∃ e ask operationId cs, e ∈ quorumActs 2 ∧
    ask.path = CodeUnits.ofString "/v1/critical-operations/cl%C3%A9s%2F1/quorum" ∧
    AsksAbout sampleConfig quorumCalls e ask operationId ∧
    PercentEncoding.toChars operationId = some cs ∧
    routedOperation (PercentEncoding.urlSegments ask.path) =
      if cs = ['.'] ∨ cs = ['.', '.'] then none else some (Json.utf8 cs) := by
  have hserves : ∀ i, Serves quorumPlatform sampleConfig quorumCalls i
      (serve quorumPlatform sampleConfig (quorumCalls i)) := fun _ => rfl
  obtain ⟨c, hc, -⟩ := History.actsOf (W := serverWorld Nat)
    (fun i => serve quorumPlatform sampleConfig (quorumCalls i)) sampleAnswered hserves
    sampleAnswered_exec 2
  have hasked : CodeUnits.ofString "/v1/critical-operations/cl%C3%A9s%2F1/quorum" ∈
      (quorumActs 2).filterMap fun e => adminPath e.toAct := by decide +kernel
  obtain ⟨e, he, hpath⟩ := List.mem_filterMap.mp hasked
  obtain ⟨ask, hsent, hadmin, hpath⟩ := adminPath_eq_some hpath
  obtain ⟨operationId, cs, habout, hcs, -, hrouted⟩ :=
    (operation_asked hc).1 e he ask hsent hadmin
  exact ⟨e, ask, operationId, cs, he, hpath, habout, hcs, hrouted⟩

/-! ## Cookies -/

theorem urlUnits_ne_nil (random : Random32) : Base64.urlUnits random ≠ [] := by
  intro hnil
  have hread := Base64.lenient_urlUnits random
  rw [hnil] at hread
  have hlength := random.property
  rw [← hread] at hlength
  exact absurd hlength (by decide)

/-- What follows the value of the cookie. -/
def cookieAttributes (maxAge : CodeUnits) : CodeUnits :=
  CodeUnits.ofString "; " ++ (CodeUnits.ofString "; ").intercalate
    [CodeUnits.ofString "HttpOnly", CodeUnits.ofString "Secure", CodeUnits.ofString "SameSite=Strict",
      CodeUnits.ofString "Path=/", CodeUnits.ofString "Max-Age=" ++ maxAge]

theorem cookieHeader_eq (value maxAge : CodeUnits) : cookieHeader value maxAge =
    (sessionCookieName ++ CodeUnits.ofString "=") ++ (value ++ cookieAttributes maxAge) := by
  rw [cookieHeader, List.intercalate_cons_cons, cookieAttributes]
  simp only [List.append_assoc]

/-- A cookie that names a session is not the one that clears. -/
theorem setCookie_ne_clear (random : Random32) (maxAge : CodeUnits) :
    setCookieHeader (Base64.urlUnits random) maxAge ≠ clearCookieHeader := by
  have hdigits : ∀ n < 64, UInt16.ofNat (Base64.urlDigit n).toNat ≠ 59 := by decide
  rw [setCookieHeader, clearCookieHeader, cookieHeader_eq, cookieHeader_eq]
  intro heq
  have hvalue := List.append_cancel_left heq
  obtain ⟨u, rest, hunits⟩ := List.exists_cons_of_ne_nil (urlUnits_ne_nil random)
  have hu : u ∈ Base64.urlUnits random := hunits ▸ List.mem_cons_self
  -- the value would have to begin with the semicolon
  rw [hunits, List.cons_append, List.nil_append] at hvalue
  have hfirst : u = 59 := List.head_eq_of_cons_eq hvalue
  rw [Base64.urlUnits, Base64.encodeUrlChars_eq] at hu
  obtain ⟨c, hc, rfl⟩ := List.mem_map.mp hu
  obtain ⟨n, hn, rfl⟩ := List.mem_map.mp hc
  exact hdigits n (Base64.sixes_lt hn) hfirst

theorem drawn_append (history later : List Operation) :
    drawn (history ++ later) = drawn history ++ drawn later :=
  List.filterMap_append

/-- Nothing comes to be held of what is not drawn. -/
theorem foldl_onSession_none {random : Random32} (later : List Operation)
    (hfresh : random ∉ drawn later) :
    later.foldl (fun held op => op.onSession Base64.lenient random held) none = none := by
  induction later with
  | nil => rfl
  | cons op later ih =>
      have hhead : op.onSession Base64.lenient random none = none := by
        rw [Option.eq_none_iff_forall_ne_some]
        intro data hdata
        rcases of_onSession Base64.lenient hdata with rfl | ⟨hnone, -⟩
        · exact hfresh (List.mem_cons_self ..)
        · cases hnone
      rw [List.foldl_cons, hhead]
      apply ih
      intro hmem
      apply hfresh
      obtain ⟨op', hop', hdraws⟩ := List.mem_filterMap.mp hmem
      exact List.mem_filterMap.mpr ⟨op', List.mem_cons_of_mem op hop', hdraws⟩

/-- A session that is given up is held no more. -/
theorem held_destroyed {earlier later : List Operation} {id : CodeUnits} {random : Random32}
    (hdistinct : (drawn (earlier ++ .destroy id :: later)).Nodup)
    (hdrawn : random ∈ drawn earlier) (hid : Base64.lenient id = random) :
    held Base64.lenient (earlier ++ .destroy id :: later) random = none := by
  have hfresh : random ∉ drawn later := by
    intro hmem
    rw [drawn_append] at hdistinct
    have hlater : random ∈ drawn (.destroy id :: later) := hmem
    exact (List.nodup_append'.mp hdistinct).2.2 hdrawn hlater
  rw [held_append, List.foldl_cons, Operation.onSession, if_pos hid]
  exact foldl_onSession_none later hfresh

/-- **A session whose cookie has been cleared is gone.** A response that clears the cookie
follows the end of the session its request presents; and the octets of a session that has
ended find nothing any more, whoever presents them in whatever spelling. -/
theorem cleared_is_gone (hc : History (serverWorld Caller) (Serves platform config calls) h c)
    (hdistinct : (drawn (operations h)).Nodup) :
    (∀ i response request id, c.procs i = some (.ret (some response)) →
      response.setCookie = some clearCookieHeader → calls i = .request request →
      sessionIdOf request = some id →
      (⟨⟨.destroy id, ()⟩, i⟩ : Executed Caller ServerOp.Resp) ∈ h) ∧
    ∀ before i id after, h = before ++ ⟨⟨.destroy id, ()⟩, i⟩ :: after →
      ∀ random ∈ drawn (operations before), Base64.lenient id = random →
        ∀ e ∈ after, ∀ id' now found, e.toAct = ⟨.get id' now, found⟩ →
          Base64.lenient id' = random → found = none := by
  constructor
  · intro i response request id hi hclear hcall hcookie
    obtain ⟨request', hcall', hdelivered⟩ := ends_of_history hc hi
    obtain rfl := Call.request.inj (hcall.symm.trans hcall')
    have hfor := hdelivered.cookie _ hclear
    generalize hcookie' : clearCookieHeader = cookie at hfor
    cases hfor with
    | @created data random hcreate => exact absurd hcookie'.symm (setCookie_ne_clear random _)
    | cleared hgone => exact mem_of_mem_ownActs (hgone id hcookie)
  · intro before i id after hh random hdrawn hid e he id' now found hact hid'
    obtain ⟨mid, rest, rfl⟩ := List.append_of_mem he
    have hsplit : h = (before ++ ⟨⟨.destroy id, ()⟩, i⟩ :: mid) ++ e :: rest := by
      rw [hh, List.append_assoc, List.cons_append]
    obtain ⟨sessions, sessions', hexec, hanswers, -⟩ := hc.split hsplit
    obtain ⟨act, caller⟩ := e
    obtain rfl : act = ⟨.get id' now, found⟩ := hact
    have hops : operations (before ++ ⟨⟨.destroy id, ()⟩, i⟩ :: mid) =
        operations before ++ .destroy id :: operations mid := by
      rw [operations_append]
      rfl
    have hholds := holds_run Base64.lenient Base64.lenient_urlUnits
      (operations before ++ .destroy id :: operations mid)
    rw [← hops, ← state_eq_run hexec] at hholds
    cases found with
    | none => rfl
    | some data =>
        have hget : (SessionStore.get Base64.lenient sessions id' now).1.map (·.toSessionData) =
            some data := hanswers.symm
        obtain ⟨random', hread, hheld, -⟩ :=
          (get_of_holds Base64.lenient Base64.lenient_urlUnits hholds id' now data).mp hget
        obtain rfl : random = random' := Subtype.ext (hid'.symm.trans hread)
        rw [hsplit, operations_append, drawn_append] at hdistinct
        have hprefix := (List.nodup_append'.mp hdistinct).1
        rw [hops] at hprefix hheld
        rw [held_destroyed hprefix hdrawn hid] at hheld
        cases hheld

/-- Alice logs out, and her session is given up. -/
theorem cleared_is_gone_logout : ∃ response id,
    sampleResult 2 = some response ∧ response.setCookie = some clearCookieHeader ∧
      sessionIdOf sampleLogout = some id ∧
      (⟨⟨.destroy id, ()⟩, 2⟩ : Executed Nat ServerOp.Resp) ∈ sampleActs 3 := by
  obtain ⟨c, hc, hprocs⟩ := sample_history 3
  have hdistinct : (drawn (operations (sampleActs 3))).Nodup := by decide +kernel
  have hcleared : (sampleResult 2).bind (·.setCookie) = some clearCookieHeader := by decide +kernel
  have hcookie : sessionIdOf sampleLogout = some (Base64.urlUnits sampleRandom) := by
    decide +kernel
  obtain ⟨response, hresult, hset⟩ := Option.bind_eq_some_iff.mp hcleared
  have hi := hprocs 2 (by decide)
  rw [hresult] at hi
  exact ⟨response, _, hresult, hset, hcookie,
    (cleared_is_gone hc hdistinct).1 2 response sampleLogout _ hi hset rfl hcookie⟩

end ZeroSecret.Console.Server
