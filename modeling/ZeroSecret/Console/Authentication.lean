import ZeroSecret.Console.Session
import ZeroSecret.Identity.IssuedAssertions

/-!
# Logins of the console

`handleAuthenticationVerify` of `apps/console-web/src/server.ts` with the client
of identity-provider it calls. A login is a call of identity-provider: the
assertion speaks for the subject of the credential, the session for the subject
that the body names.
-/

namespace ZeroSecret.Console

open Crypto Identity Interleave Webauthn
open IdentityAssertion (WireDocument)

/-- The members of a body that are strings. -/
abbrev Body := String → Option CodeUnits

/-- What is thrown; `status` and `reason` where the error has them. -/
structure Thrown where
  status : Option Nat
  reason : Option String
  message : String

/-- `new BadRequest(message)` -/
def Thrown.badRequest (message : String) : Thrown := ⟨none, none, message⟩

/-- `IdentityProviderError` -/
def Thrown.identityProviderError (status : Nat) (reason : String) : Thrown :=
  ⟨some status, some reason,
    "identity-provider a refusé (" ++ toString status ++ ") : " ++ reason⟩

def requireString (body : Body) (field : String) : Except Thrown CodeUnits :=
  match body field with
  | none => .error (.badRequest ("champ_manquant_ou_invalide:" ++ field))
  | some value =>
      if value.length = 0 then .error (.badRequest ("champ_manquant_ou_invalide:" ++ field))
      else .ok value

inductive Answer
  | verified (sessionId : CodeUnits)
  | refused (status : Nat) (reason : String)

section
variable (fromBase64url : CodeUnits → Bytes)

/-- A field of octets as it is relayed: read leniently, written anew. -/
def relayedField (body : Body) (field : String) : Except Thrown String := do
  let value ← requireString body field
  .ok (Base64.encodeUrl (fromBase64url value))

/-- The request to identity-provider. -/
def relayed (body : Body) : Except Thrown AuthenticationVerifyRequest := do
  let credentialId ← relayedField fromBase64url body "credential_id"
  let clientDataJson ← relayedField fromBase64url body "client_data_json"
  let authenticatorData ← relayedField fromBase64url body "authenticator_data"
  let signature ← relayedField fromBase64url body "signature"
  .ok ⟨credentialId, clientDataJson, authenticatorData, signature⟩

/-- `authenticationVerify` of the client, on what identity-provider answers. A
connection that is closed and an answer without an assertion throw errors
without a status. -/
def assertionOf : Response → Except Thrown Bytes
  | .authenticated assertion => .ok (fromBase64url (CodeUnits.ofString assertion))
  | .refused e => .error (.identityProviderError e.status e.reason)
  | _ => .error ⟨none, none, "fetch failed"⟩

/-- What is known when the session is created: the subject of the body, and the
assertion. -/
def authenticated (body : Except Thrown Body)
    (identityProvider : AuthenticationVerifyRequest → Response) :
    Except Thrown (CodeUnits × Bytes) := do
  let body ← body
  let subjectId ← requireString body "subject_id"
  let request ← relayed fromBase64url body
  let assertion ← assertionOf fromBase64url (identityProvider request)
  .ok (subjectId, assertion)

/-- `expiresAt` is the value of `Date.now() + config.sessionTtlSeconds * 1000`. -/
def handleAuthenticationVerify (body : Except Thrown Body)
    (identityProvider : AuthenticationVerifyRequest → Response) (expiresAt : Number)
    (random : Random32) (sessions : SessionStore) : Answer × SessionStore :=
  match authenticated fromBase64url body identityProvider with
  | .error err =>
      (.refused (err.status.getD 401) (err.reason.getD "authentification_refusee"), sessions)
  | .ok (subjectId, identityAssertion) =>
      let (sessionId, sessions) := sessions.create { subjectId, identityAssertion, expiresAt } random
      (.verified sessionId, sessions)

/-! ## What a login that succeeds went through -/

theorem requireString_eq_ok {body : Body} {field : String} {value : CodeUnits}
    (h : requireString body field = .ok value) : body field = some value := by
  unfold requireString at h
  cases hfield : body field with
  | none =>
      rw [hfield] at h
      cases h
  | some value' =>
      rw [hfield] at h
      dsimp only at h
      split at h
      · cases h
      · rw [Except.ok.inj h]

theorem assertionOf_eq_ok {response : Response} {bytes : Bytes}
    (h : assertionOf fromBase64url response = .ok bytes) :
    ∃ assertion, response = .authenticated assertion ∧
      bytes = fromBase64url (CodeUnits.ofString assertion) := by
  cases response with
  | authenticated assertion => exact ⟨assertion, rfl, (Except.ok.inj h).symm⟩
  | _ => cases h

/-- The credential of the request is the one the body names. -/
theorem credentialId_of_relayed {body : Body} {request : AuthenticationVerifyRequest}
    (h : relayed fromBase64url body = .ok request) :
    ∃ value, body "credential_id" = some value ∧
      request.credentialId = Base64.encodeUrl (fromBase64url value) := by
  obtain ⟨credentialId, hfield, h⟩ := Fallible.bind_eq_ok_iff.mp h
  obtain ⟨clientDataJson, -, h⟩ := Fallible.bind_eq_ok_iff.mp h
  obtain ⟨authenticatorData, -, h⟩ := Fallible.bind_eq_ok_iff.mp h
  obtain ⟨signature, -, h⟩ := Fallible.bind_eq_ok_iff.mp h
  obtain rfl := Except.ok.inj h
  obtain ⟨value, hvalue, hencoded⟩ := Fallible.bind_eq_ok_iff.mp hfield
  exact ⟨value, requireString_eq_ok hvalue, (Except.ok.inj hencoded).symm⟩

/-- A text that is already written as it would be written anew stays. -/
theorem relayedField_of_fixed {body : Body} {field text : String}
    (h : body field = some (CodeUnits.ofString text)) (hne : CodeUnits.ofString text ≠ [])
    (hfixed : Base64.encodeUrl (fromBase64url (CodeUnits.ofString text)) = text) :
    relayedField fromBase64url body field = .ok text := by
  have hrequired : requireString body field = .ok (CodeUnits.ofString text) := by
    rw [requireString, h]
    exact if_neg (mt List.length_eq_zero_iff.mp hne)
  rw [relayedField, hrequired]
  exact congrArg Except.ok hfixed

/-- The session a login created, and the answer it rests on. -/
structure LoggedIn (body : Body) (identityProvider : AuthenticationVerifyRequest → Response)
    (expiresAt : Number) (random : Random32) (sessions sessions' : SessionStore)
    (sessionId : CodeUnits) (data : SessionData) (request : AuthenticationVerifyRequest)
    (assertion : String) : Prop where
  subject : body "subject_id" = some data.subjectId
  relayed : relayed fromBase64url body = .ok request
  answer : identityProvider request = .authenticated assertion
  assertion : data.identityAssertion = fromBase64url (CodeUnits.ofString assertion)
  expiresAt : data.expiresAt = expiresAt
  created : sessions.create data random = (sessionId, sessions')

theorem loggedIn_of_verified {body : Except Thrown Body}
    {identityProvider : AuthenticationVerifyRequest → Response} {expiresAt : Number}
    {random : Random32} {sessions sessions' : SessionStore} {sessionId : CodeUnits}
    (h : handleAuthenticationVerify fromBase64url body identityProvider expiresAt random sessions =
      (.verified sessionId, sessions')) :
    ∃ members data request assertion, body = .ok members ∧
      LoggedIn fromBase64url members identityProvider expiresAt random sessions sessions' sessionId
        data request assertion := by
  unfold handleAuthenticationVerify at h
  cases hauth : authenticated fromBase64url body identityProvider with
  | error err =>
      rw [hauth] at h
      cases h
  | ok result =>
      obtain ⟨subjectId, identityAssertion⟩ := result
      rw [hauth] at h
      obtain ⟨members, hbody, hauth⟩ := Fallible.bind_eq_ok_iff.mp hauth
      obtain ⟨subjectId', hsubject, hauth⟩ := Fallible.bind_eq_ok_iff.mp hauth
      obtain ⟨request, hrequest, hauth⟩ := Fallible.bind_eq_ok_iff.mp hauth
      obtain ⟨bytes, hbytes, hauth⟩ := Fallible.bind_eq_ok_iff.mp hauth
      obtain ⟨assertion, hanswer, rfl⟩ := assertionOf_eq_ok fromBase64url hbytes
      obtain ⟨rfl, rfl⟩ := Prod.mk.inj (Except.ok.inj hauth)
      refine ⟨members, ⟨subjectId', _, expiresAt⟩, request, assertion, hbody,
        requireString_eq_ok hsubject, hrequest, hanswer, rfl, rfl, ?_⟩
      obtain ⟨hid, hstore⟩ := Prod.mk.inj h
      exact Prod.ext (Answer.verified.inj hid) hstore

/-- The session stands under its identifier, alone. -/
theorem session_of_created {sessions sessions' : SessionStore} {data : SessionData}
    {random : Random32} {sessionId : CodeUnits}
    (h : sessions.create data random = (sessionId, sessions')) (session : StoredSession) :
    (sessionId, session) ∈ sessions'.entries ↔ session = { data with id := sessionId } := by
  obtain ⟨rfl, rfl⟩ := Prod.mk.inj h
  rw [ScriptMap.mem_set]
  constructor
  · rintro (heq | ⟨-, hne⟩)
    · exact (Prod.mk.inj heq).2
    · exact absurd rfl hne
  · exact fun heq => Or.inl (congrArg (Prod.mk _) heq)

/-! ## The subject of a session -/

/-- The session of an identifier names the subject that is sealed in its assertion. -/
def NamesSealedSubject (sessions : SessionStore) (sessionId : CodeUnits) : Prop :=
  ∃ session document, (sessionId, session) ∈ sessions.entries ∧
    WireDocument.fromSlice session.identityAssertion = some document ∧
    session.subjectId = CodeUnits.ofString document.subjectId

/-- The body names the subject that is registered with the credential it presents. -/
def NamesRegisteredSubject {Caller : Type} (body : Body) (db : IdentityDb Caller) : Prop :=
  ∃ row ∈ db.authenticators, ∃ credentialId, body "credential_id" = some credentialId ∧
    row.credentialId = fromBase64url credentialId ∧
    body "subject_id" = some (CodeUnits.ofString row.subjectId)

/-- A login of the console is the call `i` of identity-provider. -/
def ServedBy {Caller : Type} {W : World Caller IdentityOp IdentityOp.Resp} (body : Body)
    (identityProvider : AuthenticationVerifyRequest → Response) (calls : Caller → Call)
    (c : Config W Response) (i : Caller) : Prop :=
  ∀ request, relayed fromBase64url body = .ok request →
    calls i = .authenticationVerify request ∧ c.procs i = some (.ret (identityProvider request))

variable {Caller : Type} [DecidableEq Caller] {L : Libraries} {sealer : AuditSeal.AuditSealer}
  {start : Int} {state : AppState} {calls : Caller → Call}
  {h : List (Executed Caller IdentityOp.Resp)}
  {c : Config (identityWorld Caller L.toPrimitives sealer start) Response} {i : Caller}

/-- What is sealed in the assertion of a login: the subject of the credential. -/
theorem document_of_loggedIn (hread : ∀ bytes, fromBase64url (Base64.urlUnits bytes) = bytes)
    (hc : History (identityWorld Caller L.toPrimitives sealer start) (Serves L state calls) h c)
    {body : Body} {identityProvider : AuthenticationVerifyRequest → Response} {expiresAt : Number}
    {random : Random32} {sessions sessions' : SessionStore} {sessionId : CodeUnits}
    {data : SessionData} {request : AuthenticationVerifyRequest} {assertion : String}
    (hserved : ServedBy fromBase64url body identityProvider calls c i)
    (hlogin : LoggedIn fromBase64url body identityProvider expiresAt random sessions sessions'
      sessionId data request assertion) :
    ∃ document credentialId, WireDocument.fromSlice data.identityAssertion = some document ∧
      body "credential_id" = some credentialId ∧
      StoredFor (fromBase64url credentialId) document.subjectId c.state := by
  obtain ⟨hcall, hret⟩ := hserved request hlogin.relayed
  rw [hlogin.answer] at hret
  obtain ⟨req, inputs, challengeSubject, columns, row, claims, eventId, now, sealed_,
    sealedAssertion, signature, l, hcall', hauth, hrow, hissuing, hacts, -, rfl, hdocument⟩ :=
    performed_of_authenticated hc hret
  rw [hcall] at hcall'
  obtain rfl := Call.authenticationVerify.inj hcall'
  have hselected : (⟨.selectAuthenticator inputs.credentialId, .ok (some columns)⟩ :
      IdentityAct) ∈ ownActs i h := by
    rw [hacts]
    simp
  -- the credential survives being read leniently and written anew
  obtain ⟨credentialId, hfield, hrelayed⟩ := credentialId_of_relayed fromBase64url hlogin.relayed
  have hinputs : inputs.credentialId = fromBase64url credentialId := by
    obtain ⟨bytes, hdecoded, hrest⟩ := Fallible.bind_eq_ok_iff.mp hauth.decoded
    obtain ⟨clientDataJson, -, hrest⟩ := Fallible.bind_eq_ok_iff.mp hrest
    obtain ⟨authenticatorData, -, hrest⟩ := Fallible.bind_eq_ok_iff.mp hrest
    obtain ⟨signed, -, hrest⟩ := Fallible.bind_eq_ok_iff.mp hrest
    obtain ⟨presented, -, hrest⟩ := Fallible.bind_eq_ok_iff.mp hrest
    obtain rfl := Except.ok.inj hrest
    rw [hrelayed, b64Decode, Base64.decodeUrl_encodeUrl] at hdecoded
    exact (Except.ok.inj hdecoded).symm
  have hfilled := claimsFilled_of_eq_ok hissuing.claims
  obtain ⟨challenge, -, hceremony⟩ := hauth.ceremony
  obtain ⟨parsed, -, -, rfl⟩ := verifyAuthenticationCeremony_eq_ok_iff.mp hceremony
  have hsubject : sealed_.subjectId.val = row.subjectId := hfilled.subject
  refine ⟨sealed_.toWire state.assertionSealer.keyId signature, credentialId, ?_, hfield, ?_⟩
  · rw [hlogin.assertion, b64Encode, Base64.ofString_encodeUrl, hread]
    exact hdocument
  · change StoredFor _ sealed_.subjectId.val c.state
    rw [hsubject, subjectId_of_authenticatorRow hrow, ← hinputs]
    exact storedFor_of_selected hc hselected

/-- **A session belongs to whoever authenticated exactly when the body says so.** Nothing
compares the subject of the body with the subject of the credential. -/
theorem session_subject_iff (hread : ∀ bytes, fromBase64url (Base64.urlUnits bytes) = bytes)
    (hc : History (identityWorld Caller L.toPrimitives sealer start) (Serves L state calls) h c)
    {body : Body} {identityProvider : AuthenticationVerifyRequest → Response} {expiresAt : Number}
    {random : Random32} {sessions sessions' : SessionStore} {sessionId : CodeUnits}
    (hserved : ServedBy fromBase64url body identityProvider calls c i)
    (hverified : handleAuthenticationVerify fromBase64url (.ok body) identityProvider expiresAt
      random sessions = (.verified sessionId, sessions')) :
    NamesSealedSubject sessions' sessionId ↔ NamesRegisteredSubject fromBase64url body c.state := by
  obtain ⟨members, data, request, assertion, hbody, hlogin⟩ :=
    loggedIn_of_verified fromBase64url hverified
  obtain rfl := Except.ok.inj hbody
  obtain ⟨document, credentialId, hdocument, hcredential, row, hrow, hid, hsubject⟩ :=
    document_of_loggedIn fromBase64url hread hc hserved hlogin
  constructor
  · rintro ⟨session, document', hsession, hdocument', hnames⟩
    obtain rfl := (session_of_created hlogin.created session).mp hsession
    obtain rfl := Option.some.inj (hdocument.symm.trans hdocument')
    refine ⟨row, hrow, credentialId, hcredential, hid, ?_⟩
    rw [hlogin.subject, hsubject]
    exact congrArg some hnames
  · rintro ⟨row', hrow', credentialId', hcredential', hid', hnames⟩
    obtain rfl := Option.some.inj (hcredential.symm.trans hcredential')
    have hsame : row = row' :=
      (authenticatorsOk_execution hc.executes).eq_of_key hrow hrow' (hid.trans hid'.symm)
    refine ⟨_, document, (session_of_created hlogin.created _).mpr rfl, hdocument, ?_⟩
    rw [hlogin.subject] at hnames
    rw [← hsubject, hsame]
    exact Option.some.inj hnames

end

/-! ## A login under another name -/

section Scenario

/-- The login of alice, with a subject named in the body. -/
def sampleBody (subjectId : String) : Body
  | "subject_id" => some (CodeUnits.ofString subjectId)
  | "credential_id" => some (CodeUnits.ofString countingLogin.credentialId)
  | "client_data_json" => some (CodeUnits.ofString countingLogin.clientDataJson)
  | "authenticator_data" => some (CodeUnits.ofString countingLogin.authenticatorData)
  | "signature" => some (CodeUnits.ofString countingLogin.signature)
  | _ => none

theorem sampleBody_fixed :
    ∀ text ∈ [countingLogin.credentialId, countingLogin.clientDataJson,
        countingLogin.authenticatorData, countingLogin.signature],
      CodeUnits.ofString text ≠ [] ∧
      Base64.encodeUrl (Base64.lenient (CodeUnits.ofString text)) = text := by
  simp only [CodeUnits.ofString, ← Json.chars_eq_toList]
  decide +kernel

theorem relayed_sampleBody (subjectId : String) :
    relayed Base64.lenient (sampleBody subjectId) = .ok countingLogin := by
  have hfield : ∀ field text, sampleBody subjectId field = some (CodeUnits.ofString text) →
      text ∈ [countingLogin.credentialId, countingLogin.clientDataJson,
        countingLogin.authenticatorData, countingLogin.signature] →
      relayedField Base64.lenient (sampleBody subjectId) field = .ok text := by
    intro field text hvalue hmem
    obtain ⟨hne, hfixed⟩ := sampleBody_fixed text hmem
    exact relayedField_of_fixed Base64.lenient hvalue hne hfixed
  rw [relayed, hfield "credential_id" _ rfl (by simp), hfield "client_data_json" _ rfl (by simp),
    hfield "authenticator_data" _ rfl (by simp), hfield "signature" _ rfl (by simp)]
  rfl

/-- Identity-provider, called after the three calls that lead up to a login. -/
def sampleIdentityProvider : AuthenticationVerifyRequest → Response :=
  fun _ => sampleResult countingCalls 3

/-- The console logs in, whoever the body names. -/
theorem sampleBody_loggedIn (subjectId : String)
    (hsubject : (CodeUnits.ofString subjectId).length ≠ 0) :
    ∃ h c sessionId sessions',
      History sampleWorld (Serves .standard sampleState countingCalls) h c ∧
      c.state = sampleStateAfter countingCalls 4 ∧
      ServedBy Base64.lenient (sampleBody subjectId) sampleIdentityProvider countingCalls c 3 ∧
      handleAuthenticationVerify Base64.lenient (.ok (sampleBody subjectId)) sampleIdentityProvider
        (.exact 60) sampleRandom .empty = (.verified sessionId, sessions') := by
  obtain ⟨h, c, hc, hstate, hprocs, -⟩ := sample_history countingCalls 4
  obtain ⟨assertion, hresult⟩ := countingCalls_loggedIn
  have hauth : authenticated Base64.lenient (.ok (sampleBody subjectId)) sampleIdentityProvider =
      .ok (CodeUnits.ofString subjectId, Base64.lenient (CodeUnits.ofString assertion)) := by
    have hrequired : requireString (sampleBody subjectId) "subject_id" =
        .ok (CodeUnits.ofString subjectId) := if_neg hsubject
    refine Fallible.bind_eq_ok_iff.mpr ⟨_, rfl, Fallible.bind_eq_ok_iff.mpr ⟨_, hrequired, ?_⟩⟩
    refine Fallible.bind_eq_ok_iff.mpr ⟨_, relayed_sampleBody subjectId, ?_⟩
    rw [sampleIdentityProvider, hresult]
    rfl
  have hserved : ServedBy Base64.lenient (sampleBody subjectId) sampleIdentityProvider
      countingCalls c 3 := by
    intro request hrequest
    rw [relayed_sampleBody] at hrequest
    rw [← Except.ok.inj hrequest, hprocs]
    exact ⟨rfl, rfl⟩
  have hverified := handleAuthenticationVerify.eq_1 Base64.lenient (.ok (sampleBody subjectId))
    sampleIdentityProvider (.exact 60) sampleRandom .empty
  rw [hauth] at hverified
  exact ⟨h, c, _, _, hc, hstate, hserved, hverified⟩

/-- Alice logs in under her own name. -/
theorem session_subject_iff_alice :
    ∃ h c sessionId sessions',
      History sampleWorld (Serves .standard sampleState countingCalls) h c ∧
      handleAuthenticationVerify Base64.lenient (.ok (sampleBody "alice")) sampleIdentityProvider
        (.exact 60) sampleRandom .empty = (.verified sessionId, sessions') ∧
      (NamesSealedSubject sessions' sessionId ↔
        NamesRegisteredSubject Base64.lenient (sampleBody "alice") c.state) := by
  obtain ⟨h, c, sessionId, sessions', hc, -, hserved, hverified⟩ :=
    sampleBody_loggedIn "alice" (by decide)
  exact ⟨h, c, sessionId, sessions', hc, hverified,
    session_subject_iff Base64.lenient Base64.lenient_urlUnits hc hserved hverified⟩

/-- Alice logs in as bob: the page says bob, the assertion says alice. -/
theorem alice_logged_in_as_bob :
    ∃ h c sessionId sessions' session document,
      History sampleWorld (Serves .standard sampleState countingCalls) h c ∧
      ServedBy Base64.lenient (sampleBody "bob") sampleIdentityProvider countingCalls c 3 ∧
      handleAuthenticationVerify Base64.lenient (.ok (sampleBody "bob")) sampleIdentityProvider
        (.exact 60) sampleRandom .empty = (.verified sessionId, sessions') ∧
      (sessionId, session) ∈ sessions'.entries ∧
      WireDocument.fromSlice session.identityAssertion = some document ∧
      session.subjectId = CodeUnits.ofString "bob" ∧ document.subjectId = "alice" ∧
      ¬ NamesSealedSubject sessions' sessionId := by
  obtain ⟨h, c, sessionId, sessions', hc, hstate, hserved, hverified⟩ :=
    sampleBody_loggedIn "bob" (by decide)
  obtain ⟨members, data, request, assertion, hbody, hlogin⟩ :=
    loggedIn_of_verified Base64.lenient hverified
  obtain rfl := Except.ok.inj hbody
  obtain ⟨document, credentialId, hdocument, -, row, hrow, -, hsubject⟩ :=
    document_of_loggedIn Base64.lenient Base64.lenient_urlUnits hc hserved hlogin
  rw [hstate] at hrow
  have halice : document.subjectId = "alice" := by
    rw [← hsubject, countingCalls_subjectId row hrow]
  have hbob : data.subjectId = CodeUnits.ofString "bob" := (Option.some.inj hlogin.subject).symm
  have hsession := session_of_created hlogin.created
  refine ⟨h, c, sessionId, sessions', _, document, hc, hserved, hverified, (hsession _).mpr rfl,
    hdocument, hbob, halice, ?_⟩
  rintro ⟨session, document', hmem, hdocument', hnames⟩
  obtain rfl := (hsession session).mp hmem
  obtain rfl := Option.some.inj (hdocument.symm.trans hdocument')
  rw [hbob, halice] at hnames
  revert hnames
  decide

end Scenario

end ZeroSecret.Console
