import ZeroSecret.Base.History
import ZeroSecret.Base.LexicalPath
import ZeroSecret.Base.PercentEncoding
import ZeroSecret.Console.AssertionsBlock
import ZeroSecret.Console.Authentication
import ZeroSecret.Console.Pages

/-!
# The server of the console

`apps/console-web/src/server.ts` with the clients under `clients/`. A request is
a program over the session store, the clock, the source of random octets, the
backends and the static files; between two of its operations other requests
move. A backend answers what it likes, or not at all. `fetch` is one operation,
of the request it is handed and the response it resolves with: the redirects it
may follow in between, with that request, are part of the answer.

Numbers stay abstract (`Platform`): how they are read, written, and made of a
value that is no string.
-/

namespace ZeroSecret.Console.Server

open Interleave

/-! ## Values -/

structure Platform where
  /-- `Number(text)` -/
  toNumber : CodeUnits → Number
  /-- `JSON.stringify(number)` -/
  numberText : Number → CodeUnits
  /-- `Buffer.from` of a value that is no string. -/
  octetsOf : JsonValue → Option Bytes

/-- `Number.isInteger` -/
def isInteger : Number → Bool
  | .value (some (some x)) => x.isInt
  | _ => false

/-- What is thrown, by its class. -/
inductive Failure
  | badRequest (message : CodeUnits)
  | identityProviderError (status : Nat) (reason : CodeUnits)
  | accessBrokerAuthError (reason : CodeUnits)
  | adminApiError (status : Nat) (reason : CodeUnits)
  | other
deriving DecidableEq

namespace Failure

def status : Failure → Option Nat
  | identityProviderError status _ => some status
  | adminApiError status _ => some status
  | _ => none

def reason : Failure → Option CodeUnits
  | identityProviderError _ reason => some reason
  | accessBrokerAuthError reason => some reason
  | adminApiError _ reason => some reason
  | _ => none

end Failure

/-- The members of an object; of a name written twice the last one counts. -/
def memberOf (members : List (CodeUnits × JsonValue)) (name : String) : Option JsonValue :=
  (members.reverse.find? fun m => m.1 = CodeUnits.ofString name).map Prod.snd

/-- `json[name]`; `null` has no members to look at. -/
def member (json : JsonValue) (name : String) : Except Failure (Option JsonValue) :=
  match json with
  | .null => .error .other
  | .object members => .ok (memberOf members name)
  | _ => .ok none

/-- `typeof value === "string"` -/
def asString : Option JsonValue → Option CodeUnits
  | some (.string value) => some value
  | _ => none

/-- `Array.isArray(value) ? value : []` -/
def asArray : Option JsonValue → List JsonValue
  | some (.array elements) => elements
  | _ => []

/-- `Boolean(value)` -/
def truthy : Option JsonValue → Bool
  | none => false
  | some .null => false
  | some (.bool b) => b
  | some (.number text) => text ≠ CodeUnits.ofString "0"
  | some (.string value) => value ≠ []
  | some _ => true

/-- The members that are strings; `body?.[field]` of anything but an object is undefined. -/
def bodyOf : JsonValue → Body
  | .object members => fun field => asString (memberOf members field)
  | _ => fun _ => none

def formBody (pairs : List (CodeUnits × CodeUnits)) : Body := fun field =>
  (pairs.reverse.find? fun p => p.1 = CodeUnits.ofString field).map Prod.snd

/-- `requireString`; all it throws is a `BadRequest`. -/
def required (body : Body) (field : String) : Except Failure CodeUnits :=
  (requireString body field).mapError fun err => .badRequest (CodeUnits.ofString err.message)

/-- `b64urlToBytes(requireString(body, field))` -/
def requiredBytes (body : Body) (field : String) : Except Failure Bytes := do
  let value ← required body field
  .ok (Base64.lenient value)

/-! ## Backends -/

inductive Service
  | identityProvider
  | accessBroker
  | adminApi
deriving DecidableEq

/-- A `POST` of a JSON body, as `fetch` is handed it. -/
structure HttpRequest where
  service : Service
  path : CodeUnits
  identityAssertion : Option CodeUnits
  body : JsonValue

/-- What `fetch` resolves with, behind any redirects. -/
structure HttpAnswer where
  status : Nat
  statusText : CodeUnits
  /-- What the body is read as, if it is JSON. -/
  json : Option JsonValue

namespace HttpAnswer

def ok (answer : HttpAnswer) : Bool := 200 ≤ answer.status && answer.status ≤ 299

/-- `await response.json().catch(() => ({}))` -/
def body (answer : HttpAnswer) : JsonValue := answer.json.getD (.object [])

/-- `typeof json["reason"] === "string" ? json["reason"] : response.statusText` -/
def reason (answer : HttpAnswer) : Except Failure CodeUnits := do
  let reason ← member answer.body "reason"
  .ok ((asString reason).getD answer.statusText)

end HttpAnswer

def objectOf (members : List (String × JsonValue)) : JsonValue :=
  .object (members.map fun m => (CodeUnits.ofString m.1, m.2))

/-- A field of octets, in standard base64. -/
def standardField (bytes : Bytes) : JsonValue := .string (base64Units bytes)

/-- A field of octets, in base64url. -/
def urlField (bytes : Bytes) : JsonValue := .string (Base64.urlUnits bytes)

section
variable (platform : Platform)

/-- `b64urlDecode(value as string)` -/
def b64urlDecode : Option JsonValue → Except Failure Bytes
  | some (.string value) => .ok (Base64.lenient value)
  | some value => Fallible.okOr .other (platform.octetsOf value)
  | none => .error .other

/-- `post` of the client of identity-provider, once it is answered. No answer: `fetch`
throws. -/
def posted : Option HttpAnswer → Except Failure JsonValue
  | none => .error .other
  | some answer =>
      if answer.ok then .ok answer.body
      else do
        let reason ← answer.reason
        .error (.identityProviderError answer.status reason)

def toIdentityProvider (path : String) (body : List (String × JsonValue)) : HttpRequest where
  service := .identityProvider
  path := CodeUnits.ofString path
  identityAssertion := none
  body := objectOf body

/-- The members that are there, as `JSON.stringify` writes them. -/
def defined (members : List (String × Option JsonValue)) : JsonValue :=
  objectOf (members.filterMap fun m => m.2.map (Prod.mk m.1))

def registrationChallengeOf (answer : Option HttpAnswer) : Except Failure JsonValue := do
  let json ← posted answer
  let challenge ← member json "challenge"
  let rpId ← member json "rp_id"
  let expiresAt ← member json "expires_at"
  .ok (defined [("challenge", challenge), ("rpId", rpId), ("expiresAt", expiresAt)])

def credentialIdOf (answer : Option HttpAnswer) : Except Failure Bytes := do
  let json ← posted answer
  let credentialId ← member json "credential_id"
  b64urlDecode platform credentialId

/-- `(json["allow_credentials"] as string[]).map(b64urlDecode)` -/
def allowCredentialsOf : Option JsonValue → Except Failure (List Bytes)
  | some (.array elements) => elements.mapM fun v => b64urlDecode platform (some v)
  | _ => .error .other

structure AuthenticationChallenge where
  challenge : Option JsonValue
  rpId : Option JsonValue
  expiresAt : Option JsonValue
  allowCredentials : List Bytes

def authenticationChallengeOf (answer : Option HttpAnswer) :
    Except Failure AuthenticationChallenge := do
  let json ← posted answer
  let challenge ← member json "challenge"
  let rpId ← member json "rp_id"
  let expiresAt ← member json "expires_at"
  let allowed ← member json "allow_credentials"
  let allowCredentials ← allowCredentialsOf platform allowed
  .ok ⟨challenge, rpId, expiresAt, allowCredentials⟩

def authenticationChallengeJson (subjectId : CodeUnits) (outcome : AuthenticationChallenge) :
    JsonValue :=
  defined [("challenge", outcome.challenge), ("rp_id", outcome.rpId),
    ("expires_at", outcome.expiresAt),
    ("allow_credentials", some (.array (outcome.allowCredentials.map urlField))),
    ("subject_id", some (.string subjectId))]

def assertionOf (answer : Option HttpAnswer) : Except Failure Bytes := do
  let json ← posted answer
  let assertion ← member json "assertion"
  b64urlDecode platform assertion

/-- The elements, as they are shown; `String` of one may throw. -/
def shown (elements : List JsonValue) : Except Failure (List Value) :=
  Fallible.okOr .other (Value.ofJsons elements)

/-- `requestAccess`, once it is answered, and what its page shows of the decision: both are in
one `try`. -/
def decisionOf : Option HttpAnswer → Except Failure Decision
  | none => .error .other
  | some answer =>
      if answer.status = 401 then do
        let reason ← answer.reason
        .error (.accessBrokerAuthError reason)
      else if answer.ok then do
        let policyVersion ← member answer.body "policy_version"
        let allowed ← member answer.body "allowed"
        let reasons ← member answer.body "reasons"
        let reasons ← shown (asArray reasons)
        .ok { allowed := truthy allowed
              reasons := reasons
              policyVersion := asString policyVersion }
      else .error .other

/-- `requestQuorum`, once it is answered, and what its page shows. -/
def quorumResultOf : Option HttpAnswer → Except Failure QuorumResult
  | none => .error .other
  | some answer =>
      if answer.ok then do
        let reached ← member answer.body "reached"
        let distinctSubjects ← member answer.body "distinct_subjects"
        let distinctSubjects ← shown (asArray distinctSubjects)
        .ok { reached := truthy reached
              distinctSubjects := distinctSubjects }
      else do
        let reason ← answer.reason
        .error (.adminApiError answer.status reason)

end

/-! ## Requests and responses -/

structure Request where
  method : String
  pathname : String
  secFetchSite : Option CodeUnits
  origin : Option CodeUnits
  cookie : Option CodeUnits
  /-- What the body is read as, an empty one as `{}`. -/
  json : Option JsonValue
  /-- The pairs of the body as a form. -/
  form : Option (List (CodeUnits × CodeUnits))

inductive Content
  | empty
  | json (value : JsonValue)
  | page (page : Page)
  | file (contentType : String) (data : Bytes)

structure Response where
  status : Nat
  location : Option String
  setCookie : Option CodeUnits
  content : Content

/-- `expiresAt now` is `now + sessionTtlSeconds * 1000`, `maxAge` the text of
`sessionTtlSeconds`. -/
structure ServerConfig where
  origin : CodeUnits
  expectedAuthorityDomain : CodeUnits
  expiresAt : Number → Number
  maxAge : CodeUnits
  publicDir : List Char

def send (status : Nat) (body : List (String × JsonValue)) : Response :=
  ⟨status, none, none, .json (objectOf body)⟩

def sendPage (page : Page) (status : Nat) : Response := ⟨status, none, none, .page page⟩

def redirect : Response := ⟨302, some "/login", none, .empty⟩

def text (s : String) : JsonValue := .string (CodeUnits.ofString s)

def readBody (request : Request) : Except Failure JsonValue := Fallible.okOr .other request.json

def readFormBody (request : Request) : Except Failure Body :=
  (Fallible.okOr .other request.form).map formBody

/-! ### Cookies -/

def sessionCookieName : CodeUnits := CodeUnits.ofString "__Host-session"

def cookieHeader (value maxAge : CodeUnits) : CodeUnits :=
  (CodeUnits.ofString "; ").intercalate
    [sessionCookieName ++ CodeUnits.ofString "=" ++ value, CodeUnits.ofString "HttpOnly",
      CodeUnits.ofString "Secure", CodeUnits.ofString "SameSite=Strict", CodeUnits.ofString "Path=/",
      CodeUnits.ofString "Max-Age=" ++ maxAge]

def setCookieHeader (sessionId maxAge : CodeUnits) : CodeUnits := cookieHeader sessionId maxAge

def clearCookieHeader : CodeUnits := cookieHeader [] (CodeUnits.ofString "0")

/-- The name and the value of a part of the header. -/
def cookiePart (part : CodeUnits) : CodeUnits × CodeUnits :=
  let pieces := (trim part).splitOn 61
  (pieces.headD [], [61].intercalate pieces.tail)

/-- An empty header is no header, and an empty identifier none. -/
def readSessionCookie (header : Option CodeUnits) : Option CodeUnits :=
  header.bind fun header =>
    (((header.splitOn 59).map cookiePart).find? fun part => part.1 = sessionCookieName).map Prod.snd

/-- The identifier a request presents: `""` is none. -/
def sessionIdOf (request : Request) : Option CodeUnits :=
  (readSessionCookie request.cookie).filter fun id => id ≠ []

def isSameOrigin (request : Request) (expectedOrigin : CodeUnits) : Bool :=
  if request.secFetchSite = some (CodeUnits.ofString "same-origin") ∨
      request.secFetchSite = some (CodeUnits.ofString "none") then true
  else match request.origin with
    | some origin => origin = expectedOrigin
    | none => false

/-! ## Programs -/

inductive ServerOp
  | now
  | create (data : SessionData)
  | get (id : CodeUnits) (now : Number)
  | destroy (id : CodeUnits)
  | sweepExpired (now : Number)
  | fetch (request : HttpRequest)
  | readFile (path : List Char)

/-- A session is created with the octets `randomBytes` draws. -/
def ServerOp.Resp : ServerOp → Type
  | now => Number
  | create _ => Random32
  | get _ _ => Option SessionData
  | destroy _ => Unit
  | sweepExpired _ => Nat
  | fetch _ => Option HttpAnswer
  | readFile _ => Option Bytes

abbrev ServerProg (α : Type) := Prog ServerOp ServerOp.Resp α

def now : ServerProg Number := Prog.perform ServerOp.now

def fetch (request : HttpRequest) : ServerProg (Option HttpAnswer) :=
  Prog.perform (ServerOp.fetch request)

/-- `sessions.create(data)` -/
def createSession (data : SessionData) : ServerProg CodeUnits :=
  .call (.create data) fun random : Random32 => .ret (Base64.urlUnits random)

/-- `sessions.get(id)`, by the clock. -/
def getSession (id : CodeUnits) : ServerProg (Option SessionData) := do
  let now ← now
  Prog.perform (ServerOp.get id now)

def destroySession (id : CodeUnits) : ServerProg Unit := Prog.perform (ServerOp.destroy id)

def requireSession (request : Request) : ServerProg (Option SessionData) :=
  match sessionIdOf request with
  | none => .ret none
  | some id => getSession id

/-- The `catch` of `handleJson`. -/
def jsonRefusal : Failure → Response
  | .badRequest message => send 400 [("reason", .string message)]
  | err => send (err.status.getD 502)
      [("reason", .string (err.reason.getD (CodeUnits.ofString "requete_refusee")))]

/-- What a `try` asks of a backend: the request, with what is kept of the body, and what is
read off the answer. -/
def attempt {κ α : Type} (ask : Except Failure (κ × HttpRequest))
    (result : Option HttpAnswer → Except Failure α) : ServerProg (Except Failure (κ × α)) :=
  match ask with
  | .error err => .ret (.error err)
  | .ok (kept, ask) => do
      let answer ← fetch ask
      .ret ((result answer).map (Prod.mk kept))

/-- `handleJson`, for a handler that makes one request of a backend. -/
def handleJson {κ α : Type} (ask : Except Failure (κ × HttpRequest))
    (result : Option HttpAnswer → Except Failure α) (json : κ → α → JsonValue) :
    ServerProg Response := do
  match ← attempt ask result with
  | .error err => .ret (jsonRefusal err)
  | .ok (kept, outcome) => .ret ⟨200, none, none, .json (json kept outcome)⟩

/-- Both challenges are asked for with the subject alone. -/
def challengeRequest (path : String) (request : Request) :
    Except Failure (CodeUnits × HttpRequest) := do
  let body ← readBody request
  let subjectId ← required (bodyOf body) "subject_id"
  .ok (subjectId, toIdentityProvider path [("subject_id", .string subjectId)])

def registrationChallenge (request : Request) : ServerProg Response :=
  handleJson (challengeRequest "/v1/webauthn/registration/challenge" request) registrationChallengeOf
    fun _ json => json

section
variable (platform : Platform) (config : ServerConfig)

def attestation (request : Request) : Except Failure (Unit × HttpRequest) := do
  let body ← readBody request
  let clientDataJson ← requiredBytes (bodyOf body) "client_data_json"
  let attestationObject ← requiredBytes (bodyOf body) "attestation_object"
  .ok ((), toIdentityProvider "/v1/webauthn/registration/verify"
    [("client_data_json", urlField clientDataJson),
      ("attestation_object", urlField attestationObject)])

def registrationVerify (request : Request) : ServerProg Response :=
  handleJson (attestation request) (credentialIdOf platform) fun _ credentialId =>
    objectOf [("credential_id", urlField credentialId)]

def authenticationChallenge (request : Request) : ServerProg Response :=
  handleJson (challengeRequest "/v1/webauthn/authentication/challenge" request)
    (authenticationChallengeOf platform) authenticationChallengeJson

/-- The subject that the body names, and the request to identity-provider. -/
def verification (request : Request) : Except Failure (CodeUnits × HttpRequest) := do
  let body ← readBody request
  let subjectId ← required (bodyOf body) "subject_id"
  let credentialId ← requiredBytes (bodyOf body) "credential_id"
  let clientDataJson ← requiredBytes (bodyOf body) "client_data_json"
  let authenticatorData ← requiredBytes (bodyOf body) "authenticator_data"
  let signature ← requiredBytes (bodyOf body) "signature"
  .ok (subjectId, toIdentityProvider "/v1/webauthn/authentication/verify"
    [("credential_id", urlField credentialId), ("client_data_json", urlField clientDataJson),
      ("authenticator_data", urlField authenticatorData), ("signature", urlField signature)])

/-- The `catch` of `handleAuthenticationVerify`. -/
def authenticationRefusal (err : Failure) : Response :=
  send (err.status.getD 401)
    [("reason", .string (err.reason.getD (CodeUnits.ofString "authentification_refusee")))]

def handleAuthenticationVerify (request : Request) : ServerProg Response := do
  match ← attempt (verification request) (assertionOf platform) with
  | .error err => .ret (authenticationRefusal err)
  | .ok (subjectId, identityAssertion) => do
      let now ← now
      let sessionId ←
        createSession { subjectId, identityAssertion, expiresAt := config.expiresAt now }
      .ret { send 200 [("redirect", text "/access-request")] with
        setCookie := some (setCookieHeader sessionId config.maxAge) }

def handleAccessRequestPage (request : Request) : ServerProg Response := do
  match ← requireSession request with
  | none => .ret redirect
  | some session => .ret (sendPage (.accessRequest session.subjectId) 200)

/-- What is asked of access-broker, under the assertion of the session. -/
def accessRequest (identityAssertion : Bytes) (request : Request) :
    Except Failure (Unit × HttpRequest) := do
  let body ← readFormBody request
  let verb ← required body "verb"
  let type ← required body "resource_type"
  let id ← required body "resource_id"
  let authorityDomain ← required body "resource_authority_domain"
  let justification ← required body "justification"
  let ticketRef ← required body "ticket_ref"
  .ok ((),
    { service := .accessBroker
      path := CodeUnits.ofString "/v1/access-requests"
      identityAssertion := some (base64Units identityAssertion)
      body := objectOf [("verb", .string verb),
        ("resource", objectOf [("type", .string type), ("id", .string id),
          ("authority_domain", .string authorityDomain)]),
        ("justification", .string justification), ("ticket_ref", .string ticketRef),
        ("expected_authority_domain", .string config.expectedAuthorityDomain)] })

/-- The `catch` of `handleAccessRequestSubmit`. On an `AccessBrokerAuthError` the session
goes before the cookie does. -/
def accessRefusal (sessionId : CodeUnits) : Failure → ServerProg Response
  | .accessBrokerAuthError _ => do
      destroySession sessionId
      .ret { redirect with setCookie := some clearCookieHeader }
  | .badRequest message => .ret (sendPage (.requestRefused message) 400)
  | _ => .ret (sendPage .brokerUnavailable 502)

def handleAccessRequestSubmit (request : Request) : ServerProg Response :=
  match sessionIdOf request with
  | none => .ret redirect
  | some sessionId => do
      match ← getSession sessionId with
      | none => .ret redirect
      | some session =>
          match ← attempt (accessRequest config session.identityAssertion request) decisionOf with
          | .error err => accessRefusal sessionId err
          | .ok (_, decision) =>
              .ret (sendPage (.accessDecision session.subjectId decision) 200)

def handleQuorumPage (request : Request) : ServerProg Response := do
  match ← requireSession request with
  | none => .ret redirect
  | some _ => .ret (sendPage .quorum 200)

/-- The operation that the form names, and what is asked of admin-api. -/
def quorumRequest (identityAssertion : Bytes) (request : Request) :
    Except Failure (CodeUnits × HttpRequest) := do
  let body ← readFormBody request
  let operationId ← required body "operation_id"
  let thresholdRaw ← required body "threshold"
  let threshold := platform.toNumber thresholdRaw
  Fallible.require (isInteger threshold)
    (.badRequest (CodeUnits.ofString "champ_manquant_ou_invalide:threshold"))
  let block ← required body "assertions"
  let assertions ← (parseAssertionsBlock block).mapError fun message =>
    .badRequest (CodeUnits.ofString message)
  let authorityDomain ← required body "expected_authority_domain"
  -- `encodeURIComponent` throws on a text that is not well formed
  let encoded ← Fallible.okOr .other (PercentEncoding.encodeURIComponent operationId)
  .ok (operationId,
    { service := .adminApi
      path := CodeUnits.ofString "/v1/critical-operations/" ++ encoded ++ CodeUnits.ofString "/quorum"
      identityAssertion := some (base64Units identityAssertion)
      body := objectOf [("assertions", .array (assertions.map standardField)),
        ("threshold", .number (platform.numberText threshold)),
        ("expected_authority_domain", .string authorityDomain)] })

/-- The `catch` of `handleQuorumSubmit`. -/
def quorumRefusal : Failure → Response
  | .adminApiError status reason => sendPage (.quorumRefused reason) status
  | .badRequest message => sendPage (.quorumInvalid message) 400
  | _ => sendPage .adminUnavailable 502

def handleQuorumSubmit (request : Request) : ServerProg Response := do
  match ← requireSession request with
  | none => .ret redirect
  | some session =>
      match ← attempt (quorumRequest platform session.identityAssertion request) quorumResultOf with
      | .error err => .ret (quorumRefusal err)
      | .ok (operationId, result) => .ret (sendPage (.quorumResult operationId result) 200)

def handleLogout (request : Request) : ServerProg Response := do
  let _ ← (match sessionIdOf request with
    | none => .ret ()
    | some sessionId => destroySession sessionId : ServerProg Unit)
  .ret { send 200 [("ok", .bool true)] with setCookie := some clearCookieHeader }

/-! ### Static files -/

/-- `rel.includes("..")` -/
def includesDots : List Char → Bool
  | [] => false
  | c :: rest => (c = '.' && rest.head? = some '.') || includesDots rest

def staticPrefix : List Char := "/static/".toList

/-- `pathname.replace(/^\/static\//, "")` -/
def relOf (pathname : String) : List Char := pathname.toList.drop staticPrefix.length

def contentTypeOf (rel : List Char) : String :=
  if ".js".toList.isSuffixOf rel then "text/javascript" else "application/octet-stream"

def serveStatic (pathname : String) (publicDir : List Char) : ServerProg Response :=
  let rel := relOf pathname
  if includesDots rel ∨ rel.head? = some '/' then
    .ret (send 400 [("reason", text "chemin_invalide")])
  else do
    let data ← (Prog.perform (ServerOp.readFile (LexicalPath.joinPaths [publicDir, rel])) :
      ServerProg (Option Bytes))
    .ret (match data with
      | some data => ⟨200, none, none, .file (contentTypeOf rel) data⟩
      | none => send 404 [("reason", text "introuvable")])

/-! ### The router -/

def handleGet (request : Request) : ServerProg Response :=
  if request.pathname = "/register" then .ret (sendPage .register 200)
  else if request.pathname = "/login" then .ret (sendPage .login 200)
  else if request.pathname = "/access-request" then handleAccessRequestPage request
  else if request.pathname = "/quorum" then handleQuorumPage request
  else if staticPrefix.isPrefixOf request.pathname.toList then
    serveStatic request.pathname config.publicDir
  else .ret (send 404 [("reason", text "introuvable")])

def handlePost (request : Request) : ServerProg Response :=
  if request.pathname = "/api/webauthn/registration/challenge" then registrationChallenge request
  else if request.pathname = "/api/webauthn/registration/verify" then
    registrationVerify platform request
  else if request.pathname = "/api/webauthn/authentication/challenge" then
    authenticationChallenge platform request
  else if request.pathname = "/api/webauthn/authentication/verify" then
    handleAuthenticationVerify platform config request
  else if request.pathname = "/access-request" then handleAccessRequestSubmit config request
  else if request.pathname = "/quorum" then handleQuorumSubmit platform request
  else if request.pathname = "/logout" then handleLogout request
  else .ret (send 404 [("reason", text "introuvable")])

/-- `handle`: a `POST` from elsewhere is refused before anything else. -/
def handle (request : Request) : ServerProg Response :=
  if request.method = "POST" ∧ isSameOrigin request config.origin = false then
    .ret (send 403 [("reason", text "origine_inattendue")])
  else if request.method = "GET" then handleGet config request
  else if request.method = "POST" then handlePost platform config request
  else .ret (send 404 [("reason", text "introuvable")])

/-! ## The system -/

/-- What moves: a request, or the timer of the session store. -/
inductive Call
  | request (request : Request)
  | sweep

def serve : Call → ServerProg (Option Response)
  | .request request => some <$> handle platform config request
  | .sweep => do
      let now ← now
      let _ ← (Prog.perform (ServerOp.sweepExpired now) : ServerProg Nat)
      .ret none

end

/-- The operation on the session store, with the octets that were drawn. -/
def operationOf : (op : ServerOp) → op.Resp → Option Operation
  | .create data, random => some (.create data random)
  | .get id now, _ => some (.get id now)
  | .destroy id, _ => some (.destroy id)
  | .sweepExpired now, _ => some (.sweepExpired now)
  | _, _ => none

/-- What the session store answers; the answers of everything else are free. -/
def Answers (sessions : SessionStore) : (op : ServerOp) → op.Resp → Prop
  | .get id now, found =>
      found = (sessions.get Base64.lenient id now).1.map (·.toSessionData)
  | .sweepExpired now, removed => removed = (sessions.sweepExpired now).1
  | _, _ => True

def after (sessions : SessionStore) (op : ServerOp) (answer : op.Resp) : SessionStore :=
  (operationOf op answer).elim sessions (·.step Base64.lenient sessions)

def serverWorld (Caller : Type) : World Caller ServerOp ServerOp.Resp where
  State := SessionStore
  init := .empty
  exec := fun _ op sessions answer sessions' =>
    Answers sessions op answer ∧ sessions' = after sessions op answer

def Serves {Caller : Type} (platform : Platform) (config : ServerConfig) (calls : Caller → Call)
    (i : Caller) (p : ServerProg (Option Response)) : Prop :=
  p = serve platform config (calls i)

/-- The operations on the session store, in their order. -/
def operations {Caller : Type} (h : List (Executed Caller ServerOp.Resp)) : List Operation :=
  h.filterMap fun e => operationOf e.op e.answer

variable {Caller : Type}

theorem operations_append (h h' : List (Executed Caller ServerOp.Resp)) :
    operations (h ++ h') = operations h ++ operations h' :=
  List.filterMap_append

/-- The session store is what its operations have made of it. -/
theorem state_eq_run {h : List (Executed Caller ServerOp.Resp)} {sessions : SessionStore}
    (hh : Execution (serverWorld Caller) h sessions) :
    sessions = run Base64.lenient (operations h) := by
  refine hh.invariant (I := fun h s => s = run Base64.lenient (operations h)) rfl ?_
  rintro h s s' e rfl ⟨-, rfl⟩
  rw [after, operations_append]
  cases hop : operationOf e.op e.answer with
  | none =>
      have hnone : operations [e] = [] := by simp [operations, hop]
      rw [hnone, List.append_nil]
      rfl
  | some op =>
      have hone : operations [e] = [op] := by simp [operations, hop]
      rw [hone, run_snoc]
      rfl

end ZeroSecret.Console.Server
