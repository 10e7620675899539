import ZeroSecret.Platform.Exemption

/-!
# `compose.rego`: the conformity of a Compose file

Each body of `violation` is a `Rule`: what it finds, by service, and whether a
finding is dropped where the service is exempted. The violations are a set,
held in a list; `-` stands for the file as a whole.
-/

namespace ZeroSecret.Platform

open Rego

structure Violation where
  rule : String
  service : String
  detail : String
  severity : String
deriving DecidableEq

def severity : List (String × String) :=
  [("PLT-000", "high"), ("PLT-001", "critical"), ("PLT-002", "high"), ("PLT-003", "critical"),
    ("PLT-004", "medium"), ("PLT-005", "high"), ("PLT-006", "medium")]

def viol (ruleId service detail : String) : Violation where
  rule := ruleId
  service := service
  detail := detail
  severity := (severity.lookup ruleId).getD "high"

/-- A body of `violation`. -/
structure Rule where
  id : String
  /-- It asks for `not exempted(id, service)`. -/
  exemptable : Bool
  findings : Builtins → Value → List (String × String)

def Rule.violations (r : Rule) (B : Builtins) (input : Value) : List Violation :=
  ((r.findings B input).filter fun finding =>
    !(r.exemptable && exempted input r.id finding.1)).map fun finding =>
      viol r.id finding.1 finding.2

/-! ## Access to the input -/

/-- `some name, svc in service_objects` -/
def inServices (input : Value) (details : Value → List String) : List (String × String) :=
  (serviceObjects input).flatMap fun service => (details service.2).map fun detail =>
    (service.1, detail)

/-- The elements of `array_field(svc, field)`. -/
def arrayField (svc : Value) (field : String) : List Value := (svc.getArray field).getD []

def hasKey (svc : Value) (k : String) : Bool := (svc.get k).isSome

/-! ## PLT-000: what cannot be analysed -/

def composeIsObject (input : Value) : Bool := (input.getObject "compose").isSome

def servicesIsObject (input : Value) : Bool := (services input).isSome

def composeUnreadable : Rule where
  id := "PLT-000"
  exemptable := false
  findings _ input :=
    if composeIsObject input then [] else [("-", "input.compose absent ou de type inattendu")]

def servicesUnreadable : Rule where
  id := "PLT-000"
  exemptable := false
  findings _ input :=
    if composeIsObject input && !servicesIsObject input then
      [("-", "input.compose.services absent ou de type inattendu")]
    else []

def noService : Rule where
  id := "PLT-000"
  exemptable := false
  findings _ input :=
    if (services input).any (·.isEmpty) then
      [("-", "aucun service décrit : entrée vide, refus par défaut")]
    else []

def contextIncomplete : Rule where
  id := "PLT-000"
  exemptable := false
  findings _ input :=
    if validContext input then []
    else [("-", "contexte d'évaluation incomplet : context.evaluated_at (AAAA-MM-JJ) et context.environment requis")]

def serviceUnreadable : Rule where
  id := "PLT-000"
  exemptable := false
  findings _ input :=
    (((services input).getD []).filter fun service => !service.2.isObject).map fun service =>
      (service.1, "définition de service illisible pour '" ++ service.1 ++ "'")

def imageMissing : Rule where
  id := "PLT-000"
  exemptable := false
  findings _ input := inServices input fun svc =>
    if hasKey svc "image" then []
    else ["service sans 'image' : hors périmètre de ce lot, refus par défaut"]

/-- The kinds of `type_ok`. -/
inductive FieldType
  | array
  | string
  | object
  | boolean
  | arrayOrString
  | objectOrArray
deriving DecidableEq

def expectedTypes : List (String × FieldType) :=
  [("cap_add", .array), ("command", .arrayOrString), ("devices", .array),
    ("entrypoint", .arrayOrString), ("env_file", .arrayOrString),
    ("environment", .objectOrArray), ("image", .string), ("ipc", .string), ("labels", .object),
    ("network_mode", .string), ("pid", .string), ("ports", .array), ("privileged", .boolean),
    ("security_opt", .array), ("userns_mode", .string), ("volumes", .array)]

def typeOk : FieldType → Value → Bool
  | .array, x => x.isArray
  | .string, x => x.isString
  | .object, x => x.isObject
  | .boolean, x => x.isBoolean
  | .arrayOrString, x => x.isArray || x.isString
  | .objectOrArray, x => x.isObject || x.isArray

def unexpectedType : Rule where
  id := "PLT-000"
  exemptable := false
  findings _ input := inServices input fun svc =>
    (expectedTypes.filter fun field => (svc.get field.1).any fun value => !typeOk field.2 value).map
      fun field =>
        "champ '" ++ field.1 ++ "' de type inattendu : analyse impossible, refus par défaut"

def portUnread : Rule where
  id := "PLT-000"
  exemptable := false
  findings B input := inServices input fun svc =>
    ((arrayField svc "ports").filter fun entry => !entry.isString && !entry.isObject).map
      fun entry => "entrée de 'ports' de forme non reconnue : " ++ B.format entry

def volumeUnread : Rule where
  id := "PLT-000"
  exemptable := false
  findings B input := inServices input fun svc =>
    ((arrayField svc "volumes").filter fun entry => !entry.isString).map fun entry =>
      "entrée de 'volumes' de forme non reconnue (forme longue non couverte) : " ++ B.format entry

/-! ## PLT-001: privileges of the container -/

def privileged : Rule where
  id := "PLT-001"
  exemptable := true
  findings _ input := inServices input fun svc =>
    match svc.get "privileged" with
    | some (.bool true) => ["conteneur privilégié (privileged: true)"]
    | _ => []

def capabilityAdded : Rule where
  id := "PLT-001"
  exemptable := true
  findings B input := inServices input fun svc =>
    (arrayField svc "cap_add").map fun capability =>
      "capacité Linux ajoutée sans exemption : " ++ B.format capability

def unconfined (B : Builtins) (opt : String) : Bool :=
  (indexOf (Json.chars "unconfined") (Json.chars (B.lower opt))).isSome ||
    (indexOf (Json.chars "label:disable") (Json.chars (B.lower opt))).isSome

def confinementDisabled : Rule where
  id := "PLT-001"
  exemptable := true
  findings B input := inServices input fun svc =>
    (((arrayField svc "security_opt").filterMap Value.string?).filter (unconfined B)).map
      fun opt => "confinement du noyau désactivé : " ++ opt

def namespaceShared : Rule where
  id := "PLT-001"
  exemptable := true
  findings B input := inServices input fun svc =>
    ["pid", "ipc", "network_mode", "userns_mode"].filterMap fun field =>
      (svc.getString field).bind fun value =>
        if (Json.chars "host").isPrefixOf (Json.chars (B.lower value)) then
          some ("espace de noms partagé avec l'hôte : " ++ field ++ ": " ++ value)
        else none

def devicesGiven : Rule where
  id := "PLT-001"
  exemptable := true
  findings _ input := inServices input fun svc =>
    if 0 < (arrayField svc "devices").length then
      ["accès direct à un périphérique de l'hôte (devices)"]
    else []

/-- `(?i)(docker|podman|containerd|crio)[^:]*\.sock` -/
def engineSocket : Regex :=
  Regex.ignoreCase <| .all
    [.oneOf [.text "docker", .text "podman", .text "containerd", .text "crio"],
      .star (.char (· ≠ ':')), .text ".sock"]

def engineSocketMounted : Rule where
  id := "PLT-001"
  exemptable := true
  findings _ input := inServices input fun svc =>
    (((arrayField svc "volumes").filterMap Value.string?).filter fun mount =>
      engineSocket.search (Json.chars mount)).map fun mount =>
        "socket du moteur de conteneurs monté dans le conteneur : " ++ mount

/-! ## PLT-002: published ports -/

/-- `^(?:127\.0\.0\.1|\[::1\]):[0-9]{1,5}:[0-9]{1,5}(?:/(?:tcp|udp))?$` -/
def loopbackPublishedPort : Regex :=
  .all [.startOfText, .oneOf [.text "127.0.0.1", .text "[::1]"], .text ":", digit.between 1 5,
    .text ":", digit.between 1 5, .optional (.seq (.text "/") (.oneOf [.text "tcp", .text "udp"])),
    .endOfText]

def portPublished : Rule where
  id := "PLT-002"
  exemptable := true
  findings _ input := inServices input fun svc =>
    (((arrayField svc "ports").filterMap Value.string?).filter fun entry =>
      !loopbackPublishedPort.search (Json.chars entry)).map fun entry =>
        "port publié hors de la boucle locale : " ++ entry

def loopbackHostIp (entry : Value) : Bool :=
  (entry.getString "host_ip").any (· ∈ ["127.0.0.1", "::1"])

def portObjectPublished : Rule where
  id := "PLT-002"
  exemptable := true
  findings B input := inServices input fun svc =>
    ((arrayField svc "ports").filter fun entry => entry.isObject && !loopbackHostIp entry).map
      fun entry => "port publié sans host_ip de boucle locale : " ++ B.format entry

/-! ## PLT-003: lasting secrets -/

structure EnvPair where
  service : String
  name : String
  value : Value

/-- `NAME=value`, with a name. -/
def envEntry (entry : String) : Option (String × Value) :=
  match indexOf ['='] (Json.chars entry) with
  | some (idx + 1) => some (String.ofList ((Json.chars entry).take (idx + 1)),
      .str (String.ofList ((Json.chars entry).drop (idx + 2))))
  | _ => none

/-- `environment` as an object, or as a list. -/
def envOf (svc : Value) : List (String × Value) :=
  (svc.getObject "environment").getD [] ++
    ((arrayField svc "environment").filterMap Value.string?).filterMap envEntry

def envPairs (input : Value) : List EnvPair :=
  (serviceObjects input).flatMap fun service => (envOf service.2).map fun kv =>
    ⟨service.1, kv.1, kv.2⟩

/-- `(?i)(password|passwd|passphrase|secret|credential|token)` -/
def secretTerm : Regex :=
  Regex.ignoreCase <| .oneOf [.text "password", .text "passwd", .text "passphrase",
    .text "secret", .text "credential", .text "token"]

/-- `(?i)(^|_)(key|keys|apikey|api_key|pin|pw)(_|$)` -/
def secretWord : Regex :=
  Regex.ignoreCase <| .all [.alt .startOfText (.text "_"),
    .oneOf [.text "key", .text "keys", .text "apikey", .text "api_key", .text "pin", .text "pw"],
    .alt (.text "_") .endOfText]

def secretName (k : String) : Bool :=
  secretTerm.search (Json.chars k) || secretWord.search (Json.chars k)

/-- `[A-Za-z_][A-Za-z0-9_]*` -/
def variableName : Regex :=
  .seq (.char fun c => c.isAlpha || c == '_') (.star (.char fun c => c.isAlphanum || c == '_'))

/-- `^\$\x7b…\x7d$`, with the braces. -/
def bracedVariable : Regex :=
  .all [.startOfText, .lit ['$', '\x7b'], variableName, .lit ['\x7d'], .endOfText]

def bareVariable : Regex := .all [.startOfText, .lit ['$'], variableName, .endOfText]

def literalValue : Value → Bool
  | .str val =>
      0 < (trimSpace (Json.chars val)).length && !bracedVariable.search (Json.chars val) &&
        !bareVariable.search (Json.chars val)
  | .num _ => true
  | .bool _ => true
  | _ => false

def literalInEnvironment : Rule where
  id := "PLT-003"
  exemptable := false
  findings _ input :=
    ((envPairs input).filter fun pair => secretName pair.name && literalValue pair.value).map
      fun pair => (pair.service,
        "valeur littérale dans une variable d'environnement sensible : " ++ pair.name)

def envFileGiven : Rule where
  id := "PLT-003"
  exemptable := false
  findings _ input := inServices input fun svc =>
    if hasKey svc "env_file" then
      ["env_file interdit : aucun secret durable dans un fichier .env (règle absolue #1)"]
    else []

structure ArgString where
  service : String
  arg : String

/-- `command` and `entrypoint`, as a string or as a list. -/
def argsOf (svc : Value) : List String :=
  ["command", "entrypoint"].flatMap fun field =>
    (svc.getString field).toList ++ (arrayField svc field).filterMap Value.string?

def argStrings (input : Value) : List ArgString :=
  (serviceObjects input).flatMap fun service => (argsOf service.2).map fun arg => ⟨service.1, arg⟩

def isBlank (c : Char) : Bool := c ∈ ['\t', '\n', '\x0C', '\r', ' ']

def isWordLetter (c : Char) : Bool :=
  ('a' ≤ c && c ≤ 'z') || ('0' ≤ c && c ≤ '9') || c == '_' || c == '-'

/-- `(?i)(-{0,2}[a-z0-9_-]*(?:token|…|credential)[a-z0-9_-]*)=(\S+)` -/
def cliSecretPattern : Regex :=
  Regex.ignoreCase <| .all
    [.group 1 (.all [(Regex.text "-").between 0 2, .star (.char isWordLetter),
        .oneOf [.text "token", .text "password", .text "passwd", .text "secret",
          .all [.text "api", .optional (.char fun c => c == '_' || c == '-'), .text "key"],
          .text "passphrase", .text "credential"],
        .star (.char isWordLetter)]),
      .text "=", .group 2 (Regex.atLeast (.char fun c => !isBlank c) 1)]

def pathLike (s : List Char) : Bool :=
  ['/'].isPrefixOf s || ['.', '/'].isPrefixOf s || ['.', '.', '/'].isPrefixOf s ||
    ['~'].isPrefixOf s

/-- `^\$\x7b?[A-Za-z_][A-Za-z0-9_]*\x7d?$` -/
def envReference : Regex :=
  .all [.startOfText, .lit ['$'], .optional (.lit ['\x7b']), variableName,
    .optional (.lit ['\x7d']), .endOfText]

/-- `m[n]` -/
def submatch (m : Regex.Captures) (n : Nat) : List Char := (m.lookup n).getD []

def secretInArguments : Rule where
  id := "PLT-003"
  exemptable := false
  findings _ input :=
    (argStrings input).flatMap fun entry =>
      ((cliSecretPattern.findAll (Json.chars entry.arg)).filter fun m =>
        !pathLike (submatch m 2) && !envReference.search (submatch m 2)).map fun m =>
          (entry.service, "secret littéral probable en argument de ligne de commande : " ++
            String.ofList (submatch m 1) ++ "=…")

/-! ## PLT-004: images -/

def mutableTags : List String :=
  ["latest", "main", "master", "edge", "stable", "nightly", "dev", "test"]

/-- `@sha256:[0-9a-f]{64}$` -/
def digestPinned : Regex :=
  .all [.text "@sha256:",
    Regex.times (.char fun c => ('0' ≤ c && c ≤ '9') || ('a' ≤ c && c ≤ 'f')) 64, .endOfText]

/-- `^[A-Za-z0-9_][A-Za-z0-9._-]{0,127}$` -/
def tagForm : Regex :=
  .all [.startOfText, .char fun c => c.isAlphanum || c == '_',
    Regex.between (.char fun c => c.isAlphanum || c == '.' || c == '_' || c == '-') 0 127,
    .endOfText]

/-- The tag is looked for in the last segment of the path. -/
def imageTag (ref : List Char) : Option (List Char) := do
  let last ← (split '/' ref).getLast?
  let idx ← indexOf [':'] last
  if 0 < idx then some (last.drop (idx + 1)) else none

def pinnedImage (B : Builtins) (ref : String) : Bool :=
  digestPinned.search (Json.chars ref) ||
    ((indexOf ['@'] (Json.chars ref)).isNone &&
      (imageTag (Json.chars ref)).any fun tag =>
        tagForm.search tag && B.lower (String.ofList tag) ∉ mutableTags)

def imageNotPinned : Rule where
  id := "PLT-004"
  exemptable := true
  findings B input := inServices input fun svc =>
    ((svc.getString "image").toList.filter fun image => !pinnedImage B image).map fun image =>
      "image non épinglée : " ++ image

/-! ## PLT-005: authentication -/

def authDisabling (B : Builtins) (k : String) (val : Value) : Bool :=
  match val.string? with
  | none => false
  | some val =>
      (B.upper k == "POSTGRES_HOST_AUTH_METHOD" && B.lower val == "trust") ||
        (B.upper k == "ALLOW_EMPTY_PASSWORD" && B.lower val ∈ ["yes", "true", "1"]) ||
          (secretName k && (trimSpace (Json.chars val)).isEmpty)

def authenticationDisabled : Rule where
  id := "PLT-005"
  exemptable := true
  findings B input :=
    ((envPairs input).filter fun pair => authDisabling B pair.name pair.value).map fun pair =>
      (pair.service, "authentification affaiblie par la variable " ++ pair.name)

/-- `(?i)(^|\s)-{1,2}dev(-mode)?(\s|$)` -/
def devMode : Regex :=
  Regex.ignoreCase <| .all [.alt .startOfText (.char isBlank), (Regex.text "-").between 1 2,
    .text "dev", .optional (.text "-mode"), .alt (.char isBlank) .endOfText]

def devModeStarted : Rule where
  id := "PLT-005"
  exemptable := true
  findings _ input :=
    ((argStrings input).filter fun entry => devMode.search (Json.chars entry.arg)).map fun entry =>
      (entry.service, "service démarré en mode développement : " ++ entry.arg)

/-! ## PLT-006: mounts of the host -/

def mountSource (mount : List Char) : List Char := (split ':' mount).headD []

def bindSource (mount : List Char) : Bool :=
  ['/'].isPrefixOf (mountSource mount) || ['.', '/'].isPrefixOf (mountSource mount) ||
    ['.', '.', '/'].isPrefixOf (mountSource mount) || ['~'].isPrefixOf (mountSource mount)

def mountOptions (mount : List Char) : List Char := ((split ':' mount)[2]?).getD []

def readOnly (opts : List Char) : Bool := ['r', 'o'] ∈ split ',' opts

def hostMountWritable : Rule where
  id := "PLT-006"
  exemptable := true
  findings _ input := inServices input fun svc =>
    (((arrayField svc "volumes").filterMap Value.string?).filter fun mount =>
      bindSource (Json.chars mount) && !readOnly (mountOptions (Json.chars mount))).map
        fun mount => "montage de l'hôte en lecture-écriture : " ++ mount

/-! ## Decision -/

def rules : List Rule :=
  [composeUnreadable, servicesUnreadable, noService, contextIncomplete, serviceUnreadable,
    imageMissing, unexpectedType, portUnread, volumeUnread, privileged, capabilityAdded,
    confinementDisabled, namespaceShared, devicesGiven, engineSocketMounted, portPublished,
    portObjectPublished, literalInEnvironment, envFileGiven, secretInArguments, imageNotPinned,
    authenticationDisabled, devModeStarted, hostMountWritable]

def violation (B : Builtins) (input : Value) : List Violation :=
  rules.flatMap fun r => r.violations B input

def validInput (input : Value) : Bool :=
  validContext input && (services input).any fun s => 0 < s.length

def allow (B : Builtins) (input : Value) : Bool := validInput input && (violation B input).isEmpty

theorem mem_violation_iff {B : Builtins} {input : Value} {w : Violation} :
    w ∈ violation B input ↔ ∃ r ∈ rules, ∃ finding ∈ r.findings B input,
      (r.exemptable && exempted input r.id finding.1) = false ∧
        viol r.id finding.1 finding.2 = w := by
  simp only [violation, Rule.violations, List.mem_flatMap, List.mem_map, List.mem_filter,
    Bool.not_eq_true', and_assoc]

/-- `input_at` of the tests, with any services. -/
def inputAt (env date : String) (services : List (String × Value)) : Value :=
  .obj [("context", .obj [("evaluated_at", .str date), ("environment", .str env)]),
    ("compose", .obj [("services", .obj services)])]

end ZeroSecret.Platform
