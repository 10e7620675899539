import ZeroSecret.Base.Cedar
import ZeroSecret.Base.Fallible
import ZeroSecret.Crypto.DecisionBinding

/-!
# `zs-policy/src/pdp.rs`: the policy decision point

The messages of `policy/v1/decision.proto`, their translation to a Cedar
request and entity store, and `Pdp::decide`.

`cedar-policy` enters as an `Engine`: what it does with one loaded schema and
policy set. `Engine.documented` is the engine of its documentation. The set of
determining policies is a `HashSet`, whose iteration order is unspecified and
may change from one evaluation to the next; `decide` takes that order as an
argument.
-/

namespace ZeroSecret.Policy

open Crypto Fallible

/-! ## Messages -/

structure ProtoTimestamp where
  seconds : Int64
  nanos : Int32
deriving DecidableEq

structure ProtoDuration where
  seconds : Int64
  nanos : Int32
deriving DecidableEq

structure Principal where
  subjectId : String
  /-- `AuthLevel`, an open enumeration: any `i32` can arrive. -/
  aal : Int32
  authMethod : String
  authenticatedAt : Option ProtoTimestamp
  roles : List String
  authorityDomain : String

structure Action where
  verb : String

/-- `map<string, string>`. -/
structure Attributes where
  list : List (String × String)
  nodup : (list.map Prod.fst).Nodup

def Attributes.get (a : Attributes) (key : String) : Option String := a.list.lookup key

structure Resource where
  type : String
  id : String
  authorityDomain : String
  attributes : Attributes

structure DevicePosture where
  managed : Bool
  diskEncrypted : Bool
  agentVersion : String
  evaluatedAt : Option ProtoTimestamp

structure Approval where
  approverId : String
  approvedAt : Option ProtoTimestamp
  signature : Bytes

structure Context where
  requestedAt : Option ProtoTimestamp
  sourceNetwork : String
  posture : Option DevicePosture
  ticketRef : String
  justification : String
  approvals : List Approval

structure DecisionRequest where
  requestId : String
  principal : Option Principal
  action : Option Action
  resource : Option Resource
  context : Option Context
  policyVersion : String

structure DecisionResponse where
  /-- `Effect`, an open enumeration. -/
  effect : Int32
  reasons : List String
  maxTtl : Option ProtoDuration
  constraints : List String
  decisionHash : Bytes
  policyVersion : String
  issuedAt : Option ProtoTimestamp
  decisionSignature : Bytes
  decisionSignatureKeyId : String
deriving DecidableEq

def effectDeny : Int32 := 0
def effectAllow : Int32 := 1

/-! ## The engine -/

/-- What the PDP calls of `cedar-policy`; errors arrive as their text. -/
structure Engine where
  /-- `Entities::from_entities`, against the schema. -/
  fromEntities : List Cedar.Entity → Except String Cedar.Entities
  /-- `Request::new`, against the schema: principal, action, resource, context. -/
  newRequest : Cedar.EntityUid → Cedar.EntityUid → Cedar.EntityUid →
    List (String × Cedar.Value) → Except String Cedar.Request
  /-- `Authorizer::is_authorized`, on the policy set. -/
  isAuthorized : Cedar.Request → Cedar.Entities → Cedar.Response
  /-- `PolicySet::annotation`: policy identifier, annotation key. -/
  annotation : String → String → Option String

/-- Texts of the errors of `cedar-policy`. -/
structure ErrorText where
  entities : Cedar.EntitiesError → String
  request : Cedar.RequestError → String

/-- Validation and authorization as documented. -/
def Engine.documented (text : ErrorText) (schema : Cedar.Schema) (policies : Cedar.PolicySet) :
    Engine where
  fromEntities es := (Cedar.Entities.fromEntities schema es).mapError text.entities
  newRequest principal action resource context :=
    (Cedar.Request.new schema principal action resource context).mapError text.request
  isAuthorized := policies.isAuthorized
  annotation := policies.annotation

/-! ## Translation -/

def cedarNamespace : String := "ZeroSecret"

/-- Every type name the PDP passes is a literal that parses, and every
identifier is accepted, so neither refusal of the source can occur. -/
def entityUid (typeName id : String) : Cedar.EntityUid := ⟨cedarNamespace ++ "::" ++ typeName, id⟩

def authLevelToStr (aal : Int32) : String :=
  if aal = 1 then "AAL1" else if aal = 2 then "AAL2" else if aal = 3 then "AAL3" else ""

/-- `map_err(|e| format!("{label}{e}"))`. -/
def labelled {α : Type} (label : String) : Except String α → Except String α
  | .ok a => .ok a
  | .error e => .error (label ++ e)

def principalAttrs (p : Principal) (authenticatedAt : Int64) : List (String × Cedar.Value) :=
  [("subject_id", .string p.subjectId),
    ("aal", .string (authLevelToStr p.aal)),
    ("auth_method", .string p.authMethod),
    ("authenticated_at", .long authenticatedAt),
    ("roles", .set (p.roles.map .string)),
    ("authority_domain", .string p.authorityDomain)]

def principalEntity (p : Principal) : Except String Cedar.Entity := do
  let authenticatedAt ← okOr "principal_authenticated_at_absent" p.authenticatedAt
  .ok ⟨entityUid "Principal" p.subjectId, principalAttrs p authenticatedAt.seconds⟩

def databaseAttrs (r : Resource) (environment : String) : List (String × Cedar.Value) :=
  [("authority_domain", .string r.authorityDomain), ("environment", .string environment)]

def databaseEntity (r : Resource) : Except String Cedar.Entity := do
  let environment ← okOr "resource_attribute_environment_absent" (r.attributes.get "environment")
  .ok ⟨entityUid "Database" r.id, databaseAttrs r environment⟩

def postureRecord (posture : DevicePosture) (evaluatedAt : Int64) : Cedar.Value :=
  .record [("managed", .bool posture.managed),
    ("disk_encrypted", .bool posture.diskEncrypted),
    ("agent_version", .string posture.agentVersion),
    ("evaluated_at", .long evaluatedAt)]

/-- The signature of an approval stays out. -/
def approvalRecord (a : Approval) : Except String Cedar.Value := do
  let approvedAt ← okOr "approbation_approved_at_absente" a.approvedAt
  .ok (.record [("approver_id", .string a.approverId), ("approved_at", .long approvedAt.seconds)])

def contextPairs (c : Context) (requestedAt : Int64) (posture : Cedar.Value)
    (approvals : List Cedar.Value) : List (String × Cedar.Value) :=
  [("requested_at", .long requestedAt),
    ("source_network", .string c.sourceNetwork),
    ("posture", posture),
    ("ticket_ref", .string c.ticketRef),
    ("justification", .string c.justification),
    ("approvals", .set approvals)]

def buildContext (c : Context) : Except String (List (String × Cedar.Value)) := do
  let requestedAt ← okOr "context_requested_at_absent" c.requestedAt
  let posture ← okOr "context_posture_absent" c.posture
  let evaluatedAt ← okOr "posture_evaluated_at_absent" posture.evaluatedAt
  let approvals ← c.approvals.mapM approvalRecord
  .ok (contextPairs c requestedAt.seconds (postureRecord posture evaluatedAt.seconds) approvals)

def translate (engine : Engine) (request : DecisionRequest) :
    Except String (Cedar.Request × Cedar.Entities) := do
  let principal ← okOr "principal_absent" request.principal
  let resource ← okOr "resource_absent" request.resource
  let action ← okOr "action_absent" request.action
  let context ← okOr "context_absent" request.context
  if resource.type ≠ "Database" then
    .error ("resource_type_inconnu:" ++ resource.type)
  else
    let principalEnt ← principalEntity principal
    let resourceEnt ← databaseEntity resource
    let cedarContext ← buildContext context
    let entities ← labelled "entites_invalides:"
      (engine.fromEntities [principalEnt, resourceEnt])
    let cedarRequest ← labelled "requete_invalide:"
      (engine.newRequest (entityUid "Principal" principal.subjectId)
        (entityUid "Action" action.verb) (entityUid "Database" resource.id) cedarContext)
    .ok (cedarRequest, entities)

/-! ## The hashed request -/

/-- `Option` in `json!`: absent is `null`. -/
def nullable {α : Type} (f : α → Json) : Option α → Json
  | none => .null
  | some a => f a

def secondsJson (t : ProtoTimestamp) : Json := .num t.seconds.toInt

def principalJson (p : Principal) : Json :=
  .obj [("subject_id", .str p.subjectId),
    ("aal", .num p.aal.toInt),
    ("auth_method", .str p.authMethod),
    ("authenticated_at", nullable secondsJson p.authenticatedAt),
    ("roles", .arr (p.roles.map .str)),
    ("authority_domain", .str p.authorityDomain)]

def actionJson (a : Action) : Json := .obj [("verb", .str a.verb)]

def attributesJson (a : Attributes) : Json := .obj (a.list.map fun m => (m.1, .str m.2))

def resourceJson (r : Resource) : Json :=
  .obj [("type", .str r.type),
    ("id", .str r.id),
    ("authority_domain", .str r.authorityDomain),
    ("attributes", attributesJson r.attributes)]

def postureJson (p : DevicePosture) : Json :=
  .obj [("managed", .bool p.managed),
    ("disk_encrypted", .bool p.diskEncrypted),
    ("agent_version", .str p.agentVersion),
    ("evaluated_at", nullable secondsJson p.evaluatedAt)]

def approvalJson (a : Approval) : Json :=
  .obj [("approver_id", .str a.approverId), ("approved_at", nullable secondsJson a.approvedAt)]

def contextJson (c : Context) : Json :=
  .obj [("requested_at", nullable secondsJson c.requestedAt),
    ("source_network", .str c.sourceNetwork),
    ("posture", nullable postureJson c.posture),
    ("ticket_ref", .str c.ticketRef),
    ("justification", .str c.justification),
    ("approvals", .arr (c.approvals.map approvalJson))]

def requestToJson (r : DecisionRequest) : Json :=
  .obj [("request_id", .str r.requestId),
    ("principal", nullable principalJson r.principal),
    ("action", nullable actionJson r.action),
    ("resource", nullable resourceJson r.resource),
    ("context", nullable contextJson r.context),
    ("policy_version", .str r.policyVersion)]

def decisionHash (P : Primitives) (request : DecisionRequest) : Bytes :=
  (DecisionBinding.bindRequest P (requestToJson request)).digest.val

/-! ## The decision -/

/-- An order in which a hash set is iterated. -/
abbrev Enumeration : Type := { f : List String → List String // ∀ ids, (f ids).Perm ids }

structure Pdp where
  engine : Engine
  policyVersion : String

def effectOf : Cedar.Decision → Int32
  | .allow => effectAllow
  | .deny => effectDeny

/-- Before sealing: neither an instant nor a signature. -/
def unsealed (effect : Int32) (reasons : List String) (decisionHash : Bytes)
    (policyVersion : String) : DecisionResponse where
  effect := effect
  reasons := reasons
  maxTtl := none
  constraints := []
  decisionHash := decisionHash
  policyVersion := policyVersion
  issuedAt := none
  decisionSignature := []
  decisionSignatureKeyId := ""

def deny (reasons : List String) (decisionHash : Bytes) (policyVersion : String) :
    DecisionResponse :=
  unsealed effectDeny reasons decisionHash policyVersion

/-- The `@id` annotation of a determining policy, or its internal identifier. -/
def Pdp.label (pdp : Pdp) (id : String) : String := (pdp.engine.annotation id "id").getD id

def Pdp.decide (P : Primitives) (pdp : Pdp) (order : Enumeration) (request : DecisionRequest) :
    DecisionResponse :=
  let hash := decisionHash P request
  if request.policyVersion ≠ "" ∧ request.policyVersion ≠ pdp.policyVersion then
    deny ["policy_version_indisponible"] hash pdp.policyVersion
  else
    match translate pdp.engine request with
    | .error reason => deny [reason] hash pdp.policyVersion
    | .ok (cedarRequest, entities) =>
        let response := pdp.engine.isAuthorized cedarRequest entities
        unsealed (effectOf response.decision) ((order.val response.reason).map pdp.label) hash
          pdp.policyVersion

/-- The version a request asks for is the one that is served. -/
def Pdp.Serves (pdp : Pdp) (request : DecisionRequest) : Prop :=
  request.policyVersion = "" ∨ request.policyVersion = pdp.policyVersion

instance (pdp : Pdp) (request : DecisionRequest) : Decidable (pdp.Serves request) :=
  inferInstanceAs (Decidable (_ ∨ _))

/-! ### The three ways a decision is reached -/

section Decide

variable {P : Primitives} {pdp : Pdp} {order : Enumeration} {r : DecisionRequest}

theorem Pdp.decide_unserved (h : ¬ pdp.Serves r) : pdp.decide P order r =
    deny ["policy_version_indisponible"] (decisionHash P r) pdp.policyVersion := by
  rw [Pdp.decide]
  exact if_pos (not_or.mp h)

theorem Pdp.decide_refused {reason : String} (h : pdp.Serves r)
    (ht : translate pdp.engine r = .error reason) :
    pdp.decide P order r = deny [reason] (decisionHash P r) pdp.policyVersion := by
  rw [Pdp.decide]
  refine (if_neg (not_and_or.mpr (h.imp not_not_intro not_not_intro))).trans ?_
  rw [ht]

theorem Pdp.decide_evaluated {req : Cedar.Request} {es : Cedar.Entities} (h : pdp.Serves r)
    (ht : translate pdp.engine r = .ok (req, es)) :
    pdp.decide P order r = unsealed (effectOf (pdp.engine.isAuthorized req es).decision)
      ((order.val (pdp.engine.isAuthorized req es).reason).map pdp.label) (decisionHash P r)
      pdp.policyVersion := by
  rw [Pdp.decide]
  refine (if_neg (not_and_or.mpr (h.imp not_not_intro not_not_intro))).trans ?_
  rw [ht]

theorem effectOf_eq_allow {d : Cedar.Decision} : effectOf d = effectAllow ↔ d = .allow := by
  cases d <;> decide

theorem deny_effect_ne_allow : effectDeny ≠ effectAllow := by decide

/-- **A decision grants only what the authorizer allowed**, on the version
that is served. -/
theorem Pdp.decide_allow_iff : (pdp.decide P order r).effect = effectAllow ↔
    pdp.Serves r ∧ ∃ req es, translate pdp.engine r = .ok (req, es) ∧
      (pdp.engine.isAuthorized req es).decision = .allow := by
  by_cases hs : pdp.Serves r
  · cases ht : translate pdp.engine r with
    | error reason =>
        rw [Pdp.decide_refused hs ht]
        constructor
        · intro h
          exact absurd h deny_effect_ne_allow
        · rintro ⟨_, _, _, h, _⟩
          cases h
    | ok x =>
        obtain ⟨req, es⟩ := x
        rw [Pdp.decide_evaluated hs ht]
        constructor
        · intro h
          exact ⟨hs, req, es, rfl, effectOf_eq_allow.mp h⟩
        · rintro ⟨_, req', es', h, ha⟩
          cases h
          exact effectOf_eq_allow.mpr ha
  · rw [Pdp.decide_unserved hs]
    constructor
    · intro h
      exact absurd h deny_effect_ne_allow
    · rintro ⟨h, _⟩
      exact absurd h hs

/-- What every decision shares: it is unsealed, carries the hash of its request
and the served version, and its effect is one of two. -/
theorem Pdp.decide_form (P : Primitives) (pdp : Pdp) (order : Enumeration)
    (r : DecisionRequest) : ∃ d reasons, pdp.decide P order r =
    unsealed (effectOf d) reasons (decisionHash P r) pdp.policyVersion := by
  by_cases hs : pdp.Serves r
  · cases ht : translate pdp.engine r with
    | error reason => exact ⟨.deny, [reason], Pdp.decide_refused hs ht⟩
    | ok x => exact ⟨_, _, Pdp.decide_evaluated hs ht⟩
  · exact ⟨.deny, ["policy_version_indisponible"], Pdp.decide_unserved hs⟩

theorem Pdp.decide_decisionHash : (pdp.decide P order r).decisionHash = decisionHash P r := by
  obtain ⟨d, reasons, h⟩ := Pdp.decide_form P pdp order r
  rw [h]
  rfl

theorem Pdp.decide_policyVersion :
    (pdp.decide P order r).policyVersion = pdp.policyVersion := by
  obtain ⟨d, reasons, h⟩ := Pdp.decide_form P pdp order r
  rw [h]
  rfl

/-- Of the primitives, a decision uses the hash. -/
theorem Pdp.decide_congr {P P' : Primitives} (h : P.sha256 = P'.sha256) (pdp : Pdp)
    (order : Enumeration) (r : DecisionRequest) :
    pdp.decide P order r = pdp.decide P' order r := by
  have hhash : decisionHash P r = decisionHash P' r := by
    rw [decisionHash, decisionHash, DecisionBinding.bindRequest, DecisionBinding.bindRequest, h]
  rw [Pdp.decide, Pdp.decide, hhash]

end Decide

end ZeroSecret.Policy
