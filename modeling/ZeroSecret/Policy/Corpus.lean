import ZeroSecret.Policy.Pdp

/-!
# `contracts/cedar/` and `policies/access/`: the shipped schema and corpus

One permit and three forbids for `db.connect`. The meaning of each policy is
stated on the request that was translated (`Complete`), and from there the
exact set of requests the shipped PDP allows, and what the three guardrails
impose on any policy set that contains them.
-/

namespace ZeroSecret.Policy

open Crypto Fallible
open Cedar (EvaluatesTo)

/-! ## Schema -/

def principalShape : List (String × Bool × Cedar.Ty) :=
  [("subject_id", true, .string),
    ("aal", true, .string),
    ("auth_method", true, .string),
    ("authenticated_at", true, .long),
    ("roles", true, .set .string),
    ("authority_domain", true, .string)]

def databaseShape : List (String × Bool × Cedar.Ty) :=
  [("authority_domain", true, .string), ("environment", true, .string)]

def postureShape : List (String × Bool × Cedar.Ty) :=
  [("managed", true, .boolean),
    ("disk_encrypted", true, .boolean),
    ("agent_version", true, .string),
    ("evaluated_at", true, .long)]

def approvalShape : List (String × Bool × Cedar.Ty) :=
  [("approver_id", true, .string), ("approved_at", true, .long)]

def dbConnectContext : List (String × Bool × Cedar.Ty) :=
  [("requested_at", true, .long),
    ("source_network", true, .string),
    ("posture", true, .record postureShape),
    ("ticket_ref", true, .string),
    ("justification", true, .string),
    ("approvals", true, .set (.record approvalShape))]

def dbConnect : Cedar.EntityUid := ⟨"ZeroSecret::Action", "db.connect"⟩

def cedarSchema : Cedar.Schema where
  entityTypes :=
    [("ZeroSecret::Principal", principalShape), ("ZeroSecret::Database", databaseShape)]
  actions :=
    [(dbConnect, ⟨["ZeroSecret::Principal"], ["ZeroSecret::Database"], dbConnectContext⟩)]

/-! ## Policies -/

section Expressions

open Cedar Cedar.Expr

def principalAttr (attr : String) : Expr := .getAttr (.var .principal) attr
def resourceAttr (attr : String) : Expr := .getAttr (.var .resource) attr
def contextAttr (attr : String) : Expr := .getAttr (.var .context) attr
def text (s : String) : Expr := .lit (.string s)

/-- `resource.environment == "production"`. -/
def inProduction : Expr := .eq (resourceAttr "environment") (text "production")

/-- `principal.authority_domain == resource.authority_domain`. -/
def sameDomain : Expr := .eq (principalAttr "authority_domain") (resourceAttr "authority_domain")

/-- `principal.aal == "AAL3"`. -/
def atAal3 : Expr := .eq (principalAttr "aal") (text "AAL3")

/-- `context.ticket_ref != ""`. -/
def hasTicket : Expr := .ne (contextAttr "ticket_ref") (text "")

/-- `!context.approvals.isEmpty()`. -/
def hasApproval : Expr := .not (.isEmpty (contextAttr "approvals"))

/-- `context.posture.evaluated_at`. -/
def evaluatedAtExpr : Expr := .getAttr (contextAttr "posture") "evaluated_at"

/-- Evaluated in the past, at most 3600 seconds ago. -/
def freshPosture : Expr :=
  .and (.lessEq evaluatedAtExpr (contextAttr "requested_at"))
    (.lessEq (.sub (contextAttr "requested_at") evaluatedAtExpr) (.lit (.long 3600)))

def dbConnectScope : Scope := ⟨"ZeroSecret::Principal", dbConnect, "ZeroSecret::Database"⟩

end Expressions

/-- A policy of the corpus: every one has the same scope. -/
structure CorpusPolicy where
  annotation : String
  effect : Cedar.Effect
  clauses : List Cedar.Clause

def CorpusPolicy.expr (p : CorpusPolicy) : Cedar.Expr :=
  Cedar.conditionExpr dbConnectScope p.clauses

def CorpusPolicy.condition (p : CorpusPolicy) :
    Cedar.Request → Cedar.Entities → Except Cedar.EvalError Bool :=
  Cedar.evalCondition p.expr

/-- `PolicySet::from_str` numbers the policies of the bundle. -/
def CorpusPolicy.toPolicy (p : CorpusPolicy) (id : String) : Cedar.Policy :=
  ⟨id, [("id", p.annotation)], p.effect, p.condition⟩

def dbConnectProduction : CorpusPolicy :=
  ⟨"db-connect-production", .permit,
    [.when inProduction, .when sameDomain, .when atAal3, .when hasTicket, .when hasApproval,
      .when freshPosture]⟩

def guardrailAal3 : CorpusPolicy :=
  ⟨"guardrail-production-requires-aal3", .forbid, [.when inProduction, .unless atAal3]⟩

def guardrailDomain : CorpusPolicy :=
  ⟨"guardrail-authority-domain-isolation", .forbid, [.unless sameDomain]⟩

def guardrailTicketApproval : CorpusPolicy :=
  ⟨"guardrail-production-requires-ticket-and-approval", .forbid,
    [.when inProduction, .unless (.and hasTicket hasApproval)]⟩

/-- `db_connect_guardrails.cedar`. -/
def guardrails : List CorpusPolicy := [guardrailAal3, guardrailDomain, guardrailTicketApproval]

/-- The files in path order: `db_connect.cedar`, `db_connect_guardrails.cedar`. -/
def corpus : Cedar.PolicySet where
  list := [dbConnectProduction.toPolicy "policy0", guardrailAal3.toPolicy "policy1",
    guardrailDomain.toPolicy "policy2", guardrailTicketApproval.toPolicy "policy3"]
  nodup := by
    simp [CorpusPolicy.toPolicy]

/-- The PDP on the shipped files; the version is the digest of the corpus. -/
def Pdp.shipped (text : ErrorText) (policyVersion : String) : Pdp :=
  ⟨.documented text cedarSchema corpus, policyVersion⟩

/-! ## Requests the translation reads to the end -/

/-- Everything `translate` looks for is there. -/
structure Complete (r : DecisionRequest) where
  principal : Principal
  resource : Resource
  action : Action
  context : Context
  authenticatedAt : ProtoTimestamp
  environment : String
  requestedAt : ProtoTimestamp
  posture : DevicePosture
  evaluatedAt : ProtoTimestamp
  principal_eq : r.principal = some principal
  resource_eq : r.resource = some resource
  action_eq : r.action = some action
  context_eq : r.context = some context
  type_eq : resource.type = "Database"
  authenticatedAt_eq : principal.authenticatedAt = some authenticatedAt
  environment_eq : resource.attributes.get "environment" = some environment
  requestedAt_eq : context.requestedAt = some requestedAt
  posture_eq : context.posture = some posture
  evaluatedAt_eq : posture.evaluatedAt = some evaluatedAt
  approved : ∀ a ∈ context.approvals, ∃ t, a.approvedAt = some t

/-- The record of an approval that carries its instant. -/
def approvalValue (a : Approval) : Cedar.Value :=
  .record [("approver_id", .string a.approverId),
    ("approved_at", .long ((a.approvedAt.map ProtoTimestamp.seconds).getD 0))]

namespace Complete

variable {r : DecisionRequest} (c : Complete r)

def principalUid : Cedar.EntityUid := entityUid "Principal" c.principal.subjectId
def resourceUid : Cedar.EntityUid := entityUid "Database" c.resource.id
def actionUid : Cedar.EntityUid := entityUid "Action" c.action.verb

def principalEnt : Cedar.Entity :=
  ⟨c.principalUid, principalAttrs c.principal c.authenticatedAt.seconds⟩

def resourceEnt : Cedar.Entity := ⟨c.resourceUid, databaseAttrs c.resource c.environment⟩

def pairs : List (String × Cedar.Value) :=
  contextPairs c.context c.requestedAt.seconds
    (postureRecord c.posture c.evaluatedAt.seconds) (c.context.approvals.map approvalValue)

theorem buildContext_eq : buildContext c.context = .ok c.pairs := by
  have happrovals : c.context.approvals.mapM approvalRecord =
      .ok (c.context.approvals.map approvalValue) := by
    refine mapM_ok fun a ha => ?_
    obtain ⟨t, ht⟩ := c.approved a ha
    rw [approvalRecord, approvalValue, ht]
    rfl
  rw [buildContext, c.requestedAt_eq, okOr_some, ok_bind, c.posture_eq, okOr_some, ok_bind,
    c.evaluatedAt_eq, okOr_some, ok_bind, happrovals, ok_bind]
  rfl

/-- What is left to the engine. -/
theorem translate_eq (engine : Engine) : translate engine r = (do
    let entities ← labelled "entites_invalides:"
      (engine.fromEntities [c.principalEnt, c.resourceEnt])
    let cedarRequest ← labelled "requete_invalide:"
      (engine.newRequest c.principalUid c.actionUid c.resourceUid c.pairs)
    .ok (cedarRequest, entities)) := by
  rw [translate, c.principal_eq, okOr_some, ok_bind, c.resource_eq, okOr_some, ok_bind,
    c.action_eq, okOr_some, ok_bind, c.context_eq, okOr_some, ok_bind,
    if_neg (not_not_intro c.type_eq), principalEntity, c.authenticatedAt_eq, okOr_some, ok_bind,
    ok_bind, databaseEntity, c.environment_eq, okOr_some, ok_bind, ok_bind, c.buildContext_eq,
    ok_bind]
  rfl

end Complete

theorem approvalRecord_eq_ok {a : Approval} {v : Cedar.Value} (h : approvalRecord a = .ok v) :
    ∃ t, a.approvedAt = some t := by
  obtain ⟨t, ht, _⟩ := bind_eq_ok h
  exact ⟨t, okOr_eq_ok ht⟩

/-- A request that is translated was complete. -/
theorem complete_of_translate {engine : Engine} {r : DecisionRequest}
    {x : Cedar.Request × Cedar.Entities} (h : translate engine r = .ok x) :
    Nonempty (Complete r) := by
  rw [translate] at h
  obtain ⟨principal, hp, h⟩ := bind_eq_ok h
  obtain ⟨resource, hr, h⟩ := bind_eq_ok h
  obtain ⟨action, ha, h⟩ := bind_eq_ok h
  obtain ⟨context, hc, h⟩ := bind_eq_ok h
  split at h
  · cases h
  · rename_i htype
    obtain ⟨_, hpe, h⟩ := bind_eq_ok h
    obtain ⟨_, hre, h⟩ := bind_eq_ok h
    obtain ⟨_, hce, _⟩ := bind_eq_ok h
    obtain ⟨authenticatedAt, hat, _⟩ := bind_eq_ok hpe
    obtain ⟨environment, henv, _⟩ := bind_eq_ok hre
    obtain ⟨requestedAt, hra, hce⟩ := bind_eq_ok hce
    obtain ⟨posture, hpo, hce⟩ := bind_eq_ok hce
    obtain ⟨evaluatedAt, hea, hce⟩ := bind_eq_ok hce
    obtain ⟨_, hap, _⟩ := bind_eq_ok hce
    exact ⟨{
      principal, resource, action, context, authenticatedAt, environment, requestedAt
      posture, evaluatedAt
      principal_eq := okOr_eq_ok hp
      resource_eq := okOr_eq_ok hr
      action_eq := okOr_eq_ok ha
      context_eq := okOr_eq_ok hc
      type_eq := not_not.mp htype
      authenticatedAt_eq := okOr_eq_ok hat
      environment_eq := okOr_eq_ok henv
      requestedAt_eq := okOr_eq_ok hra
      posture_eq := okOr_eq_ok hpo
      evaluatedAt_eq := okOr_eq_ok hea
      approved := fun a ha =>
        let ⟨_, hv⟩ := mapM_eq_ok_forall hap a ha
        approvalRecord_eq_ok hv }⟩

/-! ## Meaning of the policies -/

/-- The pair an engine makes of a complete request. -/
structure Translated {r : DecisionRequest} (c : Complete r) (req : Cedar.Request)
    (es : Cedar.Entities) : Prop where
  request_eq : req = ⟨c.principalUid, c.actionUid, c.resourceUid, c.pairs⟩
  principal_found : es.find? c.principalUid = some c.principalEnt
  resource_found : es.find? c.resourceUid = some c.resourceEnt

theorem labelled_eq_ok {α : Type} {label : String} {x : Except String α} {a : α}
    (h : labelled label x = .ok a) : x = .ok a := by
  cases x with
  | error e => cases h
  | ok b => rw [Except.ok.inj h]

theorem mapError_eq_ok {ε α : Type} {f : ε → String} {x : Except ε α} {a : α}
    (h : x.mapError f = .ok a) : x = .ok a := by
  cases x with
  | error e => cases h
  | ok b => rw [Except.ok.inj h]

section Documented

variable {message : ErrorText} {schema : Cedar.Schema} {policies : Cedar.PolicySet}
  {r : DecisionRequest} {req : Cedar.Request} {es : Cedar.Entities}

theorem translated_of_translate (c : Complete r)
    (h : translate (.documented message schema policies) r = .ok (req, es)) :
    Translated c req es := by
  rw [c.translate_eq] at h
  obtain ⟨es', hes, h⟩ := bind_eq_ok h
  obtain ⟨req', hreq, h⟩ := bind_eq_ok h
  obtain ⟨rfl, rfl⟩ := Prod.mk.inj (Except.ok.inj h)
  have hlist := Cedar.Entities.list_of_fromEntities (mapError_eq_ok (labelled_eq_ok hes))
  refine ⟨Cedar.Request.eq_of_new (mapError_eq_ok (labelled_eq_ok hreq)), ?_, ?_⟩
  · refine Cedar.Entities.find?_of_mem (e := c.principalEnt) ?_
    rw [hlist]
    exact List.mem_cons_self
  · refine Cedar.Entities.find?_of_mem (e := c.resourceEnt) ?_
    rw [hlist]
    exact List.mem_cons_of_mem _ List.mem_cons_self

end Documented

namespace Translated

variable {r : DecisionRequest} {c : Complete r} {req : Cedar.Request} {es : Cedar.Entities}
  {attr : String} {v : Cedar.Value}

theorem principalAttr_eval (t : Translated c req es)
    (h : c.principalEnt.attrs.lookup attr = some v) :
    EvaluatesTo req es (principalAttr attr) v := by
  refine Cedar.evaluatesTo_getAttr (Cedar.evaluatesTo_var .principal) ?_
  rw [t.request_eq, Cedar.Request.lookup, Cedar.getAttr, t.principal_found]
  simp only [Cedar.attrOf, h]

theorem resourceAttr_eval (t : Translated c req es)
    (h : c.resourceEnt.attrs.lookup attr = some v) :
    EvaluatesTo req es (resourceAttr attr) v := by
  refine Cedar.evaluatesTo_getAttr (Cedar.evaluatesTo_var .resource) ?_
  rw [t.request_eq, Cedar.Request.lookup, Cedar.getAttr, t.resource_found]
  simp only [Cedar.attrOf, h]

theorem contextAttr_eval (t : Translated c req es) (h : c.pairs.lookup attr = some v) :
    EvaluatesTo req es (contextAttr attr) v := by
  refine Cedar.evaluatesTo_getAttr (Cedar.evaluatesTo_var .context) ?_
  rw [t.request_eq, Cedar.Request.lookup, Cedar.getAttr]
  simp only [Cedar.attrOf, h]

theorem inProduction_eval (t : Translated c req es) :
    EvaluatesTo req es inProduction (.bool (c.environment == "production")) := by
  have h : EvaluatesTo req es (resourceAttr "environment") (.string c.environment) :=
    t.resourceAttr_eval rfl
  have := Cedar.evaluatesTo_eq h (Cedar.evaluatesTo_lit (.string "production"))
  rwa [Cedar.eqv_string] at this

theorem sameDomain_eval (t : Translated c req es) :
    EvaluatesTo req es sameDomain
      (.bool (c.principal.authorityDomain == c.resource.authorityDomain)) := by
  have h : EvaluatesTo req es (principalAttr "authority_domain")
    (.string c.principal.authorityDomain) := t.principalAttr_eval rfl
  have h' : EvaluatesTo req es (resourceAttr "authority_domain")
    (.string c.resource.authorityDomain) := t.resourceAttr_eval rfl
  have := Cedar.evaluatesTo_eq h h'
  rwa [Cedar.eqv_string] at this

theorem atAal3_eval (t : Translated c req es) :
    EvaluatesTo req es atAal3 (.bool (authLevelToStr c.principal.aal == "AAL3")) := by
  have h : EvaluatesTo req es (principalAttr "aal")
    (.string (authLevelToStr c.principal.aal)) := t.principalAttr_eval rfl
  have := Cedar.evaluatesTo_eq h (Cedar.evaluatesTo_lit (.string "AAL3"))
  rwa [Cedar.eqv_string] at this

theorem hasTicket_eval (t : Translated c req es) :
    EvaluatesTo req es hasTicket (.bool !(c.context.ticketRef == "")) := by
  have h : EvaluatesTo req es (contextAttr "ticket_ref") (.string c.context.ticketRef) :=
    t.contextAttr_eval rfl
  have := Cedar.evaluatesTo_not (Cedar.evaluatesTo_eq h (Cedar.evaluatesTo_lit (.string "")))
  rwa [Cedar.eqv_string] at this

theorem hasApproval_eval (t : Translated c req es) :
    EvaluatesTo req es hasApproval (.bool !c.context.approvals.isEmpty) := by
  have h : EvaluatesTo req es (contextAttr "approvals")
    (.set (c.context.approvals.map approvalValue)) := t.contextAttr_eval rfl
  have := Cedar.evaluatesTo_not (Cedar.evaluatesTo_isEmpty h)
  rwa [List.isEmpty_map] at this

/-- The freshness clause is true exactly of the stated window: a difference
that overflows is outside it. -/
theorem freshPosture_true_iff (t : Translated c req es) :
    EvaluatesTo req es freshPosture (.bool true) ↔
      0 ≤ c.requestedAt.seconds.toInt - c.evaluatedAt.seconds.toInt ∧
        c.requestedAt.seconds.toInt - c.evaluatedAt.seconds.toInt ≤ 3600 := by
  have hposture : EvaluatesTo req es (contextAttr "posture")
    (postureRecord c.posture c.evaluatedAt.seconds) := t.contextAttr_eval rfl
  have hev : EvaluatesTo req es evaluatedAtExpr (.long c.evaluatedAt.seconds) :=
    Cedar.evaluatesTo_getAttr hposture rfl
  have hreq : EvaluatesTo req es (contextAttr "requested_at") (.long c.requestedAt.seconds) :=
    t.contextAttr_eval rfl
  have hle := Cedar.evaluatesTo_lessEq hev hreq
  have hnonneg : c.evaluatedAt.seconds ≤ c.requestedAt.seconds ↔
      0 ≤ c.requestedAt.seconds.toInt - c.evaluatedAt.seconds.toInt := by
    rw [Int64.le_iff_toInt_le, Int.sub_nonneg]
  rw [freshPosture, Cedar.evaluatesTo_and_true_iff, Cedar.evaluatesTo_true_iff hle,
    decide_eq_true_iff, ← hnonneg]
  exact and_congr_right fun h => Cedar.evaluatesTo_sub_lessEq_iff hreq hev h

theorem scope_eval (t : Translated c req es) :
    EvaluatesTo req es dbConnectScope.toExpr (.bool (c.action.verb == "db.connect")) := by
  have h := Cedar.evaluatesTo_scope dbConnectScope req es
  have hprincipal : (req.principal.type == dbConnectScope.principalIs) = true := by
    rw [t.request_eq]
    rfl
  have hresource : (req.resource.type == dbConnectScope.resourceIs) = true := by
    rw [t.request_eq]
    rfl
  have haction : (req.action == dbConnectScope.actionEq) = (c.action.verb == "db.connect") := by
    rw [t.request_eq, Bool.eq_iff_iff, beq_iff_eq, beq_iff_eq]
    exact ⟨congrArg Cedar.EntityUid.id, congrArg (entityUid "Action")⟩
  rwa [hprincipal, haction, hresource, Bool.true_and, Bool.and_true] at h

end Translated

theorem authLevelToStr_eq_aal3 {aal : Int32} : authLevelToStr aal = "AAL3" ↔ aal = 3 := by
  rw [authLevelToStr]
  constructor
  · intro h
    split at h
    · simp at h
    · split at h
      · simp at h
      · split at h
        · assumption
        · simp at h
  · rintro rfl
    rfl

/-- What the permit asks of a complete request. -/
structure Complete.Granted {r : DecisionRequest} (c : Complete r) : Prop where
  verb : c.action.verb = "db.connect"
  production : c.environment = "production"
  domain : c.principal.authorityDomain = c.resource.authorityDomain
  aal3 : c.principal.aal = 3
  ticket : c.context.ticketRef ≠ ""
  approvals : c.context.approvals ≠ []
  evaluatedBefore : 0 ≤ c.requestedAt.seconds.toInt - c.evaluatedAt.seconds.toInt
  evaluatedWithin : c.requestedAt.seconds.toInt - c.evaluatedAt.seconds.toInt ≤ 3600

section Policies

variable {r : DecisionRequest} {c : Complete r} {req : Cedar.Request} {es : Cedar.Entities}

/-- A policy of the corpus applies to `db.connect` when its clauses are true. -/
theorem condition_true_iff (t : Translated c req es) (p : CorpusPolicy) :
    p.condition req es = .ok true ↔ c.action.verb = "db.connect" ∧
      ∀ cl ∈ p.clauses, EvaluatesTo req es cl.toExpr (.bool true) := by
  rw [CorpusPolicy.condition, Cedar.evalCondition_true_iff, CorpusPolicy.expr,
    Cedar.conditionExpr_true_iff, Cedar.evaluatesTo_true_iff t.scope_eval, beq_iff_eq]

theorem dbConnectProduction_true_iff (t : Translated c req es) :
    dbConnectProduction.condition req es = .ok true ↔ c.Granted := by
  rw [condition_true_iff t]
  simp only [dbConnectProduction, List.forall_mem_cons, List.not_mem_nil, false_imp_iff,
    implies_true, and_true, Cedar.Clause.toExpr, Cedar.evaluatesTo_true_iff t.inProduction_eval,
    Cedar.evaluatesTo_true_iff t.sameDomain_eval, Cedar.evaluatesTo_true_iff t.atAal3_eval,
    Cedar.evaluatesTo_true_iff t.hasTicket_eval, Cedar.evaluatesTo_true_iff t.hasApproval_eval,
    t.freshPosture_true_iff, beq_iff_eq, Bool.not_eq_true', beq_eq_false_iff_ne,
    List.isEmpty_eq_false_iff, authLevelToStr_eq_aal3]
  constructor
  · rintro ⟨h1, h2, h3, h4, h5, h6, h7, h8⟩
    exact ⟨h1, h2, h3, h4, h5, h6, h7, h8⟩
  · rintro ⟨h1, h2, h3, h4, h5, h6, h7, h8⟩
    exact ⟨h1, h2, h3, h4, h5, h6, h7, h8⟩

theorem guardrailAal3_true_iff (t : Translated c req es) :
    guardrailAal3.condition req es = .ok true ↔ c.action.verb = "db.connect" ∧
      c.environment = "production" ∧ c.principal.aal ≠ 3 := by
  rw [condition_true_iff t]
  simp only [guardrailAal3, List.forall_mem_cons, List.not_mem_nil, false_imp_iff, implies_true,
    and_true, Cedar.Clause.toExpr, Cedar.evaluatesTo_true_iff t.inProduction_eval,
    Cedar.evaluatesTo_true_iff (Cedar.evaluatesTo_not t.atAal3_eval), beq_iff_eq,
    Bool.not_eq_true', beq_eq_false_iff_ne, ne_eq, authLevelToStr_eq_aal3]

theorem guardrailDomain_true_iff (t : Translated c req es) :
    guardrailDomain.condition req es = .ok true ↔ c.action.verb = "db.connect" ∧
      c.principal.authorityDomain ≠ c.resource.authorityDomain := by
  rw [condition_true_iff t]
  simp only [guardrailDomain, List.forall_mem_cons, List.not_mem_nil, false_imp_iff, implies_true,
    and_true, Cedar.Clause.toExpr,
    Cedar.evaluatesTo_true_iff (Cedar.evaluatesTo_not t.sameDomain_eval),
    Bool.not_eq_true', beq_eq_false_iff_ne]

theorem guardrailTicketApproval_true_iff (t : Translated c req es) :
    guardrailTicketApproval.condition req es = .ok true ↔ c.action.verb = "db.connect" ∧
      c.environment = "production" ∧ ¬ (c.context.ticketRef ≠ "" ∧ c.context.approvals ≠ []) := by
  have hboth := Cedar.evaluatesTo_not
    (Cedar.evaluatesTo_and t.hasTicket_eval fun _ => t.hasApproval_eval)
  rw [condition_true_iff t]
  simp only [guardrailTicketApproval, List.forall_mem_cons, List.not_mem_nil, false_imp_iff,
    implies_true, and_true, Cedar.Clause.toExpr, Cedar.evaluatesTo_true_iff t.inProduction_eval,
    Cedar.evaluatesTo_true_iff hboth, beq_iff_eq, Bool.not_eq_true', Bool.and_eq_false_iff,
    Bool.not_eq_false', List.isEmpty_iff, not_and_or, not_not, ne_eq]

/-- On a translated request every guardrail evaluates. -/
theorem guardrail_evaluates (t : Translated c req es) {g : CorpusPolicy} (hg : g ∈ guardrails) :
    ∃ b, g.condition req es = .ok b := by
  have hclauses : ∀ cl ∈ g.clauses, ∃ b, EvaluatesTo req es cl.toExpr (.bool b) := by
    simp only [guardrails, List.mem_cons, List.not_mem_nil, or_false] at hg
    rcases hg with rfl | rfl | rfl
    · simp only [guardrailAal3, List.forall_mem_cons, Cedar.Clause.toExpr]
      exact ⟨⟨_, t.inProduction_eval⟩, ⟨_, Cedar.evaluatesTo_not t.atAal3_eval⟩, by simp⟩
    · simp only [guardrailDomain, List.forall_mem_cons, Cedar.Clause.toExpr]
      exact ⟨⟨_, Cedar.evaluatesTo_not t.sameDomain_eval⟩, by simp⟩
    · simp only [guardrailTicketApproval, List.forall_mem_cons, Cedar.Clause.toExpr]
      exact ⟨⟨_, t.inProduction_eval⟩, ⟨_, Cedar.evaluatesTo_not
        (Cedar.evaluatesTo_and t.hasTicket_eval fun _ => t.hasApproval_eval)⟩, by simp⟩
  obtain ⟨b, hb⟩ := Cedar.conditionExpr_evaluates ⟨_, t.scope_eval⟩ hclauses
  exact ⟨b, Cedar.evalCondition_of_evaluatesTo hb⟩

end Policies

end ZeroSecret.Policy
