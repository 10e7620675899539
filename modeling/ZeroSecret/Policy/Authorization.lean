import ZeroSecret.Policy.Corpus

/-!
# What the PDP allows

The exact set of requests the shipped corpus allows, every refusal it gives
the others, and the bound the guardrails put on any policy set that contains
them.
-/

namespace ZeroSecret.Policy

open Crypto Fallible

variable {message : ErrorText} {policies : Cedar.PolicySet} {r : DecisionRequest}

/-! ## The shipped schema accepts what the translation builds -/

section Schema

variable (c : Complete r)

theorem principal_conforms :
    (Cedar.Value.record c.principalEnt.attrs).conforms (.record principalShape) = true := by
  simp [Complete.principalEnt, principalAttrs, principalShape, Cedar.Value.conforms,
    Cedar.membersConform, Cedar.allConform_iff, List.lookup_cons, List.lookup_nil]

theorem database_conforms :
    (Cedar.Value.record c.resourceEnt.attrs).conforms (.record databaseShape) = true := by
  simp [Complete.resourceEnt, databaseAttrs, databaseShape, Cedar.Value.conforms,
    Cedar.membersConform, List.lookup_cons, List.lookup_nil]

theorem context_conforms :
    (Cedar.Value.record c.pairs).conforms (.record dbConnectContext) = true := by
  simp [Complete.pairs, contextPairs, dbConnectContext, postureRecord, postureShape,
    approvalValue, approvalShape, Cedar.Value.conforms, Cedar.membersConform,
    Cedar.allConform_iff, List.lookup_cons, List.lookup_nil]

theorem principal_declared :
    cedarSchema.entityTypes.lookup c.principalUid.type = some principalShape := rfl

theorem database_declared :
    cedarSchema.entityTypes.lookup c.resourceUid.type = some databaseShape := rfl

/-- Principal, database and action have three types. -/
theorem uids_nodup : (([c.principalEnt, c.resourceEnt] ++ cedarSchema.actionEntities).map
    Cedar.Entity.uid).Nodup := by
  have hne : ∀ name name' id id', "ZeroSecret::" ++ name ≠ "ZeroSecret::" ++ name' →
      entityUid name id ≠ entityUid name' id' := fun _ _ _ _ h e =>
    h (congrArg Cedar.EntityUid.type e)
  have hpr : c.principalUid ≠ c.resourceUid := hne "Principal" "Database" _ _ (by decide)
  have hpa : c.principalUid ≠ dbConnect := hne "Principal" "Action" _ "db.connect" (by decide)
  have hra : c.resourceUid ≠ dbConnect := hne "Database" "Action" _ "db.connect" (by decide)
  simp [cedarSchema, Cedar.Schema.actionEntities, Complete.principalEnt, Complete.resourceEnt,
    hpr, hpa, hra]

/-- The store is accepted. -/
theorem fromEntities_shipped : ∃ es,
    Cedar.Entities.fromEntities cedarSchema [c.principalEnt, c.resourceEnt] = .ok es := by
  have hp : cedarSchema.entityError c.principalEnt = none := by
    rw [Cedar.Schema.entityError, Complete.principalEnt, principal_declared]
    exact if_pos (principal_conforms c)
  have hd : cedarSchema.entityError c.resourceEnt = none := by
    rw [Cedar.Schema.entityError, Complete.resourceEnt, database_declared]
    exact if_pos (database_conforms c)
  have hnone : [c.principalEnt, c.resourceEnt].findSome? cedarSchema.entityError = none := by
    rw [List.findSome?_cons, hp, List.findSome?_cons, hd]
    rfl
  rw [Cedar.Entities.fromEntities, hnone]
  exact ⟨_, dif_pos (uids_nodup c)⟩

/-- Of the verbs, `db.connect` alone is declared. -/
theorem newRequest_shipped :
    Cedar.Request.new cedarSchema c.principalUid c.actionUid c.resourceUid c.pairs =
      if c.action.verb = "db.connect" then
        .ok ⟨c.principalUid, c.actionUid, c.resourceUid, c.pairs⟩
      else .error (.undeclaredAction c.actionUid) := by
  rw [Cedar.Request.new, principal_declared, database_declared]
  by_cases hverb : c.action.verb = "db.connect"
  · have haction : cedarSchema.actions.lookup c.actionUid = some
        ⟨["ZeroSecret::Principal"], ["ZeroSecret::Database"], dbConnectContext⟩ := by
      rw [show c.actionUid = dbConnect from congrArg (entityUid "Action") hverb]
      rfl
    rw [haction, if_pos hverb]
    simp only [context_conforms c]
    rfl
  · have haction : cedarSchema.actions.lookup c.actionUid = none := by
      have hne : (c.actionUid == dbConnect) = false := by
        rw [beq_eq_false_iff_ne]
        exact fun e => hverb (congrArg Cedar.EntityUid.id e)
      simp only [cedarSchema, List.lookup_cons, List.lookup_nil, hne]
    rw [haction, if_neg hverb]
    rfl

/-- **Translation against the shipped schema**: a complete request for
`db.connect` passes, one for another verb is refused with the engine's text. -/
theorem translate_shipped :
    (c.action.verb = "db.connect" → ∃ req es,
      translate (.documented message cedarSchema policies) r = .ok (req, es)) ∧
    (c.action.verb ≠ "db.connect" →
      translate (.documented message cedarSchema policies) r =
        .error ("requete_invalide:" ++ message.request (.undeclaredAction c.actionUid))) := by
  obtain ⟨es, hes⟩ := fromEntities_shipped c
  have hreq := newRequest_shipped c
  rw [c.translate_eq]
  simp only [Engine.documented, hes, hreq]
  constructor
  · intro hverb
    rw [if_pos hverb]
    exact ⟨_, _, rfl⟩
  · intro hverb
    rw [if_neg hverb]
    rfl

end Schema

/-! ## The shipped corpus -/

/-- The decision the requirement states, over the message itself. -/
def Allowed (policyVersion : String) (r : DecisionRequest) : Prop :=
  (r.policyVersion = "" ∨ r.policyVersion = policyVersion) ∧
  ∃ principal resource action context authenticatedAt requestedAt posture evaluatedAt,
    r.principal = some principal ∧ r.resource = some resource ∧
    r.action = some action ∧ r.context = some context ∧
    principal.authenticatedAt = some authenticatedAt ∧
    context.requestedAt = some requestedAt ∧
    context.posture = some posture ∧ posture.evaluatedAt = some evaluatedAt ∧
    (∀ a ∈ context.approvals, a.approvedAt.isSome = true) ∧
    resource.type = "Database" ∧ action.verb = "db.connect" ∧
    resource.attributes.get "environment" = some "production" ∧
    principal.aal = 3 ∧ principal.authorityDomain = resource.authorityDomain ∧
    context.ticketRef ≠ "" ∧ context.approvals ≠ [] ∧
    0 ≤ requestedAt.seconds.toInt - evaluatedAt.seconds.toInt ∧
    requestedAt.seconds.toInt - evaluatedAt.seconds.toInt ≤ 3600

/-- A stated requirement is a complete request the permit grants. -/
theorem allowed_iff {policyVersion : String} : Allowed policyVersion r ↔
    (r.policyVersion = "" ∨ r.policyVersion = policyVersion) ∧
      ∃ c : Complete r, c.Granted := by
  refine and_congr_right fun _ => ?_
  constructor
  · rintro ⟨principal, resource, action, context, authenticatedAt, requestedAt, posture,
      evaluatedAt, hp, hr, ha, hc, hat, hra, hpo, hea, happ, htype, hverb, henv, haal, hdom,
      hticket, happs, h0, h1⟩
    exact ⟨{
      principal, resource, action, context, authenticatedAt, requestedAt, posture, evaluatedAt
      environment := "production"
      principal_eq := hp
      resource_eq := hr
      action_eq := ha
      context_eq := hc
      type_eq := htype
      authenticatedAt_eq := hat
      environment_eq := henv
      requestedAt_eq := hra
      posture_eq := hpo
      evaluatedAt_eq := hea
      approved := fun a h => Option.isSome_iff_exists.mp (happ a h) },
      ⟨hverb, rfl, hdom, haal, hticket, happs, h0, h1⟩⟩
  · rintro ⟨c, g⟩
    refine ⟨c.principal, c.resource, c.action, c.context, c.authenticatedAt, c.requestedAt,
      c.posture, c.evaluatedAt, c.principal_eq, c.resource_eq, c.action_eq, c.context_eq,
      c.authenticatedAt_eq, c.requestedAt_eq, c.posture_eq, c.evaluatedAt_eq, ?_, c.type_eq,
      g.verb, ?_, g.aal3, g.domain, g.ticket, g.approvals, g.evaluatedBefore, g.evaluatedWithin⟩
    · exact fun a h => Option.isSome_iff_exists.mpr (c.approved a h)
    · rw [c.environment_eq, g.production]

section Corpus

variable {c : Complete r} {req : Cedar.Request} {es : Cedar.Entities}

theorem corpus_list : corpus.list = [dbConnectProduction.toPolicy "policy0",
    guardrailAal3.toPolicy "policy1", guardrailDomain.toPolicy "policy2",
    guardrailTicketApproval.toPolicy "policy3"] := rfl

/-- The guardrails are redundant with the permit: what it grants, none of them
forbids. -/
theorem corpus_allow_iff (t : Translated c req es) :
    (corpus.isAuthorized req es).decision = .allow ↔ c.Granted := by
  have hpermit : (dbConnectProduction.toPolicy "policy0").condition req es = .ok true ↔
    c.Granted := dbConnectProduction_true_iff t
  have h1 : (guardrailAal3.toPolicy "policy1").condition req es = .ok true ↔ _ :=
    guardrailAal3_true_iff t
  have h2 : (guardrailDomain.toPolicy "policy2").condition req es = .ok true ↔ _ :=
    guardrailDomain_true_iff t
  have h3 : (guardrailTicketApproval.toPolicy "policy3").condition req es = .ok true ↔ _ :=
    guardrailTicketApproval_true_iff t
  rw [Cedar.isAuthorized_allow_iff, corpus_list]
  constructor
  · rintro ⟨⟨p, hp, heff, hcond⟩, _⟩
    simp only [List.mem_cons, List.not_mem_nil, or_false] at hp
    rcases hp with rfl | rfl | rfl | rfl
    · exact hpermit.mp hcond
    all_goals cases heff
  · intro g
    refine ⟨⟨_, List.mem_cons_self, rfl, hpermit.mpr g⟩, ?_⟩
    intro p hp heff
    simp only [List.mem_cons, List.not_mem_nil, or_false] at hp
    rcases hp with rfl | rfl | rfl | rfl
    · cases heff
    · rw [ne_eq, h1]
      exact fun h => h.2.2 g.aal3
    · rw [ne_eq, h2]
      exact fun h => h.2 g.domain
    · rw [ne_eq, h3]
      exact fun h => h.2.2 ⟨g.ticket, g.approvals⟩

theorem shipped_allow_iff_granted (P : Primitives) (message : ErrorText) (policyVersion : String)
    (order : Enumeration) :
    ((Pdp.shipped message policyVersion).decide P order r).effect = effectAllow ↔
      (r.policyVersion = "" ∨ r.policyVersion = policyVersion) ∧ ∃ c : Complete r, c.Granted := by
  rw [Pdp.decide_allow_iff]
  refine and_congr_right fun _ => ?_
  constructor
  · rintro ⟨req, es, ht, hallow⟩
    obtain ⟨c⟩ := complete_of_translate ht
    exact ⟨c, (corpus_allow_iff (translated_of_translate c ht)).mp hallow⟩
  · rintro ⟨c, g⟩
    obtain ⟨req, es, ht⟩ := (translate_shipped c).1 g.verb
    exact ⟨req, es, ht, (corpus_allow_iff (translated_of_translate c ht)).mpr g⟩

end Corpus

/-- **What the shipped PDP allows.** A decision is `ALLOW` on exactly the
requests the requirement states, and `DENY` on every other one. -/
theorem shipped_decides (P : Primitives) (message : ErrorText) (policyVersion : String)
    (order : Enumeration) (r : DecisionRequest) :
    (((Pdp.shipped message policyVersion).decide P order r).effect = effectAllow ↔
      Allowed policyVersion r) ∧
    (¬ Allowed policyVersion r →
      ((Pdp.shipped message policyVersion).decide P order r).effect = effectDeny) := by
  have hiff : ((Pdp.shipped message policyVersion).decide P order r).effect = effectAllow ↔
      Allowed policyVersion r := by
    rw [shipped_allow_iff_granted, allowed_iff]
  refine ⟨hiff, fun hnot => ?_⟩
  obtain ⟨d, reasons, hd⟩ := Pdp.decide_form P (Pdp.shipped message policyVersion) order r
  rw [hd] at hiff ⊢
  cases d with
  | allow => exact absurd (hiff.mp rfl) hnot
  | deny => rfl

/-! ## The guardrails -/

/-- The three forbids are among the policies, under any identifier. -/
def ContainsGuardrails (policies : Cedar.PolicySet) : Prop :=
  ∀ g ∈ guardrails, ∃ p ∈ policies.list, p.effect = .forbid ∧ p.condition = g.condition

theorem corpus_containsGuardrails : ContainsGuardrails corpus := by
  intro g hg
  simp only [guardrails, List.mem_cons, List.not_mem_nil, or_false] at hg
  rw [corpus_list]
  rcases hg with rfl | rfl | rfl
  · exact ⟨guardrailAal3.toPolicy "policy1", by simp, rfl, rfl⟩
  · exact ⟨guardrailDomain.toPolicy "policy2", by simp, rfl, rfl⟩
  · exact ⟨guardrailTicketApproval.toPolicy "policy3", by simp, rfl, rfl⟩

/-- Where a decision allows, no guardrail applied. -/
theorem guardrail_not_true {schema : Cedar.Schema} {req : Cedar.Request} {es : Cedar.Entities}
    (hset : ContainsGuardrails policies)
    (hallow : ((Engine.documented message schema policies).isAuthorized req es).decision = .allow)
    {g : CorpusPolicy} (hg : g ∈ guardrails) : g.condition req es ≠ .ok true := by
  obtain ⟨p, hp, heff, hcond⟩ := hset g hg
  rw [← hcond]
  exact (Cedar.isAuthorized_allow_iff.mp hallow).2 p hp heff

/-- **The guardrails bound every policy set.** Whatever else a policy set
holds and whatever the schema, an `ALLOW` for `db.connect` stays within one
authority domain, and in production it has AAL3, a ticket and an approval; on
a translated request no guardrail can be skipped for an evaluation error. -/
theorem guardrails_bound_decisions (P : Primitives) (message : ErrorText) (schema : Cedar.Schema)
    (policies : Cedar.PolicySet) (policyVersion : String) (order : Enumeration)
    (r : DecisionRequest) (hset : ContainsGuardrails policies) :
    ((∃ action, r.action = some action ∧ action.verb = "db.connect") →
      ((⟨.documented message schema policies, policyVersion⟩ : Pdp).decide P order r).effect =
        effectAllow →
      ∃ principal resource context, r.principal = some principal ∧
        r.resource = some resource ∧ r.context = some context ∧
        principal.authorityDomain = resource.authorityDomain ∧
        (resource.attributes.get "environment" = some "production" →
          principal.aal = 3 ∧ context.ticketRef ≠ "" ∧ context.approvals ≠ [])) ∧
    ∀ req es, translate (.documented message schema policies) r = .ok (req, es) →
      ∀ g ∈ guardrails, ∃ b, g.condition req es = .ok b := by
  constructor
  · rintro ⟨action, haction, hverb⟩ hallow
    obtain ⟨_, req, es, ht, hallow⟩ := Pdp.decide_allow_iff.mp hallow
    obtain ⟨c⟩ := complete_of_translate ht
    have t := translated_of_translate c ht
    have hv : c.action.verb = "db.connect" := by
      rwa [Option.some.inj (c.action_eq.symm.trans haction)]
    have hdomain := guardrail_not_true (g := guardrailDomain) hset hallow (by simp [guardrails])
    have haal := guardrail_not_true (g := guardrailAal3) hset hallow (by simp [guardrails])
    have hboth := guardrail_not_true (g := guardrailTicketApproval) hset hallow
      (by simp [guardrails])
    rw [ne_eq, guardrailDomain_true_iff t] at hdomain
    rw [ne_eq, guardrailAal3_true_iff t] at haal
    rw [ne_eq, guardrailTicketApproval_true_iff t] at hboth
    refine ⟨c.principal, c.resource, c.context, c.principal_eq, c.resource_eq, c.context_eq,
      not_not.mp fun h => hdomain ⟨hv, h⟩, fun henv => ?_⟩
    have hprod : c.environment = "production" :=
      Option.some.inj (c.environment_eq.symm.trans henv)
    exact ⟨not_not.mp fun h => haal ⟨hv, hprod, h⟩,
      not_not.mp fun h => hboth ⟨hv, hprod, h⟩⟩
  · intro req es ht g hg
    obtain ⟨c⟩ := complete_of_translate ht
    exact guardrail_evaluates (translated_of_translate c ht) hg

/-! ### The nominal request -/

def Attributes.production : Attributes :=
  ⟨[("environment", "production")], List.nodup_singleton _⟩

/-- The nominal case of the tests. -/
def nominalRequest : DecisionRequest where
  requestId := "req-1"
  principal := some {
    subjectId := "sub-6b2f9c"
    aal := 3
    authMethod := "webauthn/device-bound"
    authenticatedAt := some ⟨1787500680, 0⟩
    roles := ["dba"]
    authorityDomain := "corp.eu-west" }
  action := some ⟨"db.connect"⟩
  resource := some ⟨"Database", "db-billing-prod", "corp.eu-west", .production⟩
  context := some {
    requestedAt := some ⟨1787500800, 0⟩
    sourceNetwork := "10.42.0.0/16"
    posture := some ⟨true, true, "2.4.1", some ⟨1787499000, 0⟩⟩
    ticketRef := "INC-482913"
    justification := "Correctif sur incident de facturation"
    approvals := [⟨"sub-a1f2e8", some ⟨1787500200, 0⟩, []⟩] }
  policyVersion := ""

def nominalComplete : Complete nominalRequest where
  principal := _
  resource := _
  action := _
  context := _
  authenticatedAt := ⟨1787500680, 0⟩
  environment := "production"
  requestedAt := ⟨1787500800, 0⟩
  posture := _
  evaluatedAt := ⟨1787499000, 0⟩
  principal_eq := rfl
  resource_eq := rfl
  action_eq := rfl
  context_eq := rfl
  type_eq := rfl
  authenticatedAt_eq := rfl
  environment_eq := rfl
  requestedAt_eq := rfl
  posture_eq := rfl
  evaluatedAt_eq := rfl
  approved := by
    intro a ha
    rw [List.mem_singleton.mp ha]
    exact ⟨_, rfl⟩

theorem nominal_granted : nominalComplete.Granted where
  verb := rfl
  production := rfl
  domain := rfl
  aal3 := rfl
  ticket := by simp [nominalComplete]
  approvals := by simp [nominalComplete]
  evaluatedBefore := by decide
  evaluatedWithin := by decide

/-- Texts that no accepted request shows. -/
def sampleText : ErrorText := ⟨fun _ => "entities", fun _ => "request"⟩

/-- The order in which the policies were written. -/
def Enumeration.asWritten : Enumeration := ⟨id, List.Perm.refl⟩

/-- The nominal request is one the guardrails bound. -/
theorem guardrails_bound_nominal :
    ((Pdp.shipped sampleText "v1").decide .standard .asWritten nominalRequest).effect =
      effectAllow ∧
    ∃ principal resource context, nominalRequest.principal = some principal ∧
      nominalRequest.resource = some resource ∧ nominalRequest.context = some context ∧
      principal.authorityDomain = resource.authorityDomain ∧
      (resource.attributes.get "environment" = some "production" →
        principal.aal = 3 ∧ context.ticketRef ≠ "" ∧ context.approvals ≠ []) := by
  have hallow : ((Pdp.shipped sampleText "v1").decide .standard .asWritten
      nominalRequest).effect = effectAllow :=
    (shipped_allow_iff_granted _ _ _ _).mpr ⟨Or.inl rfl, nominalComplete, nominal_granted⟩
  exact ⟨hallow, (guardrails_bound_decisions .standard sampleText cedarSchema corpus "v1"
    .asWritten nominalRequest corpus_containsGuardrails).1 ⟨_, rfl, rfl⟩ hallow⟩

end ZeroSecret.Policy
