import ZeroSecret.Policy.Replay

/-!
# The reasons a decision carries

A request that is not translated is refused for one reason, and two of these
repeat a text of the request: an unknown resource type, and whatever the engine
says of an unknown verb. A request that is evaluated carries the names of the
policies that decided.
-/

namespace ZeroSecret.Policy

open Crypto Fallible

/-- Reasons a sealed event has room for. -/
structure FewReasons (reasons : List String) : Prop where
  length : reasons.length ≤ 4
  fit : ∀ reason ∈ reasons, BoundedAsciiOk 256 reason

theorem fewReasons_singleton {reason : String} :
    FewReasons [reason] ↔ BoundedAsciiOk 256 reason := by
  constructor
  · intro h
    exact h.fit reason List.mem_cons_self
  · intro h
    refine ⟨Nat.le_of_ble_eq_true rfl, ?_⟩
    intro other hother
    rw [List.mem_singleton.mp hother]
    exact h

/-! ## Evaluated requests -/

theorem reason_length_le {ps : Cedar.PolicySet} {req : Cedar.Request} {es : Cedar.Entities} :
    (ps.isAuthorized req es).reason.length ≤ ps.list.length := by
  have hle (effect : Cedar.Effect) :
      ((ps.satisfied effect req es).map Cedar.Policy.id).length ≤ ps.list.length := by
    rw [List.length_map]
    exact List.length_filter_le _ _
  rw [Cedar.PolicySet.isAuthorized]
  split
  · exact hle .permit
  · exact hle .forbid

theorem corpus_labels : ∀ p ∈ corpus.list, BoundedAsciiOk 256 (policyLabel p) := by
  decide

/-- The policies of the corpus are four, and their names are short. -/
theorem evaluated_fewReasons {message : ErrorText} {policyVersion : String} {order : Enumeration}
    {req : Cedar.Request} {es : Cedar.Entities} :
    FewReasons ((order.val ((Pdp.shipped message policyVersion).engine.isAuthorized req es).reason).map
      (Pdp.shipped message policyVersion).label) := by
  have hperm := order.property (corpus.isAuthorized req es).reason
  constructor
  · rw [List.length_map]
    exact hperm.length_eq.trans_le reason_length_le
  · intro reason hreason
    obtain ⟨id, hid, rfl⟩ := List.mem_map.mp hreason
    obtain ⟨p, ⟨hp, -⟩, rfl⟩ := Cedar.mem_reason_iff.mp (hperm.mem_iff.mp hid)
    rw [Pdp.shipped, label_of_mem hp]
    exact corpus_labels p hp

theorem shipped_reasons_length (P : Primitives) (message : ErrorText) (policyVersion : String)
    (order : Enumeration) (r : DecisionRequest) :
    ((Pdp.shipped message policyVersion).decide P order r).reasons.length ≤ 4 := by
  by_cases hs : (Pdp.shipped message policyVersion).Serves r
  · cases ht : translate (Pdp.shipped message policyVersion).engine r with
    | error reason =>
        rw [Pdp.decide_refused hs ht]
        exact Nat.le_of_ble_eq_true rfl
    | ok x =>
        rw [Pdp.decide_evaluated hs ht]
        exact evaluated_fewReasons.length
  · rw [Pdp.decide_unserved hs]
    exact Nat.le_of_ble_eq_true rfl

/-! ## Requests with every part -/

/-- A request as the broker builds it: nothing is left out but, maybe, the
environment of the resource. -/
structure Filled (r : DecisionRequest) (principal : Principal) (resource : Resource)
    (action : Action) (context : Context) : Prop where
  version : r.policyVersion = ""
  principal_eq : r.principal = some principal
  resource_eq : r.resource = some resource
  action_eq : r.action = some action
  context_eq : r.context = some context
  authenticatedAt : ∃ t, principal.authenticatedAt = some t
  requestedAt : ∃ t, context.requestedAt = some t
  posture : ∃ posture t, context.posture = some posture ∧ posture.evaluatedAt = some t
  approved : ∀ a ∈ context.approvals, ∃ t, a.approvedAt = some t

/-- The texts of a request that end in a reason fit there: the type when it is
not known, and what is said of the verb when it is not known. -/
structure ReasonsFit (message : ErrorText) (resource : Resource) (verb : String) : Prop where
  type : resource.type ≠ "Database" →
    BoundedAsciiOk 256 ("resource_type_inconnu:" ++ resource.type)
  verb : resource.type = "Database" → (∃ e, resource.attributes.get "environment" = some e) →
    verb ≠ "db.connect" → BoundedAsciiOk 256
      ("requete_invalide:" ++ message.request (.undeclaredAction (entityUid "Action" verb)))

section Filled

variable {P : Primitives} {message : ErrorText} {policyVersion : String} {order : Enumeration}
  {r : DecisionRequest} {principal : Principal} {resource : Resource} {action : Action}
  {context : Context} (h : Filled r principal resource action context)

include h

theorem Filled.translate_type {engine : Engine} (htype : resource.type ≠ "Database") :
    translate engine r = .error ("resource_type_inconnu:" ++ resource.type) := by
  rw [translate, h.principal_eq, h.resource_eq, h.action_eq, h.context_eq]
  exact if_pos htype

theorem Filled.translate_environment {engine : Engine} (htype : resource.type = "Database")
    (hnone : resource.attributes.get "environment" = none) :
    translate engine r = .error "resource_attribute_environment_absent" := by
  obtain ⟨t, ht⟩ := h.authenticatedAt
  have hprincipal : principalEntity principal =
      .ok ⟨entityUid "Principal" principal.subjectId, principalAttrs principal t.seconds⟩ := by
    rw [principalEntity, ht]
    rfl
  have hresource : databaseEntity resource = .error "resource_attribute_environment_absent" := by
    rw [databaseEntity, hnone]
    rfl
  rw [translate, h.principal_eq, h.resource_eq, h.action_eq, h.context_eq]
  refine (if_neg (not_not_intro htype)).trans ?_
  rw [hprincipal, hresource]
  rfl

theorem Filled.complete (htype : resource.type = "Database") {environment : String}
    (henv : resource.attributes.get "environment" = some environment) :
    ∃ c : Complete r, c.action = action := by
  obtain ⟨authenticatedAt, hauthenticated⟩ := h.authenticatedAt
  obtain ⟨requestedAt, hrequested⟩ := h.requestedAt
  obtain ⟨posture, evaluatedAt, hposture, hevaluated⟩ := h.posture
  exact ⟨{
    principal, resource, action, context, authenticatedAt, environment, requestedAt, posture
    evaluatedAt
    principal_eq := h.principal_eq
    resource_eq := h.resource_eq
    action_eq := h.action_eq
    context_eq := h.context_eq
    type_eq := htype
    authenticatedAt_eq := hauthenticated
    environment_eq := henv
    requestedAt_eq := hrequested
    posture_eq := hposture
    evaluatedAt_eq := hevaluated
    approved := h.approved }, rfl⟩

/-- **When the reasons of a decision fit.** -/
theorem Filled.fewReasons_iff :
    FewReasons ((Pdp.shipped message policyVersion).decide P order r).reasons ↔
      ReasonsFit message resource action.verb := by
  have hserves : (Pdp.shipped message policyVersion).Serves r := Or.inl h.version
  have hrefused {reason : String}
      (ht : translate (Pdp.shipped message policyVersion).engine r = .error reason) :
      FewReasons ((Pdp.shipped message policyVersion).decide P order r).reasons ↔
        BoundedAsciiOk 256 reason := by
    rw [Pdp.decide_refused hserves ht]
    exact fewReasons_singleton
  by_cases htype : resource.type = "Database"
  · cases henv : resource.attributes.get "environment" with
    | none =>
        rw [hrefused (h.translate_environment htype henv)]
        refine iff_of_true (by decide) ⟨fun hne => absurd htype hne, ?_⟩
        rintro - ⟨e, he⟩
        cases henv.symm.trans he
    | some environment =>
        obtain ⟨c, hc⟩ := h.complete htype henv
        by_cases hverb : action.verb = "db.connect"
        · obtain ⟨req, es, ht⟩ := (@translate_shipped message corpus r c).1 (hc ▸ hverb)
          rw [Pdp.decide_evaluated hserves ht]
          exact iff_of_true evaluated_fewReasons
            ⟨fun hne => absurd htype hne, fun _ _ hne => absurd hverb hne⟩
        · have ht := (@translate_shipped message corpus r c).2 (hc ▸ hverb)
          rw [hrefused ht, Complete.actionUid, hc]
          constructor
          · intro hfit
            exact ⟨fun hne => absurd htype hne, fun _ _ _ => hfit⟩
          · intro hfit
            exact hfit.verb htype ⟨environment, henv⟩ hverb
  · rw [hrefused (h.translate_type htype)]
    constructor
    · intro hfit
      exact ⟨fun _ => hfit, fun heq => absurd heq htype⟩
    · intro hfit
      exact hfit.type htype

end Filled

end ZeroSecret.Policy
