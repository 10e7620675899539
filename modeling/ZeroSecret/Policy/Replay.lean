import ZeroSecret.Policy.Service

/-!
# Replaying a decision

A sealed decision is to be replayed bit by bit. Its reasons come from an
unordered set and canonicalisation keeps the order of an array, so a replay
can only reproduce them where the order does not show.
-/

namespace ZeroSecret.Policy

open Crypto Crypto.DecisionSeal Fallible

/-- Whatever order the reasons are enumerated in, one list of reasons and, at
one instant, one signed message. -/
def Replayable (P : Primitives) (pdp : Pdp) (r : DecisionRequest) : Prop :=
  ∀ order order' : Enumeration,
    (pdp.decide P order r).reasons = (pdp.decide P order' r).reasons ∧
    ∀ issuedAt f f', decisionFields (pdp.decide P order r) issuedAt = .ok f →
      decisionFields (pdp.decide P order' r) issuedAt = .ok f' → signedMessage f = signedMessage f'

/-! ## Orders -/

/-- Enumerate one identifier first, if it is in the set. -/
def Enumeration.first (id : String) : Enumeration :=
  ⟨fun ids => if id ∈ ids then id :: ids.erase id else ids, fun ids => by
    by_cases h : id ∈ ids
    · simp only [if_pos h]
      exact (List.perm_cons_erase h).symm
    · simp only [if_neg h]
      exact .refl _⟩

def Enumeration.reversed : Enumeration := ⟨List.reverse, List.reverse_perm⟩

theorem Enumeration.first_val {id : String} {ids : List String} (h : id ∈ ids) :
    (Enumeration.first id).val ids = id :: ids.erase id :=
  if_pos h

/-- The order of a list shows in a labelling unless all labels are equal. -/
theorem labels_order_free_iff {ids : List String} {label : String → String} :
    (∀ order order' : Enumeration, (order.val ids).map label = (order'.val ids).map label) ↔
      ∀ a ∈ ids, ∀ b ∈ ids, label a = label b := by
  constructor
  · intro h a ha b hb
    have := h (.first a) (.first b)
    rw [Enumeration.first_val ha, Enumeration.first_val hb] at this
    exact (List.cons.inj this).1
  · intro h order order'
    have hall : ∀ o : Enumeration, ∀ x ∈ (o.val ids).map label, ∀ y ∈ ids, x = label y := by
      intro o x hx y hy
      obtain ⟨a, ha, rfl⟩ := List.mem_map.mp hx
      exact h a ((o.property ids).mem_iff.mp ha) y hy
    cases ids with
    | nil =>
        rw [List.perm_nil.mp (order.property []), List.perm_nil.mp (order'.property [])]
    | cons a as =>
        have hrep : ∀ o : Enumeration, (o.val (a :: as)).map label =
            List.replicate (a :: as).length (label a) := by
          intro o
          rw [List.eq_replicate_iff, List.length_map, (o.property (a :: as)).length_eq]
          exact ⟨rfl, fun x hx => hall o x hx a List.mem_cons_self⟩
        rw [hrep order, hrep order']

/-! ## Decisions -/

/-- The name a determining policy gives to a decision. -/
def policyLabel (p : Cedar.Policy) : String := (p.annotations.lookup "id").getD p.id

section Replay

variable {P : Primitives} {pdp : Pdp} {r : DecisionRequest}

/-- The rest of a decision does not depend on the order. -/
theorem replayable_of_reasons (h : ∀ order order' : Enumeration,
      (pdp.decide P order r).reasons = (pdp.decide P order' r).reasons)
    (heffect : ∀ order order' : Enumeration,
      (pdp.decide P order r).effect = (pdp.decide P order' r).effect) :
    Replayable P pdp r := by
  intro order order'
  refine ⟨h order order', fun issuedAt f f' hf hf' => ?_⟩
  have hsame : decisionFields (pdp.decide P order r) issuedAt =
      decisionFields (pdp.decide P order' r) issuedAt := by
    obtain ⟨d, reasons, hd⟩ := Pdp.decide_form P pdp order r
    obtain ⟨d', reasons', hd'⟩ := Pdp.decide_form P pdp order' r
    have hr := h order order'
    have he := heffect order order'
    rw [hd, hd'] at hr he ⊢
    exact decisionFields_congr issuedAt rfl rfl he hr rfl rfl
  rw [hf, hf'] at hsame
  rw [Except.ok.inj hsame]

/-- A refusal before the authorizer has one reason. -/
theorem replayable_of_refused (h : ¬ (pdp.Serves r ∧ ∃ x, translate pdp.engine r = .ok x)) :
    Replayable P pdp r := by
  by_cases hs : pdp.Serves r
  · cases ht : translate pdp.engine r with
    | ok x => exact absurd ⟨hs, x, ht⟩ h
    | error reason =>
        refine replayable_of_reasons ?_ ?_ <;> intro order order' <;>
          rw [Pdp.decide_refused hs ht, Pdp.decide_refused hs ht]
  · refine replayable_of_reasons ?_ ?_ <;> intro order order' <;>
      rw [Pdp.decide_unserved hs, Pdp.decide_unserved hs]

/-- An evaluated decision is replayable when its reasons carry one label. -/
theorem replayable_evaluated_iff (P : Primitives) (pdp : Pdp) {req : Cedar.Request}
    {es : Cedar.Entities} (hs : pdp.Serves r) (ht : translate pdp.engine r = .ok (req, es)) :
    Replayable P pdp r ↔ ∀ a ∈ (pdp.engine.isAuthorized req es).reason,
      ∀ b ∈ (pdp.engine.isAuthorized req es).reason, pdp.label a = pdp.label b := by
  rw [← labels_order_free_iff]
  have hreasons : ∀ order : Enumeration, (pdp.decide P order r).reasons =
      (order.val (pdp.engine.isAuthorized req es).reason).map pdp.label := by
    intro order
    rw [Pdp.decide_evaluated hs ht]
    rfl
  constructor
  · intro h order order'
    rw [← hreasons order, ← hreasons order']
    exact (h order order').1
  · intro h
    refine replayable_of_reasons ?_ ?_
    · intro order order'
      rw [hreasons order, hreasons order', h order order']
    · intro order order'
      rw [Pdp.decide_evaluated hs ht, Pdp.decide_evaluated hs ht]
      rfl

end Replay

/-- The label of a policy in the set is read from its own annotations. -/
theorem label_of_mem {message : ErrorText} {schema : Cedar.Schema} {policies : Cedar.PolicySet}
    {policyVersion : String} {p : Cedar.Policy} (h : p ∈ policies.list) :
    (⟨.documented message schema policies, policyVersion⟩ : Pdp).label p.id = policyLabel p :=
  congrArg (Option.getD · p.id) (Cedar.PolicySet.annotation_of_mem h "id")

/-- **When a sealed decision can be replayed.** For every policy set and every
request: exactly when the request is refused before the authorizer, or the
policies that determine the outcome all carry one label. -/
theorem replayable_iff_one_label (P : Primitives) (message : ErrorText) (schema : Cedar.Schema)
    (policies : Cedar.PolicySet) (policyVersion : String) (r : DecisionRequest) :
    Replayable P ⟨.documented message schema policies, policyVersion⟩ r ↔
      (r.policyVersion = "" ∨ r.policyVersion = policyVersion →
        ∀ req es, translate (.documented message schema policies) r = .ok (req, es) →
          ∀ p q, policies.Determines req es p → policies.Determines req es q →
            policyLabel p = policyLabel q) := by
  constructor
  · intro h hs req es ht p q hp hq
    have h := (replayable_evaluated_iff P ⟨.documented message schema policies, policyVersion⟩
      hs ht).mp h
    have := h p.id (Cedar.mem_reason_iff.mpr ⟨p, hp, rfl⟩) q.id
      (Cedar.mem_reason_iff.mpr ⟨q, hq, rfl⟩)
    rwa [label_of_mem hp.1, label_of_mem hq.1] at this
  · intro h
    by_cases hr : (⟨.documented message schema policies, policyVersion⟩ : Pdp).Serves r ∧
        ∃ x, translate (.documented message schema policies) r = .ok x
    · obtain ⟨hs, ⟨req, es⟩, ht⟩ := hr
      refine (replayable_evaluated_iff P _ hs ht).mpr fun a ha b hb => ?_
      obtain ⟨p, hp, rfl⟩ := Cedar.mem_reason_iff.mp ha
      obtain ⟨q, hq, rfl⟩ := Cedar.mem_reason_iff.mp hb
      rw [label_of_mem hp.1, label_of_mem hq.1]
      exact h hs req es ht p q hp hq
    · exact replayable_of_refused hr

/-- The nominal request at AAL1, for a database of another domain: two
guardrails forbid it. -/
def twiceForbidden : DecisionRequest :=
  { nominalRequest with
    principal := nominalRequest.principal.map fun p => { p with aal := 1 }
    resource := some ⟨"Database", "db-billing-prod", "corp.us-east", .production⟩ }

/-- Two evaluations of one request by the shipped PDP, two lists of reasons. -/
theorem twiceForbidden_not_replayable :
    ¬ Replayable .standard (Pdp.shipped sampleText "v1") twiceForbidden := by
  intro h
  have := (h .asWritten .reversed).1
  revert this
  decide +kernel

end ZeroSecret.Policy
