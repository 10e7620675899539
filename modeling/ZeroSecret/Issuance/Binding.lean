import ZeroSecret.Base.History
import ZeroSecret.Issuance.Issuer
import ZeroSecret.Policy.HashBinding

/-!
# What a lease is issued for

A decision is bound to its request by a hash, and the decision's seal covers
the hash. The order names verb and resource a second time. Under unforgeable
seals and collision-free hashes this module says when a lease is only issued
for what was decided.
-/

namespace ZeroSecret.Issuance

open Crypto Crypto.DecisionSeal Policy Interleave

/-! ## Emission as seen by OpenBao -/

/-- `VerifyDecision` is the policy engine's, or the call fails; the other
steps answer anything. -/
def answers (P : Primitives) (engine : PolicyEngine) : (op : IssuerOp) → IssuerResp op → Prop
  | .verifyDecision d, r => r = .ok (engine.verifyDecision P (some d)) ∨ ∃ e, r = .error e
  | .markConsumed _, _ => True
  | .newV7, _ => True
  | .issueLease _ _, _ => True

section Issues

variable {P : Primitives} {engine : PolicyEngine} {order : EmissionOrder} {d : DecisionResponse}
  {path : String} {ttl : Int64}

/-- After the right to go on, every supported order is issued, whatever it
names. -/
theorem issue_issues_iff :
    Prog.Issues (answers P engine) (Issuer.issue order d) (.issueLease path ttl) ↔
      order.verb = "db.connect" ∧ path = "database/creds/" ++ order.resourceId ∧
        ttl = ttlSecondsOf d := by
  unfold Issuer.issue openBaoPath
  by_cases hverb : order.verb = "db.connect"
  · rw [if_pos hverb]
    constructor
    · intro h
      rcases Prog.issues_call_iff.mp h with h | ⟨r, -, h⟩
      · cases h
      · rcases r with e | eventId
        · exact absurd h Prog.not_issues_ret
        · rcases Prog.issues_call_iff.mp h with h | ⟨r, -, h⟩
          · cases h
            exact ⟨hverb, rfl, rfl⟩
          · rcases r with e | lease
            · exact absurd h Prog.not_issues_ret
            · exact absurd h Prog.not_issues_ret
    · rintro ⟨-, rfl, rfl⟩
      refine Prog.issues_call_iff.mpr (Or.inr ⟨.ok "", trivial, ?_⟩)
      exact Prog.issues_call_iff.mpr (Or.inl rfl)
  · rw [if_neg hverb]
    constructor
    · intro h
      exact absurd h Prog.not_issues_ret
    · rintro ⟨h, -⟩
      exact absurd h hverb

theorem consume_issues_iff :
    Prog.Issues (answers P engine) (Issuer.consume order d) (.issueLease path ttl) ↔
      Prog.Issues (answers P engine) (Issuer.issue order d) (.issueLease path ttl) := by
  constructor
  · intro h
    rcases Prog.issues_call_iff.mp h with h | ⟨r, -, h⟩
    · cases h
    · rcases r with e | _ | _
      · exact absurd h Prog.not_issues_ret
      · exact h
      · exact absurd h Prog.not_issues_ret
  · intro h
    exact Prog.issues_call_iff.mpr (Or.inr ⟨.ok false, trivial, h⟩)

/-- **When an order reaches OpenBao**: its decision is accepted and grants, and
its verb has an engine. Nothing else of the order is looked at. -/
theorem emit_issues_iff :
    Prog.Issues (answers P engine) (Issuer.emit order) (.issueLease path ttl) ↔
      ∃ d, order.decision = some d ∧ (engine.verifyDecision P (some d)).valid = true ∧
        d.effect = effectAllow ∧ order.verb = "db.connect" ∧
        path = "database/creds/" ++ order.resourceId ∧ ttl = ttlSecondsOf d := by
  unfold Issuer.emit
  cases hd : order.decision with
  | none =>
      constructor
      · intro h
        exact absurd h Prog.not_issues_ret
      · rintro ⟨d, h, -⟩
        cases h
  | some d =>
      constructor
      · intro h
        rcases Prog.issues_call_iff.mp h with h | ⟨r, hr, h⟩
        · cases h
        · rcases hr with rfl | ⟨e, rfl⟩
          · change Prog.Issues _ (Issuer.reported order d _) _ at h
            unfold Issuer.reported at h
            split at h
            · exact absurd h Prog.not_issues_ret
            · rename_i hvalid
              split at h
              · exact absurd h Prog.not_issues_ret
              · rename_i hallow
                exact ⟨d, rfl, by simpa using hvalid, not_not.mp hallow,
                  issue_issues_iff.mp (consume_issues_iff.mp h)⟩
          · exact absurd h Prog.not_issues_ret
      · rintro ⟨d', hd', hvalid, hallow, hrest⟩
        obtain rfl := Option.some.inj hd'
        refine Prog.issues_call_iff.mpr (Or.inr ⟨_, Or.inl rfl, ?_⟩)
        change Prog.Issues _ (Issuer.reported order d _) _
        unfold Issuer.reported
        rw [if_neg (by simpa using hvalid), if_neg (not_not_intro hallow)]
        exact consume_issues_iff.mpr (issue_issues_iff.mpr hrest)

end Issues

/-! ## What an emission reports -/

/-- An answer that is a credential is one for the decision of the order, which
grants. -/
def Credited (order : EmissionOrder) : Except String Result → Prop
  | .error _ => True
  | .ok result => result.allowed = true → ∃ d eventId lease, order.decision = some d ∧
      d.effect = effectAllow ∧ result.event = issuedEvent order d eventId lease

section Credited

variable {order : EmissionOrder} {d : DecisionResponse} (hd : order.decision = some d)

theorem credited_refused (reasons : List String) : Credited order (.ok (refused reasons)) :=
  fun h => absurd h Bool.false_ne_true

include hd

theorem issue_returns (hallow : d.effect = effectAllow) :
    (Issuer.issue order d).Returns (Credited order) := by
  unfold Issuer.issue
  split
  · exact credited_refused _
  · rintro (err | eventId) -
    · trivial
    · rintro (err | lease) -
      · trivial
      · exact fun _ => ⟨d, eventId, lease, hd, hallow, rfl⟩

theorem reported_returns (verifyResp : VerifyDecisionResponse) :
    (Issuer.reported order d verifyResp).Returns (Credited order) := by
  unfold Issuer.reported
  split
  · exact credited_refused _
  · split
    · exact credited_refused _
    · rename_i hallow
      rintro (err | _ | _) -
      · trivial
      · exact issue_returns hd (not_not.mp hallow)
      · exact credited_refused _

end Credited

/-- **Every answer of `Emit`** is a failure, a refusal or a credential. -/
theorem emit_returns (order : EmissionOrder) : (Issuer.emit order).Returns (Credited order) := by
  unfold Issuer.emit
  cases hd : order.decision with
  | none => exact credited_refused _
  | some d =>
      rintro (err | verifyResp) -
      · trivial
      · exact reported_returns hd verifyResp

/-! ## Decisions that were taken -/

/-- One evaluation by the policy engine: the request, the order in which the
reasons came out, the clock. -/
structure Evaluation where
  request : DecisionRequest
  order : Enumeration
  now : Int64

variable (P : Primitives) (engine : PolicyEngine) (decided : List Evaluation)

def Evaluation.response (e : Evaluation) : DecisionResponse :=
  engine.pdp.decide P e.order e.request

/-- Seals are unforgeable: what the key of the engine verifies, `Decide` has
sealed. -/
def Unforgeable : Prop :=
  ∀ message signature,
    P.ecdsaP256Sha256Fixed engine.verifyingKey.raw message signature = true →
    ∃ e ∈ decided, ∃ f, decisionFields (e.response P engine) (rfc3339FromSeconds e.now) = .ok f ∧
      message = signedMessage f

/-- No two requests that were decided collide. -/
def CollisionFree : Prop :=
  ∀ e ∈ decided, ∀ e' ∈ decided, decisionHash P e.request = decisionHash P e'.request →
    DecisionBinding.requestPreimage (requestToJson e.request) =
      DecisionBinding.requestPreimage (requestToJson e'.request)

/-- The order names the action and the resource of the request. -/
def Names (order : EmissionOrder) (r : DecisionRequest) : Prop :=
  ∃ action resource, r.action = some action ∧ r.resource = some resource ∧
    order.verb = action.verb ∧ order.resourceType = resource.type ∧
    order.resourceId = resource.id ∧ order.authorityDomain = resource.authorityDomain

/-- A lease is only issued for an action and a resource the PDP allowed, under
the hash the order carries. -/
def BoundToDecision (order : EmissionOrder) : Prop :=
  ∀ path ttl, Prog.Issues (answers P engine) (Issuer.emit order) (.issueLease path ttl) →
    ∃ d, order.decision = some d ∧
      ∃ e ∈ decided, (e.response P engine).effect = effectAllow ∧
        decisionHash P e.request = d.decisionHash ∧ Names order e.request

variable {P engine decided}

/-- An accepted decision that grants was taken, on a request with its hash. -/
theorem decided_of_valid (hunforgeable : Unforgeable P engine decided) {d : DecisionResponse}
    (hvalid : (engine.verifyDecision P (some d)).valid = true) (hallow : d.effect = effectAllow) :
    ∃ e ∈ decided, (e.response P engine).effect = effectAllow ∧
      decisionHash P e.request = d.decisionHash := by
  obtain ⟨d', ts, f, hd, hts, hf, hsig⟩ := PolicyEngine.verifyDecision_valid hvalid
  obtain rfl := Option.some.inj hd
  obtain ⟨e, he, f', hf', hmessage⟩ := hunforgeable _ _ hsig
  obtain rfl := signedMessage_inj hmessage
  obtain ⟨hhash, heffect, -⟩ := decisionFields_eq_ok hf
  obtain ⟨hhash', heffect', -⟩ := decisionFields_eq_ok hf'
  refine ⟨e, he, ?_, ?_⟩
  · rw [heffect', hallow, beq_self_eq_true] at heffect
    exact beq_iff_eq.mp heffect
  · rw [← hhash, hhash', Evaluation.response, Pdp.decide_decisionHash]

/-- Requests with one hashed document name one action and one resource. -/
theorem names_of_observed_eq {order : EmissionOrder} {r r' : DecisionRequest}
    (h : r.observed = r'.observed) (hn : Names order r) : Names order r' := by
  obtain ⟨action, resource, ha, hr, hverb, htype, hid, hdomain⟩ := hn
  have haction : r'.action = some action := by
    rw [← ha]
    exact (congrArg DecisionRequest.action h).symm
  have hresource : r.resource.map Resource.observed = r'.resource.map Resource.observed :=
    congrArg DecisionRequest.resource h
  rw [hr] at hresource
  cases hr' : r'.resource with
  | none =>
      rw [hr'] at hresource
      cases hresource
  | some resource' =>
      rw [hr'] at hresource
      have hobs : resource.observed = resource'.observed := Option.some.inj hresource
      refine ⟨action, resource', haction, hr', hverb, ?_, ?_, ?_⟩
      · rw [htype]
        exact show resource.observed.type = resource'.observed.type from congrArg _ hobs
      · rw [hid]
        exact show resource.observed.id = resource'.observed.id from congrArg _ hobs
      · rw [hdomain]
        exact show resource.observed.authorityDomain = resource'.observed.authorityDomain from congrArg _ hobs

/-- **When a lease is bound to its decision.** Nothing in the issuer compares
an order with the request that was decided, so the order must name it: a lease
is bound exactly when the order is not issued at all, or names the action and
resource of the request its decision was taken on. -/
theorem bound_iff_order_names_request (P : Primitives) (engine : PolicyEngine)
    (decided : List Evaluation) (hunforgeable : Unforgeable P engine decided)
    (hcollision : CollisionFree P decided) (order : EmissionOrder) :
    BoundToDecision P engine decided order ↔
      ∀ d, order.decision = some d → (engine.verifyDecision P (some d)).valid = true →
        d.effect = effectAllow → order.verb = "db.connect" →
        ∀ e ∈ decided, decisionHash P e.request = d.decisionHash → Names order e.request := by
  constructor
  · intro hbound d hd hvalid hallow hverb e he hhash
    have hissues : Prog.Issues (answers P engine) (Issuer.emit order)
        (.issueLease ("database/creds/" ++ order.resourceId) (ttlSecondsOf d)) :=
      emit_issues_iff.mpr ⟨d, hd, hvalid, hallow, hverb, rfl, rfl⟩
    obtain ⟨d', hd', e', he', -, hhash', hnames⟩ := hbound _ _ hissues
    obtain rfl := Option.some.inj (hd.symm.trans hd')
    -- the two requests have one hash, hence one document
    have hpre := hcollision e' he' e he (hhash'.trans hhash.symm)
    exact names_of_observed_eq (observed_eq_of_preimage_eq hpre) hnames
  · intro h path ttl hissues
    obtain ⟨d, hd, hvalid, hallow, hverb, -, -⟩ := emit_issues_iff.mp hissues
    obtain ⟨e, he, hallowed, hhash⟩ := decided_of_valid hunforgeable hvalid hallow
    exact ⟨d, hd, e, he, hallowed, hhash, h d hd hvalid hallow hverb e he hhash⟩

/-! ### One decision, its order and another -/

def sampleEngine : PolicyEngine :=
  ⟨.shipped sampleText "v1", .ofPublicKey .standard sampleKey,
    ⟨keyIdFromPublicKey .standard sampleKey, sampleKey⟩⟩

def nominalEvaluation : Evaluation := ⟨nominalRequest, .asWritten, 1787500805⟩

/-- The sealed nominal decision. -/
def nominalDecision : DecisionResponse :=
  { nominalEvaluation.response .standard sampleEngine with
    issuedAt := some ⟨1787500805, 0⟩
    decisionSignature :=
      (hexDecode ("ce4df5cf9f6e049cdf26e5d0f8755cc4f61a04566f7f18014c3540387fb2ec74" ++
        "cfc07f74f0870d0991c2c18c5f3343000aa84d9899c38ae336334a341d030978")).getD []
    decisionSignatureKeyId := keyIdFromPublicKey .standard sampleKey }

def nominalFields : Except String DecisionFields :=
  decisionFields (nominalEvaluation.response .standard sampleEngine)
    (rfc3339FromSeconds nominalEvaluation.now)

/-- SHA-256 and ECDSA in a world where the key has signed one decision. -/
def onceSigned : Primitives where
  sha256 := Primitives.standard.sha256
  ecdsaP256Sha256Fixed := fun key message signature =>
    (nominalFields.toOption.map signedMessage == some message) &&
      Primitives.standard.ecdsaP256Sha256Fixed key message signature

theorem nominal_unforgeable : Unforgeable onceSigned sampleEngine [nominalEvaluation] := by
  intro message signature h
  rw [onceSigned, Bool.and_eq_true, beq_iff_eq] at h
  obtain ⟨hsigned, -⟩ := h
  obtain ⟨f, hf, rfl⟩ := Option.map_eq_some_iff.mp hsigned
  refine ⟨nominalEvaluation, List.mem_singleton_self _, f, ?_, rfl⟩
  have hsha : onceSigned.sha256 = Primitives.standard.sha256 := rfl
  rw [Evaluation.response, Pdp.decide_congr hsha]
  exact Fallible.toOption_eq_some hf

theorem nominal_collisionFree : CollisionFree onceSigned [nominalEvaluation] := by
  intro e he e' he' _
  rw [List.mem_singleton.mp he, List.mem_singleton.mp he']

theorem nominalDecision_valid :
    (sampleEngine.verifyDecision onceSigned (some nominalDecision)).valid = true := by
  rw [onceSigned, nominalFields, nominalDecision, sampleEngine, Primitives.standard_eq_evaluated]
  decide +kernel

theorem nominalDecision_effect : nominalDecision.effect = effectAllow := by
  rw [nominalDecision, sampleEngine, Primitives.standard_eq_evaluated]
  decide +kernel

def nominalOrder : EmissionOrder where
  verb := "db.connect"
  resourceType := "Database"
  resourceId := "db-billing-prod"
  authorityDomain := "corp.eu-west"
  decision := some nominalDecision
  requestId := "req-1"
  subjectId := "sub-6b2f9c"
  aal := "AAL3"
  authMethod := "webauthn/device-bound"

/-- The same decision, presented for another database. -/
def substitutedOrder : EmissionOrder := { nominalOrder with resourceId := "db-payroll-prod" }

theorem nominalOrder_bound :
    BoundToDecision onceSigned sampleEngine [nominalEvaluation] nominalOrder := by
  refine (bound_iff_order_names_request onceSigned sampleEngine [nominalEvaluation]
    nominal_unforgeable nominal_collisionFree nominalOrder).mpr ?_
  intro _ _ _ _ _ e he _
  rw [List.mem_singleton.mp he]
  exact ⟨_, _, rfl, rfl, rfl, rfl, rfl, rfl⟩

/-- The substituted order is issued, for a database nobody decided on. -/
theorem substitutedOrder_not_bound :
    Unforgeable onceSigned sampleEngine [nominalEvaluation] ∧
      CollisionFree onceSigned [nominalEvaluation] ∧
      ¬ BoundToDecision onceSigned sampleEngine [nominalEvaluation] substitutedOrder := by
  refine ⟨nominal_unforgeable, nominal_collisionFree, fun hbound => ?_⟩
  have hissues : Prog.Issues (answers onceSigned sampleEngine) (Issuer.emit substitutedOrder)
      (.issueLease "database/creds/db-payroll-prod" (ttlSecondsOf nominalDecision)) :=
    emit_issues_iff.mpr
      ⟨nominalDecision, rfl, nominalDecision_valid, nominalDecision_effect, rfl, rfl, rfl⟩
  obtain ⟨-, -, e, he, -, -, -, resource, -, hr, -, -, hid, -⟩ := hbound _ _ hissues
  rw [List.mem_singleton.mp he] at hr
  obtain rfl := Option.some.inj hr
  exact absurd hid (by decide)

end ZeroSecret.Issuance
