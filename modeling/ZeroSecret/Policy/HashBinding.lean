import ZeroSecret.Policy.Authorization

/-!
# The decision hash binds what the decision depends on

`request_to_json` and `translate` walk the same message independently.
`observed` keeps of a request what `translate` reads; equal hash pre-images
have equal observations, so nothing outside the hashed document can change an
outcome.
-/

namespace ZeroSecret.Policy

open Crypto Fallible

/-! ## What the translation reads -/

/-- Seconds only. -/
def ProtoTimestamp.observed (t : ProtoTimestamp) : ProtoTimestamp := ⟨t.seconds, 0⟩

def Principal.observed (p : Principal) : Principal :=
  { p with authenticatedAt := p.authenticatedAt.map ProtoTimestamp.observed }

/-- Of the attributes, the environment. -/
def Attributes.observed (a : Attributes) : Attributes :=
  match a.get "environment" with
  | none => ⟨[], List.nodup_nil⟩
  | some v => ⟨[("environment", v)], List.nodup_singleton _⟩

def Resource.observed (r : Resource) : Resource :=
  { r with attributes := r.attributes.observed }

def DevicePosture.observed (p : DevicePosture) : DevicePosture :=
  { p with evaluatedAt := p.evaluatedAt.map ProtoTimestamp.observed }

/-- An approval without its signature. -/
def Approval.observed (a : Approval) : Approval :=
  ⟨a.approverId, a.approvedAt.map ProtoTimestamp.observed, []⟩

def Context.observed (c : Context) : Context :=
  { c with
    requestedAt := c.requestedAt.map ProtoTimestamp.observed
    posture := c.posture.map DevicePosture.observed
    approvals := c.approvals.map Approval.observed }

def DecisionRequest.observed (r : DecisionRequest) : DecisionRequest :=
  { r with
    principal := r.principal.map Principal.observed
    resource := r.resource.map Resource.observed
    context := r.context.map Context.observed }

theorem okOr_map_bind {α β γ : Type} {reason : String} {o : Option α} {g : α → β}
    {k : β → Except String γ} {k' : α → Except String γ} (h : ∀ a, k (g a) = k' a) :
    (okOr reason (o.map g) >>= k) = (okOr reason o >>= k') := by
  cases o with
  | none => rfl
  | some a => exact h a

theorem principalEntity_observed (p : Principal) :
    principalEntity p.observed = principalEntity p :=
  okOr_map_bind fun _ => rfl

theorem get_observed (a : Attributes) : a.observed.get "environment" = a.get "environment" := by
  rw [Attributes.observed]
  cases h : a.get "environment" with
  | none => rfl
  | some v => rfl

theorem databaseEntity_observed (r : Resource) :
    databaseEntity r.observed = databaseEntity r := by
  rw [databaseEntity, databaseEntity, Resource.observed, get_observed]
  rfl

theorem approvalRecord_observed (a : Approval) : approvalRecord a.observed = approvalRecord a :=
  okOr_map_bind fun _ => rfl

theorem buildContext_observed (c : Context) : buildContext c.observed = buildContext c := by
  have happrovals : (c.approvals.map Approval.observed).mapM approvalRecord =
      c.approvals.mapM approvalRecord := by
    induction c.approvals with
    | nil => rfl
    | cons a as ih =>
        rw [List.map_cons, List.mapM_cons, List.mapM_cons, ih, approvalRecord_observed]
  refine okOr_map_bind fun requestedAt => ?_
  refine okOr_map_bind fun posture => ?_
  refine okOr_map_bind fun evaluatedAt => ?_
  change (List.mapM approvalRecord (c.approvals.map Approval.observed) >>= _) = _
  rw [happrovals]
  rfl

/-- **The translation reads nothing else.** -/
theorem translate_observed (engine : Engine) (r : DecisionRequest) :
    translate engine r.observed = translate engine r := by
  refine okOr_map_bind fun principal => ?_
  refine okOr_map_bind fun resource => ?_
  refine bind_congr fun action => ?_
  refine okOr_map_bind fun context => ?_
  rw [principalEntity_observed, databaseEntity_observed, buildContext_observed]
  rfl

/-! ## What the hashed document determines -/

section Documents

variable {α β : Type} {f : α → Json} {g : α → β}

theorem nullable_determines (hne : ∀ a, sortKeysRecursively (f a) ≠ .null)
    (hg : ∀ a b, sortKeysRecursively (f a) = sortKeysRecursively (f b) → g a = g b)
    {o o' : Option α}
    (h : sortKeysRecursively (nullable f o) = sortKeysRecursively (nullable f o')) :
    o.map g = o'.map g := by
  rcases o with _ | a <;> rcases o' with _ | b
  · rfl
  · exact absurd (h.symm.trans sortKeys_null) (hne b)
  · exact absurd (h.trans sortKeys_null) (hne a)
  · exact congrArg some (hg a b h)

theorem items_determine
    (hg : ∀ a b, sortKeysRecursively (f a) = sortKeysRecursively (f b) → g a = g b) :
    ∀ {xs ys : List α}, (xs.map f).map sortKeysRecursively = (ys.map f).map sortKeysRecursively →
      xs.map g = ys.map g
  | [], [], _ => rfl
  | x :: xs, y :: ys, h => by
      simp only [List.map_cons, List.cons.injEq] at h
      rw [List.map_cons, List.map_cons, hg x y h.1, items_determine hg h.2]

end Documents

theorem seconds_determine {t t' : ProtoTimestamp}
    (h : sortKeysRecursively (secondsJson t) = sortKeysRecursively (secondsJson t')) :
    t.observed = t'.observed := by
  rw [secondsJson, secondsJson, sortKeys_num, sortKeys_num, Json.num.injEq, Int64.toInt_inj] at h
  rw [ProtoTimestamp.observed, ProtoTimestamp.observed, h]

theorem timestamp_determines {o o' : Option ProtoTimestamp}
    (h : sortKeysRecursively (nullable secondsJson o) =
      sortKeysRecursively (nullable secondsJson o')) :
    o.map ProtoTimestamp.observed = o'.map ProtoTimestamp.observed := by
  refine nullable_determines (fun t => ?_) (fun _ _ => seconds_determine) h
  rw [secondsJson, sortKeys_num]
  exact Json.noConfusion

theorem principal_determines {p p' : Principal}
    (h : sortKeysRecursively (principalJson p) = sortKeysRecursively (principalJson p')) :
    p.observed = p'.observed := by
  have hmem := lookup_eq_of_sortKeys_eq (by simp) (by simp) h
  have h1 := hmem "subject_id"
  have h2 := hmem "aal"
  have h3 := hmem "auth_method"
  have h4 := hmem "authenticated_at"
  have h5 := hmem "roles"
  have h6 := hmem "authority_domain"
  simp [List.lookup_cons] at h1 h2 h3 h4 h5 h6
  simp only [Principal.observed, Principal.mk.injEq]
  exact ⟨h1, Int32.toInt_inj.mp h2, h3, timestamp_determines h4,
    map_sortKeys_str_injective h5, h6⟩

theorem action_determines {a a' : Action}
    (h : sortKeysRecursively (actionJson a) = sortKeysRecursively (actionJson a')) : a = a' := by
  have h1 := lookup_eq_of_sortKeys_eq (by simp) (by simp) h "verb"
  simp at h1
  obtain ⟨_⟩ := a
  obtain ⟨_⟩ := a'
  exact congrArg Action.mk h1

/-- A map's document determines every lookup in it, whatever the order of its
members. -/
theorem attributes_determine {a a' : Attributes}
    (h : sortKeysRecursively (attributesJson a) = sortKeysRecursively (attributesJson a'))
    (key : String) : a.get key = a'.get key := by
  have hkeys : ∀ b : Attributes,
      ((b.list.map fun m => (m.1, Json.str m.2)).map Prod.fst).Nodup := by
    intro b
    rw [List.map_map]
    exact b.nodup
  have hlookup := lookup_eq_of_sortKeys_eq (hkeys a) (hkeys a') h key
  rw [Json.lookup_map_snd, Json.lookup_map_snd, Option.map_map, Option.map_map] at hlookup
  refine Option.map_injective (fun s t hst => ?_) hlookup
  rw [Function.comp_apply, Function.comp_apply, sortKeys_str, sortKeys_str] at hst
  exact Json.str.inj hst

theorem resource_determines {r r' : Resource}
    (h : sortKeysRecursively (resourceJson r) = sortKeysRecursively (resourceJson r')) :
    r.observed = r'.observed := by
  have hmem := lookup_eq_of_sortKeys_eq (by simp) (by simp) h
  have h1 := hmem "type"
  have h2 := hmem "id"
  have h3 := hmem "authority_domain"
  have h4 := hmem "attributes"
  simp [List.lookup_cons] at h1 h2 h3 h4
  simp only [Resource.observed, Resource.mk.injEq]
  refine ⟨h1, h2, h3, ?_⟩
  rw [Attributes.observed, Attributes.observed, attributes_determine h4]

theorem posture_determines {p p' : DevicePosture}
    (h : sortKeysRecursively (postureJson p) = sortKeysRecursively (postureJson p')) :
    p.observed = p'.observed := by
  have hmem := lookup_eq_of_sortKeys_eq (by simp) (by simp) h
  have h1 := hmem "managed"
  have h2 := hmem "disk_encrypted"
  have h3 := hmem "agent_version"
  have h4 := hmem "evaluated_at"
  simp [List.lookup_cons] at h1 h2 h3 h4
  simp only [DevicePosture.observed, DevicePosture.mk.injEq]
  exact ⟨h1, h2, h3, timestamp_determines h4⟩

theorem approval_determines {a a' : Approval}
    (h : sortKeysRecursively (approvalJson a) = sortKeysRecursively (approvalJson a')) :
    a.observed = a'.observed := by
  have hmem := lookup_eq_of_sortKeys_eq (by simp) (by simp) h
  have h1 := hmem "approver_id"
  have h2 := hmem "approved_at"
  simp [List.lookup_cons] at h1 h2
  rw [Approval.observed, Approval.observed, h1, timestamp_determines h2]

theorem context_determines {c c' : Context}
    (h : sortKeysRecursively (contextJson c) = sortKeysRecursively (contextJson c')) :
    c.observed = c'.observed := by
  have hmem := lookup_eq_of_sortKeys_eq (by simp) (by simp) h
  have h1 := hmem "requested_at"
  have h2 := hmem "source_network"
  have h3 := hmem "posture"
  have h4 := hmem "ticket_ref"
  have h5 := hmem "justification"
  have h6 := hmem "approvals"
  simp only [List.lookup_cons, String.reduceBEq, Option.map_some, Option.some.injEq,
    sortKeys_str, sortKeys_arr, Json.str.injEq, Json.arr.injEq, beq_self_eq_true]
    at h1 h2 h3 h4 h5 h6
  have hposture := nullable_determines (fun _ => sortKeys_obj_ne_null _)
    (fun _ _ => posture_determines) h3
  simp only [Context.observed, Context.mk.injEq]
  exact ⟨timestamp_determines h1, h2, hposture, h4, h5,
    items_determine (fun _ _ => approval_determines) h6⟩

/-- **The hashed document determines all that the translation reads.** -/
theorem observed_eq_of_preimage_eq {r r' : DecisionRequest}
    (h : DecisionBinding.requestPreimage (requestToJson r) =
      DecisionBinding.requestPreimage (requestToJson r')) : r.observed = r'.observed := by
  have hmem := lookup_eq_of_sortKeys_eq (by simp) (by simp)
    (DecisionBinding.sortKeys_eq_of_requestPreimage_eq h)
  have h1 := hmem "request_id"
  have h2 := hmem "principal"
  have h3 := hmem "action"
  have h4 := hmem "resource"
  have h5 := hmem "context"
  have h6 := hmem "policy_version"
  simp [List.lookup_cons] at h1 h2 h3 h4 h5 h6
  have hprincipal := nullable_determines (fun _ => sortKeys_obj_ne_null _)
    (fun _ _ => principal_determines) h2
  have haction := nullable_determines (fun _ => sortKeys_obj_ne_null _)
    (fun _ _ => action_determines (a := _)) h3
  have hresource := nullable_determines (fun _ => sortKeys_obj_ne_null _)
    (fun _ _ => resource_determines) h4
  have hcontext := nullable_determines (fun _ => sortKeys_obj_ne_null _)
    (fun _ _ => context_determines) h5
  simp only [DecisionRequest.observed, DecisionRequest.mk.injEq]
  exact ⟨h1, hprincipal, by simpa using haction, hresource, hcontext, h6⟩

/-- **The decision hash binds the decision.** Two requests with one pre-image
get one effect, one hash, one version and the same reasons, whatever the
engine does with a translated request and in whatever order it lists the
determining policies. -/
theorem decide_determined_by_preimage (P : Primitives) (pdp : Pdp) (order order' : Enumeration)
    (r r' : DecisionRequest)
    (h : DecisionBinding.requestPreimage (requestToJson r) =
      DecisionBinding.requestPreimage (requestToJson r')) :
    (pdp.decide P order r).effect = (pdp.decide P order' r').effect ∧
      (pdp.decide P order r).decisionHash = (pdp.decide P order' r').decisionHash ∧
      (pdp.decide P order r).policyVersion = (pdp.decide P order' r').policyVersion ∧
      (pdp.decide P order r).reasons.Perm (pdp.decide P order' r').reasons := by
  have hobs := observed_eq_of_preimage_eq h
  have hversion : r.policyVersion = r'.policyVersion :=
    show r.observed.policyVersion = r'.observed.policyVersion from congrArg _ hobs
  have htranslate : translate pdp.engine r = translate pdp.engine r' := by
    rw [← translate_observed, hobs, translate_observed]
  have hhash : decisionHash P r = decisionHash P r' :=
    congrArg (fun preimage => (P.sha256 preimage).val) h
  by_cases hs : pdp.Serves r
  · have hs' : pdp.Serves r' := by rwa [Pdp.Serves, ← hversion]
    cases ht : translate pdp.engine r with
    | error reason =>
        rw [Pdp.decide_refused hs ht, Pdp.decide_refused hs' (htranslate ▸ ht), hhash]
        exact ⟨rfl, rfl, rfl, .refl _⟩
    | ok x =>
        rw [Pdp.decide_evaluated hs ht, Pdp.decide_evaluated hs' (htranslate ▸ ht), hhash]
        refine ⟨rfl, rfl, rfl, List.Perm.map _ ?_⟩
        exact (order.property _).trans (order'.property _).symm
  · have hs' : ¬ pdp.Serves r' := by rwa [Pdp.Serves, ← hversion]
    rw [Pdp.decide_unserved hs, Pdp.decide_unserved hs', hhash]
    exact ⟨rfl, rfl, rfl, .refl _⟩

/-- The nominal request with nanoseconds and a signed approval: other octets
on the wire, the same hashed document. -/
def nominalWithSignature : DecisionRequest :=
  { nominalRequest with
    context := nominalRequest.context.map fun c =>
      { c with
        requestedAt := some ⟨1787500800, 250000000⟩
        approvals := [⟨"sub-a1f2e8", some ⟨1787500200, 17⟩, [0x30, 0x45]⟩] } }

theorem decide_nominal_determined :
    ((Pdp.shipped sampleText "v1").decide .standard .asWritten nominalRequest).effect =
      ((Pdp.shipped sampleText "v1").decide .standard .asWritten nominalWithSignature).effect :=
  (decide_determined_by_preimage .standard (.shipped sampleText "v1") .asWritten .asWritten
    nominalRequest nominalWithSignature rfl).1

end ZeroSecret.Policy
