import ZeroSecret.Platform.Compose
import ZeroSecret.Platform.Justification

/-!
# How far an exemption reaches

Two evaluations are compared, of inputs that differ in the labels of one
service. No rule finds anything else in the labels than that they are an
object, so the findings are the same; an exemption is asked for by rule and
service, and reads one key. The label is read as its documented form says,
except where the text has a marker that the pattern does not read.
-/

namespace ZeroSecret.Platform

open Rego

/-! ## Changing the labels of a service -/

def editService (s : String) (edit : Value → Value) (input : Value) : Value :=
  input.modify "compose" fun compose => compose.modify "services" fun services =>
    services.modify s edit

/-- The label is set; labels that are not an object stay as they are. -/
def setLabel (key : String) (v svc : Value) : Value :=
  if (svc.get "labels").isSome then svc.modify "labels" fun labels => labels.set key v
  else svc.set "labels" (.obj [(key, v)])

def unsetLabel (key : String) (svc : Value) : Value :=
  svc.modify "labels" fun labels => labels.erase key

/-- `io.zero-secret.exemption.R` is added to the labels of `s`, or changed. -/
def withLabel (input : Value) (s ruleId : String) (v : Value) : Value :=
  editService s (setLabel (exemptionLabel ruleId) v) input

/-- The same input without that label. -/
def withoutLabel (input : Value) (s ruleId : String) : Value :=
  editService s (unsetLabel (exemptionLabel ruleId)) input

/-- The same service but for the labels, which are unreadable in both or in none. -/
structure SameButLabels (svc svc' : Value) : Prop where
  isObject : svc'.isObject = svc.isObject
  get : ∀ k, k ≠ "labels" → svc'.get k = svc.get k
  labels : (svc'.get "labels").any (fun labels => !labels.isObject) =
    (svc.get "labels").any fun labels => !labels.isObject

theorem SameButLabels.getString {svc svc' : Value} (h : SameButLabels svc svc') {k : String}
    (hk : k ≠ "labels") : svc'.getString k = svc.getString k := by
  rw [Value.getString, Value.getString, h.get k hk]

theorem SameButLabels.arrayField {svc svc' : Value} (h : SameButLabels svc svc') {k : String}
    (hk : k ≠ "labels") : arrayField svc' k = arrayField svc k := by
  rw [Platform.arrayField, Platform.arrayField, Value.getArray, Value.getArray, h.get k hk]

theorem SameButLabels.hasKey {svc svc' : Value} (h : SameButLabels svc svc') {k : String}
    (hk : k ≠ "labels") : hasKey svc' k = hasKey svc k := by
  rw [Platform.hasKey, Platform.hasKey, h.get k hk]

theorem sameButLabels_modify (svc : Value) {edit : Value → Value}
    (hedit : ∀ labels, (edit labels).isObject = labels.isObject) :
    SameButLabels svc (svc.modify "labels" edit) where
  isObject := Value.isObject_modify svc "labels" edit
  get k hk := Value.get_modify_of_ne hk svc edit
  labels := by
    rw [Value.get_modify_self]
    cases svc.get "labels" with
    | none => rfl
    | some labels => simp [hedit]

theorem sameButLabels_setLabel (key : String) (v svc : Value) :
    SameButLabels svc (setLabel key v svc) := by
  rw [setLabel]
  split
  · exact sameButLabels_modify svc fun labels => Value.isObject_set labels key v
  · rename_i hnone
    rw [Bool.not_eq_true, Option.isSome_eq_false_iff, Option.isNone_iff_eq_none] at hnone
    refine ⟨Value.isObject_set _ _ _, fun k hk => Value.get_set_of_ne hk _ _, ?_⟩
    cases hobject : svc.isObject with
    | false =>
        rw [Value.get_eq_none_of_not_isObject (by rwa [Value.isObject_set]), hnone]
    | true =>
        rw [Value.get_set_self hobject, hnone]
        rfl

theorem sameButLabels_unsetLabel (key : String) (svc : Value) :
    SameButLabels svc (unsetLabel key svc) :=
  sameButLabels_modify svc fun labels => Value.isObject_erase labels key

/-! ## What an edit leaves as it was -/

section Edited

variable {s : String} {edit : Value → Value}
variable (hedit : ∀ svc, SameButLabels svc (edit svc)) (input : Value)

theorem get_editService {k : String} (h : k ≠ "compose") :
    (editService s edit input).get k = input.get k :=
  Value.get_modify_of_ne h _ _

theorem services_editService :
    services (editService s edit input) = (services input).map (Value.modifyIn s edit) := by
  rw [services, services, editService, Value.get_modify_self]
  cases input.get "compose" with
  | none => rfl
  | some compose =>
      change ((compose.modify "services" _).get "services").bind Value.object? =
        ((compose.get "services").bind Value.object?).map _
      rw [Value.get_modify_self]
      cases compose.get "services" with
      | none => rfl
      | some services => cases services <;> rfl

include hedit

theorem serviceObjects_editService :
    serviceObjects (editService s edit input) = Value.modifyIn s edit (serviceObjects input) := by
  rw [serviceObjects, serviceObjects, services_editService]
  cases services input with
  | none => rfl
  | some kvs =>
      change (Value.modifyIn s edit kvs).filter _ = Value.modifyIn s edit (kvs.filter _)
      rw [Value.modifyIn, Value.modifyIn, List.filter_map]
      refine congrArg _ (List.filter_congr fun kv _ => ?_)
      change (if kv.1 = s then (kv.1, edit kv.2) else kv).2.isObject = kv.2.isObject
      split
      · exact (hedit kv.2).isObject
      · rfl

/-- What a rule collects from each service is the same when it reads the
labels of none. -/
theorem flatMap_editService {α : Type} (f : String × Value → List α)
    (hf : ∀ name svc svc', SameButLabels svc svc' → f (name, svc') = f (name, svc)) :
    (serviceObjects (editService s edit input)).flatMap f = (serviceObjects input).flatMap f := by
  rw [serviceObjects_editService hedit, Value.modifyIn, List.flatMap_map]
  refine List.flatMap_congr fun kv _ => ?_
  split
  · exact hf kv.1 kv.2 _ (hedit kv.2)
  · rfl

theorem inServices_editService (details : Value → List String)
    (hdetails : ∀ svc svc', SameButLabels svc svc' → details svc' = details svc) :
    inServices (editService s edit input) details = inServices input details :=
  flatMap_editService hedit input _ fun name svc svc' h => by rw [hdetails svc svc' h]

/-! ## No rule finds anything else in the labels -/

theorem envPairs_editService : envPairs (editService s edit input) = envPairs input :=
  flatMap_editService hedit input _ fun name svc svc' h => by
    have hk : "environment" ≠ "labels" := by decide
    simp only [envOf, Value.getObject, h.arrayField hk, h.get _ hk]

theorem argStrings_editService : argStrings (editService s edit input) = argStrings input :=
  flatMap_editService hedit input _ fun name svc svc' h => by
    have hnames : ∀ field ∈ ["command", "entrypoint"], field ≠ "labels" := by decide
    have hargs : argsOf svc' = argsOf svc := by
      refine List.flatMap_congr fun field hfield => ?_
      rw [h.getString (hnames field hfield), h.arrayField (hnames field hfield)]
    rw [hargs]

omit hedit in
theorem composeIsObject_editService :
    composeIsObject (editService s edit input) = composeIsObject input := by
  rw [composeIsObject, composeIsObject, Value.getObject, Value.getObject, editService,
    Value.get_modify_self]
  cases input.get "compose" with
  | none => rfl
  | some compose => cases compose <;> rfl

omit hedit in
theorem validContext_editService :
    validContext (editService s edit input) = validContext input := by
  simp only [validContext, evaluatedAtNs, environment, get_editService input (by decide : "context" ≠ "compose")]

omit hedit in
theorem unexpectedType_congr {svc svc' : Value} (h : SameButLabels svc svc') :
    (expectedTypes.filter fun field => (svc'.get field.1).any fun value => !typeOk field.2 value) =
      expectedTypes.filter fun field => (svc.get field.1).any fun value => !typeOk field.2 value := by
  have hlabels : ∀ field ∈ expectedTypes, field.1 = "labels" → field.2 = .object := by decide
  refine List.filter_congr fun field hfield => ?_
  by_cases hk : field.1 = "labels"
  · rw [hlabels field hfield hk, hk]
    exact h.labels
  · rw [h.get field.1 hk]

theorem serviceUnreadable_editService (B : Builtins) :
    serviceUnreadable.findings B (editService s edit input) = serviceUnreadable.findings B input := by
  change (((services (editService s edit input)).getD []).filter _).map _ =
    (((services input).getD []).filter _).map _
  rw [services_editService]
  cases services input with
  | none => rfl
  | some kvs =>
      change ((kvs.map _).filter _).map _ = (kvs.filter _).map _
      rw [List.filter_map, List.map_map]
      have hfilter : kvs.filter ((fun service => !service.2.isObject) ∘
          fun kv => if kv.1 = s then (kv.1, edit kv.2) else kv) =
            kvs.filter fun service => !service.2.isObject := by
        refine List.filter_congr fun kv _ => ?_
        rw [Function.comp_apply]
        split
        · rw [(hedit kv.2).isObject]
        · rfl
      rw [hfilter]
      refine List.map_congr_left fun kv _ => ?_
      rw [Function.comp_apply]
      split <;> rfl

theorem findings_editService (B : Builtins) : ∀ r ∈ rules,
    r.findings B (editService s edit input) = r.findings B input := by
  intro r hr
  have hservices : ∀ details : Value → List String,
      (∀ svc svc', SameButLabels svc svc' → details svc' = details svc) →
        inServices (editService s edit input) details = inServices input details :=
    inServices_editService hedit input
  simp only [rules, List.mem_cons, List.not_mem_nil, or_false] at hr
  rcases hr with rfl | rfl | rfl | rfl | rfl | rfl | rfl | rfl | rfl | rfl | rfl | rfl | rfl | rfl |
    rfl | rfl | rfl | rfl | rfl | rfl | rfl | rfl | rfl | rfl
  · simp only [composeUnreadable, composeIsObject_editService]
  · simp only [servicesUnreadable, servicesIsObject, composeIsObject_editService,
      services_editService, Option.isSome_map]
    rfl
  · simp only [noService, services_editService, Option.any_map,
      Value.modifyIn, List.isEmpty_map]
  · simp only [contextIncomplete, validContext_editService]
  · exact serviceUnreadable_editService hedit input B
  · simp only [imageMissing]
    refine hservices _ fun svc svc' h => ?_
    rw [h.hasKey (by decide : "image" ≠ "labels")]
  · simp only [unexpectedType]
    refine hservices _ fun svc svc' h => ?_
    rw [unexpectedType_congr h]
  · simp only [portUnread]
    refine hservices _ fun svc svc' h => ?_
    rw [h.arrayField (by decide : "ports" ≠ "labels")]
  · simp only [volumeUnread]
    refine hservices _ fun svc svc' h => ?_
    rw [h.arrayField (by decide : "volumes" ≠ "labels")]
  · simp only [privileged]
    refine hservices _ fun svc svc' h => ?_
    rw [h.get "privileged" (by decide)]
  · simp only [capabilityAdded]
    refine hservices _ fun svc svc' h => ?_
    rw [h.arrayField (by decide : "cap_add" ≠ "labels")]
  · simp only [confinementDisabled]
    refine hservices _ fun svc svc' h => ?_
    rw [h.arrayField (by decide : "security_opt" ≠ "labels")]
  · simp only [namespaceShared]
    refine hservices _ fun svc svc' h => ?_
    have hnames : ∀ field ∈ ["pid", "ipc", "network_mode", "userns_mode"], field ≠ "labels" := by
      decide
    refine List.filterMap_congr fun field hfield => ?_
    rw [h.getString (hnames field hfield)]
  · simp only [devicesGiven]
    refine hservices _ fun svc svc' h => ?_
    rw [h.arrayField (by decide : "devices" ≠ "labels")]
  · simp only [engineSocketMounted]
    refine hservices _ fun svc svc' h => ?_
    rw [h.arrayField (by decide : "volumes" ≠ "labels")]
  · simp only [portPublished]
    refine hservices _ fun svc svc' h => ?_
    rw [h.arrayField (by decide : "ports" ≠ "labels")]
  · simp only [portObjectPublished]
    refine hservices _ fun svc svc' h => ?_
    rw [h.arrayField (by decide : "ports" ≠ "labels")]
  · simp only [literalInEnvironment, envPairs_editService hedit]
  · simp only [envFileGiven]
    refine hservices _ fun svc svc' h => ?_
    rw [h.hasKey (by decide : "env_file" ≠ "labels")]
  · simp only [secretInArguments, argStrings_editService hedit]
  · simp only [imageNotPinned]
    refine hservices _ fun svc svc' h => ?_
    rw [h.getString (by decide : "image" ≠ "labels")]
  · simp only [authenticationDisabled, envPairs_editService hedit]
  · simp only [devModeStarted, argStrings_editService hedit]
  · simp only [hostMountWritable]
    refine hservices _ fun svc svc' h => ?_
    rw [h.arrayField (by decide : "volumes" ≠ "labels")]

theorem labelsOf_editService_self :
    labelsOf (editService s edit input) s =
      ((serviceObjects input).lookup s).bind fun svc => (edit svc).getObject "labels" := by
  rw [labelsOf, serviceObjects_editService hedit, Value.lookup_modifyIn_self]
  cases (serviceObjects input).lookup s <;> rfl

theorem labelsOf_editService_of_ne {service : String} (h : service ≠ s) :
    labelsOf (editService s edit input) service = labelsOf input service := by
  rw [labelsOf, labelsOf, serviceObjects_editService hedit, Value.lookup_modifyIn_of_ne h]

omit hedit in
theorem justificationValid_editService (v : Value) :
    justificationValid (editService s edit input) v = justificationValid input v := by
  have hk : "context" ≠ "compose" := by decide
  simp only [justificationValid, evaluatedAtNs, get_editService input hk]

end Edited

/-! ## The label that an exemption reads -/

variable {s ruleId : String} {input : Value}

def labelValue (input : Value) (ruleId service : String) : Option Value :=
  (labelsOf input service).bind (List.lookup (exemptionLabel ruleId))

theorem exemptionLabel_injective {r r' : String} (h : exemptionLabel r = exemptionLabel r') :
    r = r' := by
  have hlist := congrArg String.toList h
  rw [exemptionLabel, exemptionLabel, String.toList_append, String.toList_append] at hlist
  exact String.toList_inj.mp (List.append_cancel_left hlist)

theorem exempted_iff {input : Value} {ruleId service : String} :
    exempted input ruleId service = true ↔ ruleId ∉ nonExemptable ∧ validContext input = true ∧
      environment input = some "dev" ∧
        ∃ value, labelValue input ruleId service = some value ∧
          justificationValid input value = true := by
  rw [exempted, labelValue]
  cases (labelsOf input service).bind (List.lookup (exemptionLabel ruleId)) with
  | none => simp
  | some value => simp [and_assoc]

theorem setLabel_of_none {svc : Value} (h : svc.get "labels" = none) (key : String) (v : Value) :
    setLabel key v svc = svc.set "labels" (.obj [(key, v)]) := by
  rw [setLabel, h]
  rfl

theorem setLabel_of_some {svc labels : Value} (h : svc.get "labels" = some labels) (key : String)
    (v : Value) : setLabel key v svc = svc.modify "labels" fun labels => labels.set key v := by
  rw [setLabel, h]
  rfl

/-- Either the label is written, or there are no labels to read in both. -/
theorem getObject_setLabel (key : String) (v svc : Value) :
    (setLabel key v svc).getObject "labels" =
        some (Value.setIn key v ((svc.getObject "labels").getD [])) ∨
      (setLabel key v svc).getObject "labels" = none ∧ svc.getObject "labels" = none := by
  unfold Value.getObject
  cases hlabels : svc.get "labels" with
  | none =>
      rw [setLabel_of_none hlabels]
      cases hobject : svc.isObject with
      | true =>
          rw [Value.get_set_self hobject]
          exact Or.inl rfl
      | false =>
          rw [Value.get_eq_none_of_not_isObject (by rwa [Value.isObject_set])]
          exact Or.inr ⟨rfl, rfl⟩
  | some labels =>
      rw [setLabel_of_some hlabels, Value.get_modify_self, hlabels]
      cases labels with
      | obj kvs => exact Or.inl rfl
      | _ => exact Or.inr ⟨rfl, rfl⟩

theorem lookup_setLabel_of_ne {key key' : String} (h : key' ≠ key) (v svc : Value) :
    ((setLabel key v svc).getObject "labels").bind (List.lookup key') =
      (svc.getObject "labels").bind (List.lookup key') := by
  rcases getObject_setLabel key v svc with hset | ⟨hset, hnone⟩
  · rw [hset, Option.bind_some, Value.lookup_setIn_of_ne h]
    cases svc.getObject "labels" <;> rfl
  · rw [hset, hnone]

/-- The label can be read where the labels were absent or an object. -/
theorem lookup_setLabel_self_iff {key : String} {v svc value : Value} (hobject : svc.isObject = true) :
    ((setLabel key v svc).getObject "labels").bind (List.lookup key) = some value ↔
      value = v ∧ ∀ labels, svc.get "labels" = some labels → labels.isObject = true := by
  unfold Value.getObject
  cases hlabels : svc.get "labels" with
  | none =>
      have hreadable : ∀ labels : Value, none = some labels → labels.isObject = true := by
        intro labels h
        cases h
      rw [setLabel_of_none hlabels, Value.get_set_self hobject]
      change ([(key, v)] : List (String × Value)).lookup key = some value ↔ _
      rw [List.lookup_cons, beq_self_eq_true, Option.some.injEq]
      exact ⟨fun h => ⟨h.symm, hreadable⟩, fun h => h.1.symm⟩
  | some labels =>
      rw [setLabel_of_some hlabels, Value.get_modify_self, hlabels]
      cases labels with
      | obj kvs =>
          change (Value.setIn key v kvs).lookup key = some value ↔ _
          rw [Value.lookup_setIn_self, Option.some.injEq]
          refine ⟨fun h => ⟨h.symm, fun labels hlabels => ?_⟩, fun h => h.1.symm⟩
          obtain rfl := Option.some.inj hlabels
          rfl
      | _ => simp [Value.set, Value.object?, Value.isObject]

theorem lookup_unsetLabel_of_ne {key key' : String} (h : key' ≠ key) (svc : Value) :
    ((unsetLabel key svc).getObject "labels").bind (List.lookup key') =
      (svc.getObject "labels").bind (List.lookup key') := by
  rw [Value.getObject, Value.getObject, unsetLabel, Value.get_modify_self]
  cases svc.get "labels" with
  | none => rfl
  | some labels =>
      cases labels with
      | obj kvs => exact Value.lookup_eraseIn_of_ne h kvs
      | _ => rfl

theorem lookup_unsetLabel_self (key : String) (svc : Value) :
    ((unsetLabel key svc).getObject "labels").bind (List.lookup key) = none := by
  rw [Value.getObject, unsetLabel, Value.get_modify_self]
  cases svc.get "labels" with
  | none => rfl
  | some labels =>
      cases labels with
      | obj kvs => exact Value.lookup_eraseIn_self key kvs
      | _ => rfl

/-- The label is read by its own rule, for its own service. -/
theorem labelValue_withLabel {r service : String} (h : ¬ (r = ruleId ∧ service = s)) (v : Value) :
    labelValue (withLabel input s ruleId v) r service = labelValue input r service := by
  rw [labelValue, labelValue, withLabel]
  by_cases hservice : service = s
  · obtain rfl := hservice
    have hkey : exemptionLabel r ≠ exemptionLabel ruleId := fun heq =>
      h ⟨exemptionLabel_injective heq, rfl⟩
    rw [labelsOf_editService_self (sameButLabels_setLabel _ v), labelsOf, Option.bind_assoc,
      Option.bind_assoc]
    simp only [lookup_setLabel_of_ne hkey]
  · rw [labelsOf_editService_of_ne (sameButLabels_setLabel _ v) _ hservice]

theorem labelValue_withoutLabel {r service : String} (h : ¬ (r = ruleId ∧ service = s)) :
    labelValue (withoutLabel input s ruleId) r service = labelValue input r service := by
  rw [labelValue, labelValue, withoutLabel]
  by_cases hservice : service = s
  · obtain rfl := hservice
    have hkey : exemptionLabel r ≠ exemptionLabel ruleId := fun heq =>
      h ⟨exemptionLabel_injective heq, rfl⟩
    rw [labelsOf_editService_self (sameButLabels_unsetLabel _), labelsOf, Option.bind_assoc,
      Option.bind_assoc]
    simp only [lookup_unsetLabel_of_ne hkey]
  · rw [labelsOf_editService_of_ne (sameButLabels_unsetLabel _) _ hservice]

theorem exempted_editService (edit : Value → Value) {r service : String}
    (h : labelValue (editService s edit input) r service = labelValue input r service) :
    exempted (editService s edit input) r service = exempted input r service := by
  have hk : "context" ≠ "compose" := by decide
  rw [Bool.eq_iff_iff, exempted_iff, exempted_iff, h, validContext_editService]
  simp only [justificationValid_editService, environment, get_editService input hk]

/-! ## The violations of the two inputs -/

/-- The same findings, and the same exemption where `w` stands. -/
theorem mem_violation_congr {B : Builtins} {input' : Value} {w : Violation}
    (hfindings : ∀ r ∈ rules, r.findings B input' = r.findings B input)
    (hexempted : exempted input' w.rule w.service = exempted input w.rule w.service) :
    w ∈ violation B input' ↔ w ∈ violation B input := by
  rw [mem_violation_iff, mem_violation_iff]
  constructor
  · rintro ⟨r, hr, finding, hfinding, hkept, rfl⟩
    have hsame : exempted input' r.id finding.1 = exempted input r.id finding.1 := hexempted
    rw [hfindings r hr] at hfinding
    rw [hsame] at hkept
    exact ⟨r, hr, finding, hfinding, hkept, rfl⟩
  · rintro ⟨r, hr, finding, hfinding, hkept, rfl⟩
    have hsame : exempted input' r.id finding.1 = exempted input r.id finding.1 := hexempted
    rw [← hfindings r hr] at hfinding
    rw [← hsame] at hkept
    exact ⟨r, hr, finding, hfinding, hkept, rfl⟩

/-- A service whose labels can be written, and so read. -/
def Labelled (input : Value) (s : String) : Prop :=
  ∃ svc, (serviceObjects input).lookup s = some svc ∧
    ∀ labels, svc.get "labels" = some labels → labels.isObject = true

theorem isObject_of_lookup {s : String} {svc : Value} (h : (serviceObjects input).lookup s = some svc) :
    svc.isObject = true := by
  obtain ⟨l₁, l₂, hsplit, -⟩ := List.lookup_eq_some_iff.mp h
  have hmem : (s, svc) ∈ serviceObjects input := by simp [hsplit]
  exact (List.mem_filter.mp hmem).2

theorem labelValue_withLabel_self_iff {v value : Value} :
    labelValue (withLabel input s ruleId v) ruleId s = some value ↔ value = v ∧ Labelled input s := by
  rw [labelValue, withLabel, labelsOf_editService_self (sameButLabels_setLabel _ v),
    Option.bind_assoc, Option.bind_eq_some_iff]
  constructor
  · rintro ⟨svc, hsvc, hlabel⟩
    obtain ⟨rfl, hreadable⟩ := (lookup_setLabel_self_iff (isObject_of_lookup hsvc)).mp hlabel
    exact ⟨rfl, svc, hsvc, hreadable⟩
  · rintro ⟨rfl, svc, hsvc, hreadable⟩
    exact ⟨svc, hsvc, (lookup_setLabel_self_iff (isObject_of_lookup hsvc)).mpr ⟨rfl, hreadable⟩⟩

/-- When the label is acted on. -/
theorem exempted_withLabel_iff {v : Value} : exempted (withLabel input s ruleId v) ruleId s = true ↔
    ruleId ∉ nonExemptable ∧ environment input = some "dev" ∧ Labelled input s ∧
      ∃ text today review, v = .str text ∧ Accepted input text today review := by
  have hk : "context" ≠ "compose" := by decide
  have henvironment : environment (withLabel input s ruleId v) = environment input := by
    rw [environment, withLabel, get_editService input hk]
    rfl
  rw [exempted_iff, henvironment, withLabel, validContext_editService]
  simp only [justificationValid_editService, justificationValid_iff]
  constructor
  · rintro ⟨hrule, -, hdev, value, hvalue, haccepted⟩
    obtain ⟨rfl, hlabelled⟩ := labelValue_withLabel_self_iff.mp hvalue
    exact ⟨hrule, hdev, hlabelled, haccepted⟩
  · rintro ⟨hrule, hdev, hlabelled, text, today, review, hv, haccepted⟩
    have hnow := evaluatedAtNs_eq_some_iff.mpr ⟨today, haccepted.evaluated, haccepted.century, rfl⟩
    have hcontext : validContext input = true := by
      rw [validContext, hnow, hdev]
      rfl
    exact ⟨hrule, hcontext, hdev, v, labelValue_withLabel_self_iff.mpr ⟨rfl, hlabelled⟩,
      text, today, review, hv, haccepted⟩

theorem exempted_withoutLabel (input : Value) (s ruleId : String) :
    exempted (withoutLabel input s ruleId) ruleId s = false := by
  rw [← Bool.not_eq_true, exempted_iff]
  rintro ⟨-, -, -, value, hvalue, -⟩
  rw [labelValue, withoutLabel, labelsOf_editService_self (sameButLabels_unsetLabel _),
    Option.bind_assoc] at hvalue
  obtain ⟨svc, -, hlabel⟩ := Option.bind_eq_some_iff.mp hvalue
  rw [lookup_unsetLabel_self] at hlabel
  cases hlabel

/-- Nothing of the rule is found on the service where the label is acted on. -/
theorem exempted_of_mem_violation {B : Builtins} {w : Violation} (hrule : w.rule ∉ nonExemptable)
    (h : w ∈ violation B input) : exempted input w.rule w.service = false := by
  have hexemptable : ∀ r ∈ rules, r.id ∉ nonExemptable → r.exemptable = true := by decide
  obtain ⟨r, hr, finding, -, hkept, rfl⟩ := mem_violation_iff.mp h
  have hkept' : (r.exemptable && exempted input (viol r.id finding.1 finding.2).rule
    (viol r.id finding.1 finding.2).service) = false := hkept
  rwa [hexemptable r hr hrule, Bool.true_and] at hkept'

/-- The label is to be ignored. -/
def Ignored (input : Value) (ruleId : String) (v : Value) : Prop :=
  (ruleId = "PLT-000" ∨ ruleId = "PLT-003") ∨ environment input ≠ some "dev" ∨
    ¬ ∃ text today review, v = .str text ∧ Justified input text today review

/-- The label lifts a violation of the rule on the service although its text
has, beside the marker that the pattern reads, another that it does not. -/
structure Overlooked (B : Builtins) (input : Value) (s ruleId : String) (v : Value) : Prop where
  exemptable : ruleId ∉ nonExemptable
  dev : environment input = some "dev"
  labelled : Labelled input s
  found : ∃ r ∈ rules, r.id = ruleId ∧ ∃ finding ∈ r.findings B input, finding.1 = s
  unread : ∃ text today review, v = .str text ∧ Accepted input text today review ∧
    ∃ before word, MarkerAt text.toList before word ∧ ¬ Recognised word

theorem Overlooked.ignored {B : Builtins} {v : Value} (h : Overlooked B input s ruleId v) :
    Ignored input ruleId v := by
  obtain ⟨text, today, review, rfl, haccepted, before, word, hmarker, hword⟩ := h.unread
  refine Or.inr (Or.inr ?_)
  rintro ⟨text', today', review', heq, hjustified⟩
  obtain rfl := Value.str.inj heq
  exact hword (haccepted.justified_iff.mp ⟨today', review', hjustified⟩ before word hmarker)

/-- An accepted text that is to be ignored has a marker that is not read. -/
theorem unread_of_ignored {v : Value} {text : String} {today review : Calendar.Date}
    (hrule : ruleId ∉ nonExemptable) (hdev : environment input = some "dev") (hv : v = .str text)
    (haccepted : Accepted input text today review) (h : Ignored input ruleId v) :
    ∃ before word, MarkerAt text.toList before word ∧ ¬ Recognised word := by
  rcases h with (rfl | rfl) | h | h
  · exact absurd (by decide) hrule
  · exact absurd (by decide) hrule
  · exact absurd hdev h
  · by_contra hall
    push Not at hall
    obtain ⟨today', review', hjustified⟩ := haccepted.justified_iff.mpr hall
    exact h ⟨text, today', review', hv, hjustified⟩

/-- A violation that the label lifts. -/
theorem Overlooked.lifted {B : Builtins} {v : Value} (h : Overlooked B input s ruleId v) :
    ∃ w, w ∈ violation B (withoutLabel input s ruleId) ∧
      w ∉ violation B (withLabel input s ruleId v) := by
  obtain ⟨r, hr, rfl, finding, hfinding, rfl⟩ := h.found
  obtain ⟨text, today, review, hv, haccepted, -⟩ := h.unread
  refine ⟨viol r.id finding.1 finding.2, mem_violation_iff.mpr ⟨r, hr, finding, ?_, ?_, rfl⟩, ?_⟩
  · rwa [withoutLabel, findings_editService (sameButLabels_unsetLabel _) input B r hr]
  · rw [exempted_withoutLabel, Bool.and_false]
  · intro hmem
    have hkept := exempted_of_mem_violation h.exemptable hmem
    have hlifted : exempted (withLabel input finding.1 r.id v) r.id finding.1 = true :=
      exempted_withLabel_iff.mpr ⟨h.exemptable, h.dev, h.labelled, text, today, review, hv, haccepted⟩
    exact Bool.false_ne_true (hkept.symm.trans hlifted)

/-- **An exemption reaches one rule on one service, and only when it is
justified, but for the markers that the pattern does not read.** A label can
change violations of its rule on its service and no others; and for a rule
that is not exemptable, outside the development environment, or with a value
that is no justification it changes nothing, exactly when it is not overlooked
that its text has a second marker. -/
theorem exemption_scope_iff (B : Builtins) (input : Value) (s ruleId : String) (v : Value) :
    ((∀ w : Violation, ¬ (w.rule = ruleId ∧ w.service = s) →
        (w ∈ violation B (withLabel input s ruleId v) ↔ w ∈ violation B input)) ∧
      (Ignored input ruleId v →
        ∀ w : Violation, w ∈ violation B (withLabel input s ruleId v) ↔
          w ∈ violation B (withoutLabel input s ruleId))) ↔
      ¬ Overlooked B input s ruleId v := by
  have hset : ∀ r ∈ rules, r.findings B (withLabel input s ruleId v) = r.findings B input :=
    findings_editService (sameButLabels_setLabel _ v) input B
  have hunset : ∀ r ∈ rules, r.findings B (withoutLabel input s ruleId) = r.findings B input :=
    findings_editService (sameButLabels_unsetLabel _) input B
  have helsewhere : ∀ w : Violation, ¬ (w.rule = ruleId ∧ w.service = s) →
      (w ∈ violation B (withLabel input s ruleId v) ↔ w ∈ violation B input) := fun w hw =>
    mem_violation_congr hset (exempted_editService _ (labelValue_withLabel hw v))
  constructor
  · rintro ⟨-, hignored⟩ h
    obtain ⟨w, hwithout, hwith⟩ := h.lifted
    exact hwith ((hignored h.ignored w).mpr hwithout)
  · intro h
    refine ⟨helsewhere, fun hignored w => ?_⟩
    by_cases hw : w.rule = ruleId ∧ w.service = s
    · obtain ⟨rfl, rfl⟩ := hw
      cases hexempted : exempted (withLabel input w.service w.rule v) w.rule w.service with
      | false =>
          refine mem_violation_congr (fun r hr => (hset r hr).trans (hunset r hr).symm) ?_
          rw [hexempted, exempted_withoutLabel]
      | true =>
          -- the label is acted on, so there is nothing on the service for it to lift
          obtain ⟨hrule, hdev, hlabelled, text, today, review, hv, haccepted⟩ :=
            exempted_withLabel_iff.mp hexempted
          have hunread := unread_of_ignored hrule hdev hv haccepted hignored
          constructor
          · intro hmem
            have hkept := exempted_of_mem_violation hrule hmem
            rw [hexempted] at hkept
            cases hkept
          · intro hmem
            obtain ⟨r, hr, finding, hfinding, -, hviol⟩ := mem_violation_iff.mp hmem
            rw [hunset r hr] at hfinding
            refine absurd ⟨hrule, hdev, hlabelled, ⟨r, hr, ?_, finding, hfinding, ?_⟩, text, today,
              review, hv, haccepted, hunread⟩ h
            · rw [← hviol]
              rfl
            · rw [← hviol]
              rfl
    · rw [helsewhere w hw]
      exact (mem_violation_congr hunset (exempted_editService _ (labelValue_withoutLabel hw))).symm

/-- `openbao` as it is developed, with a capability that a justification lifts. -/
def openbaoInDev : Value :=
  inputAt "dev" "2026-08-25" [("openbao", .obj [("image", .str "docker.io/openbao/openbao:2"),
    ("cap_add", .arr [.str "IPC_LOCK"])])]

/-- The review of the year after, and one a century later. -/
def reviewedTwice : String :=
  "ADR-014 IPC_LOCK requis par OpenBao reexamen=2027-02-23 reexamen=2127-02-23"

theorem reviewedTwice_overlooked :
    Overlooked .ascii openbaoInDev "openbao" "PLT-001" (.str reviewedTwice) := by
  have haccepted := justificationValid_iff.mp
    (show justificationValid openbaoInDev (.str reviewedTwice) = true by decide +kernel)
  obtain ⟨text, today, review, heq, haccepted⟩ := haccepted
  obtain rfl := Value.str.inj heq
  refine ⟨by decide, rfl, ⟨_, rfl, fun labels h => ?_⟩, ?_, ⟨_, today, review, rfl, haccepted, ?_⟩⟩
  · cases h
  · exact ⟨capabilityAdded, by simp [rules], rfl, _, List.mem_cons_self, rfl⟩
  · refine ⟨Json.chars "ADR-014 IPC_LOCK requis par OpenBao reexamen=2027-02-23 ",
      Json.chars "2127-02-23", ⟨⟨['2', '1', '2', '7'], ['0', '2'], ['2', '3'], rfl, rfl, rfl, rfl,
        by decide⟩, [], ?_⟩, ?_⟩
    · rw [← Json.chars_eq_toList]
      decide +kernel
    · rintro ⟨y₃, -, y₄, -, m₁, -, m₂, -, d₁, -, d₂, -, h, -⟩
      cases h

/-- A marker of the next century, and the label is acted on all the same. -/
theorem second_review_date_overlooked :
    Ignored openbaoInDev "PLT-001" (.str reviewedTwice) ∧
      ∃ w, w ∈ violation .ascii (withoutLabel openbaoInDev "openbao" "PLT-001") ∧
        w ∉ violation .ascii (withLabel openbaoInDev "openbao" "PLT-001" (.str reviewedTwice)) :=
  ⟨reviewedTwice_overlooked.ignored, reviewedTwice_overlooked.lifted⟩

end ZeroSecret.Platform
