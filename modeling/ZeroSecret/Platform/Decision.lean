import ZeroSecret.Platform.Compose

/-!
# When a file is allowed

Exactly when the input is readable and every finding is lifted by an
exemption. The second part builds files with one service that pass, whatever
one further field of the service holds that no rule reads.
-/

namespace ZeroSecret.Platform

open Rego

theorem allow_iff {B : Builtins} {input : Value} :
    allow B input = true ↔ validInput input = true ∧ ∀ r ∈ rules,
      ∀ finding ∈ r.findings B input, (r.exemptable && exempted input r.id finding.1) = true := by
  rw [allow, Bool.and_eq_true, List.isEmpty_iff, List.eq_nil_iff_forall_not_mem]
  refine and_congr_right fun _ => ?_
  simp only [mem_violation_iff]
  constructor
  · intro hnone r hr finding hfinding
    by_contra hkept
    exact hnone _ ⟨r, hr, finding, hfinding, by simpa using hkept, rfl⟩
  · rintro hall w ⟨r, hr, finding, hfinding, hkept, -⟩
    rw [hall r hr finding hfinding] at hkept
    cases hkept

theorem mem_inServices {input : Value} {details : Value → List String} {finding : String × String} :
    finding ∈ inServices input details ↔
      ∃ service ∈ serviceObjects input, ∃ detail ∈ details service.2, (service.1, detail) = finding := by
  simp only [inServices, List.mem_flatMap, List.mem_map]

/-! ## A file with one service -/

def pinnedReference : String :=
  "registry.local/app@sha256:0123456789abcdef0123456789abcdef0123456789abcdef0123456789abcdef"

theorem pinnedImage_pinnedReference (B : Builtins) : pinnedImage B pinnedReference = true := by
  have hdigest : digestPinned.search (Json.chars pinnedReference) = true := by decide +kernel
  rw [pinnedImage, hdigest, Bool.true_or]

/-- One service on the day of the tests, in development. -/
def oneService (svc : Value) : Value := inputAt "dev" "2026-08-25" [("app", svc)]

theorem validContext_oneService (svc : Value) : validContext (oneService svc) = true := by
  have hclosed : validContext (oneService .null) = true := by decide +kernel
  exact hclosed

theorem serviceObjects_oneService {svc : Value} (h : svc.isObject = true) :
    serviceObjects (oneService svc) = [("app", svc)] := by
  change [("app", svc)].filter (fun service => service.2.isObject) = _
  exact List.filter_cons_of_pos h

theorem inServices_oneService {svc : Value} (h : svc.isObject = true)
    (details : Value → List String) :
    inServices (oneService svc) details = (details svc).map fun detail => ("app", detail) := by
  rw [inServices, serviceObjects_oneService h, List.flatMap_cons, List.flatMap_nil, List.append_nil]

def fieldsLeftOut : List String :=
  ["cap_add", "devices", "env_file", "ports", "privileged", "pid", "ipc", "network_mode",
    "userns_mode"]

/-- No rule finds anything in the service but mounts of an engine's socket. -/
structure Quiet (svc : Value) : Prop where
  isObject : svc.isObject = true
  image : svc.getString "image" = some pinnedReference
  types : ∀ field ∈ expectedTypes, ∀ value, svc.get field.1 = some value →
    typeOk field.2 value = true
  absent : ∀ k ∈ fieldsLeftOut, svc.get k = none
  environment : ∀ kv ∈ envOf svc, kv.2.isArray = true ∨ kv.2.isObject = true
  args : argsOf svc = []
  securityOpt : (arrayField svc "security_opt").filterMap Value.string? = []
  volumes : ∀ mount ∈ arrayField svc "volumes", ∃ text, mount = .str text ∧
    bindSource (Json.chars text) = false

namespace Quiet

variable {svc : Value} (h : Quiet svc)

include h

omit h in
/-- The types of the fields, one after the other. -/
theorem types_of_fields {kvs : List (String × Value)}
    (hfits : ∀ kv ∈ kvs, ((expectedTypes.lookup kv.1).all fun kind => typeOk kind kv.2) = true) :
    ∀ field ∈ expectedTypes, ∀ value, (Value.obj kvs).get field.1 = some value →
      typeOk field.2 value = true := by
  intro field hfield value hvalue
  have hkinds : ∀ field ∈ expectedTypes, expectedTypes.lookup field.1 = some field.2 := by decide
  obtain ⟨before, after, rfl, -⟩ := List.lookup_eq_some_iff.mp hvalue
  have hkind := hfits (field.1, value) (by simp)
  rwa [hkinds field hfield] at hkind

omit h in
theorem absent_of_fields {kvs : List (String × Value)}
    (hkeys : ∀ k ∈ fieldsLeftOut, k ∉ kvs.map Prod.fst) :
    ∀ k ∈ fieldsLeftOut, (Value.obj kvs).get k = none :=
  fun k hk => Value.get_obj_eq_none (hkeys k hk)

theorem arrayField_eq_nil {k : String} (hk : k ∈ fieldsLeftOut) :
    arrayField svc k = [] := by
  rw [arrayField, Value.getArray, h.absent k hk]
  rfl

theorem getString_eq_none {k : String} (hk : k ∈ fieldsLeftOut) :
    svc.getString k = none := by
  rw [Value.getString, h.absent k hk]
  rfl

theorem envPairs_eq :
    envPairs (oneService svc) = (envOf svc).map fun kv => ⟨"app", kv.1, kv.2⟩ := by
  rw [envPairs, serviceObjects_oneService h.isObject, List.flatMap_cons, List.flatMap_nil,
    List.append_nil]

theorem argStrings_eq_nil : argStrings (oneService svc) = [] := by
  rw [argStrings, serviceObjects_oneService h.isObject, List.flatMap_cons, h.args]
  rfl

/-- What a rule looks for in the pairs of the environment is not there. -/
theorem filter_envPairs_eq_nil {p : EnvPair → Bool}
    (hp : ∀ pair, pair.value.isArray = true ∨ pair.value.isObject = true → p pair = false) :
    (envPairs (oneService svc)).filter p = [] := by
  rw [h.envPairs_eq, List.filter_eq_nil_iff]
  intro pair hpair
  obtain ⟨kv, hkv, rfl⟩ := List.mem_map.mp hpair
  rw [hp _ (h.environment kv hkv)]
  exact Bool.false_ne_true

theorem findings_eq_nil (B : Builtins) :
    ∀ r ∈ rules, r = engineSocketMounted ∨ r.findings B (oneService svc) = [] := by
  intro r hr
  have hcapabilities := h.arrayField_eq_nil (by decide : "cap_add" ∈ fieldsLeftOut)
  have hdevices := h.arrayField_eq_nil (by decide : "devices" ∈ fieldsLeftOut)
  have hports := h.arrayField_eq_nil (by decide : "ports" ∈ fieldsLeftOut)
  have hprivileged := h.absent "privileged" (by decide)
  have henvFile := h.absent "env_file" (by decide)
  have hnames : ∀ field ∈ ["pid", "ipc", "network_mode", "userns_mode"],
      field ∈ fieldsLeftOut := by decide
  simp only [rules, List.mem_cons, List.not_mem_nil, or_false] at hr
  rcases hr with rfl | rfl | rfl | rfl | rfl | rfl | rfl | rfl | rfl | rfl | rfl | rfl | rfl | rfl |
    rfl | rfl | rfl | rfl | rfl | rfl | rfl | rfl | rfl | rfl
  · exact Or.inr rfl
  · exact Or.inr rfl
  · exact Or.inr rfl
  · refine Or.inr ?_
    simp only [contextIncomplete, validContext_oneService, if_true]
  · refine Or.inr ?_
    change ([("app", svc)].filter fun service => !service.2.isObject).map _ = []
    simp [h.isObject]
  · refine Or.inr ?_
    obtain ⟨value, himage, -⟩ := Option.bind_eq_some_iff.mp h.image
    simp [imageMissing, inServices_oneService h.isObject, hasKey, himage]
  · refine Or.inr ?_
    simp only [unexpectedType, inServices_oneService h.isObject, List.map_eq_nil_iff,
      List.filter_eq_nil_iff]
    intro field hfield
    cases hvalue : svc.get field.1 with
    | none => exact Bool.false_ne_true
    | some value => simp [h.types field hfield value hvalue]
  · refine Or.inr ?_
    simp [portUnread, inServices_oneService h.isObject, hports]
  · refine Or.inr ?_
    simp only [volumeUnread, inServices_oneService h.isObject, List.map_eq_nil_iff,
      List.filter_eq_nil_iff]
    intro mount hmount
    obtain ⟨text, rfl, -⟩ := h.volumes mount hmount
    exact Bool.false_ne_true
  · refine Or.inr ?_
    simp [privileged, inServices_oneService h.isObject, hprivileged]
  · refine Or.inr ?_
    simp [capabilityAdded, inServices_oneService h.isObject, hcapabilities]
  · refine Or.inr ?_
    simp [confinementDisabled, inServices_oneService h.isObject, h.securityOpt]
  · refine Or.inr ?_
    simp only [namespaceShared, inServices_oneService h.isObject, List.map_eq_nil_iff,
      List.filterMap_eq_nil_iff]
    intro field hfield
    rw [h.getString_eq_none (hnames field hfield)]
    rfl
  · refine Or.inr ?_
    simp [devicesGiven, inServices_oneService h.isObject, hdevices]
  · exact Or.inl rfl
  · refine Or.inr ?_
    simp [portPublished, inServices_oneService h.isObject, hports]
  · refine Or.inr ?_
    simp [portObjectPublished, inServices_oneService h.isObject, hports]
  · refine Or.inr ?_
    simp only [literalInEnvironment]
    rw [h.filter_envPairs_eq_nil]
    · rfl
    · intro pair hpair
      cases hvalue : pair.value <;> simp_all [literalValue, Value.isArray, Value.isObject]
  · refine Or.inr ?_
    simp [envFileGiven, inServices_oneService h.isObject, hasKey, henvFile]
  · refine Or.inr ?_
    simp [secretInArguments, h.argStrings_eq_nil]
  · refine Or.inr ?_
    simp [imageNotPinned, inServices_oneService h.isObject, h.image, pinnedImage_pinnedReference]
  · refine Or.inr ?_
    simp only [authenticationDisabled]
    rw [h.filter_envPairs_eq_nil]
    · rfl
    · intro pair hpair
      cases hvalue : pair.value <;> simp_all [authDisabling, Value.string?, Value.isArray, Value.isObject]
  · refine Or.inr ?_
    simp [devModeStarted, h.argStrings_eq_nil]
  · refine Or.inr ?_
    simp only [hostMountWritable, inServices_oneService h.isObject, List.map_eq_nil_iff,
      List.filter_eq_nil_iff, List.mem_filterMap]
    rintro text ⟨mount, hmount, htext⟩
    obtain ⟨text', rfl, hbind⟩ := h.volumes mount hmount
    obtain rfl := Option.some.inj htext
    simp [hbind]

theorem allow (B : Builtins)
    (hsocket : arrayField svc "volumes" = [] ∨ exempted (oneService svc) "PLT-001" "app" = true) :
    allow B (oneService svc) = true := by
  refine allow_iff.mpr ⟨?_, fun r hr finding hfinding => ?_⟩
  · rw [validInput, validContext_oneService]
    rfl
  · rcases h.findings_eq_nil B r hr with rfl | hnone
    · simp only [engineSocketMounted, inServices_oneService h.isObject] at hfinding
      rcases hsocket with hvolumes | hexempted
      · rw [hvolumes] at hfinding
        cases hfinding
      · obtain ⟨detail, -, rfl⟩ := List.mem_map.mp hfinding
        exact hexempted
    · rw [hnone] at hfinding
      cases hfinding

end Quiet

end ZeroSecret.Platform
