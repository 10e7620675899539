import ZeroSecret.Platform.Decision

/-!
# Elements that no rule reads

An entry of a list, or a value of the environment, can have a form for which
no rule has a reading. Among ports and volumes it is refused by name; anywhere
else it is passed over, and the file can be allowed.
-/

namespace ZeroSecret.Platform

open Rego

/-- Where the elements of a service stand. -/
inductive Place
  | environmentEntry
  | environmentValue
  | commandEntry
  | entrypointEntry
  | securityOptEntry
  | portEntry
  | volumeEntry
deriving DecidableEq

def Place.field : Place → String
  | environmentEntry => "environment"
  | environmentValue => "environment"
  | commandEntry => "command"
  | entrypointEntry => "entrypoint"
  | securityOptEntry => "security_opt"
  | portEntry => "ports"
  | volumeEntry => "volumes"

/-- The elements of a service at a place: values of a map, entries of a list. -/
def Place.elements (p : Place) (svc : Value) : List Value :=
  match p with
  | environmentValue => ((svc.getObject "environment").getD []).map Prod.snd
  | _ => arrayField svc p.field

/-- The forms that the rules read. -/
def Place.reads : Place → Value → Bool
  | environmentValue, v => !v.isArray && !v.isObject
  | portEntry, v => v.isString || v.isObject
  | _, v => v.isString

/-! ## Refused -/

theorem read_of_allow {B : Builtins} {input : Value} {name : String} {svc v : Value} {p : Place}
    (hp : p = .portEntry ∨ p = .volumeEntry) (hservice : (name, svc) ∈ serviceObjects input)
    (hv : v ∈ p.elements svc) (hallow : allow B input = true) : p.reads v = true := by
  by_contra hunread
  rcases hp with rfl | rfl
  · have hfinding : (name, "entrée de 'ports' de forme non reconnue : " ++ B.format v) ∈
        portUnread.findings B input := by
      simp only [portUnread]
      refine mem_inServices.mpr ⟨(name, svc), hservice, _, List.mem_map.mpr ⟨v, ?_, rfl⟩, rfl⟩
      exact List.mem_filter.mpr ⟨hv, by simpa [Place.reads] using hunread⟩
    have hlifted := (allow_iff.mp hallow).2 portUnread (by simp [rules]) _ hfinding
    cases hlifted
  · have hfinding : (name, "entrée de 'volumes' de forme non reconnue (forme longue non couverte) : "
        ++ B.format v) ∈ volumeUnread.findings B input := by
      simp only [volumeUnread]
      refine mem_inServices.mpr ⟨(name, svc), hservice, _, List.mem_map.mpr ⟨v, ?_, rfl⟩, rfl⟩
      exact List.mem_filter.mpr ⟨hv, by simpa [Place.reads] using hunread⟩
    have hlifted := (allow_iff.mp hallow).2 volumeUnread (by simp [rules]) _ hfinding
    cases hlifted

/-! ## Passed over -/

/-- A service with one element at a place, and nothing else to find. -/
def Place.service (p : Place) (v : Value) : Value :=
  .obj [("image", .str pinnedReference), (p.field,
    match p with
    | environmentValue => .obj [("DATA", v)]
    | _ => .arr [v])]

theorem mem_elements_service (p : Place) (v : Value) : v ∈ p.elements (p.service v) := by
  cases p <;> exact List.mem_cons_self

theorem strings_eq_nil {v : Value} (h : v.isString = false) :
    [v].filterMap Value.string? = [] := by
  cases v with
  | str s => cases h
  | _ => rfl

theorem quiet_service {p : Place} {v : Value} (hread : p.reads v = false)
    (hport : p ≠ .portEntry) (hvolume : p ≠ .volumeEntry) : Quiet (p.service v) where
  isObject := rfl
  image := rfl
  types := by
    refine Quiet.types_of_fields fun kv hkv => ?_
    simp only [List.mem_cons, List.not_mem_nil, or_false] at hkv
    rcases hkv with rfl | rfl
    · rfl
    · cases p <;> rfl
  absent := by
    refine Quiet.absent_of_fields ?_
    change ∀ k ∈ fieldsLeftOut, k ∉ ["image", p.field]
    revert hport hvolume
    cases p <;> decide
  environment := by
    intro kv hkv
    cases p with
    | environmentEntry =>
        change kv ∈ ([v].filterMap Value.string?).filterMap envEntry at hkv
        rw [strings_eq_nil hread] at hkv
        cases hkv
    | environmentValue =>
        obtain rfl := List.mem_singleton.mp hkv
        simpa [Place.reads, or_iff_not_imp_left] using hread
    | _ => cases hkv
  args := by
    cases p with
    | commandEntry =>
        change [v].filterMap Value.string? ++ [] = []
        rw [strings_eq_nil hread, List.append_nil]
    | entrypointEntry =>
        change [v].filterMap Value.string? ++ [] = []
        rw [strings_eq_nil hread, List.append_nil]
    | _ => rfl
  securityOpt := by
    cases p with
    | securityOptEntry => exact strings_eq_nil hread
    | _ => rfl
  volumes := by
    have hnone : arrayField (p.service v) "volumes" = [] := by
      cases p with
      | volumeEntry => exact absurd rfl hvolume
      | _ => rfl
    rw [hnone]
    intro mount hmount
    cases hmount

/-- **Only among ports and volumes is an element that no rule reads refused.** -/
theorem unread_refused_iff (B : Builtins) (p : Place) {v : Value} (h : p.reads v = false) :
    (∀ input name svc, (name, svc) ∈ serviceObjects input → v ∈ p.elements svc →
      allow B input = false) ↔ p = .portEntry ∨ p = .volumeEntry := by
  constructor
  · intro hrefused
    by_contra hplace
    rw [not_or] at hplace
    have hallow := (quiet_service h hplace.1 hplace.2).allow B (Or.inl ?_)
    · rw [hrefused _ "app" (p.service v) List.mem_cons_self (mem_elements_service p v)] at hallow
      cases hallow
    · cases p with
      | volumeEntry => exact absurd rfl hplace.2
      | _ => rfl
  · intro hplace input name svc hservice hv
    rw [← Bool.not_eq_true]
    intro hallow
    have hread := read_of_allow hplace hservice hv hallow
    rw [h] at hread
    cases hread

theorem unread_port_refused :
    (∀ input name svc, (name, svc) ∈ serviceObjects input →
      .num "8080" ∈ Place.elements .portEntry svc → allow .ascii input = false) ↔
        Place.portEntry = .portEntry ∨ Place.portEntry = .volumeEntry :=
  unread_refused_iff .ascii .portEntry (by decide)

/-- A command with an entry that is an object, which holds a secret. -/
def commandUnread : Value :=
  oneService (.obj [("image", .str pinnedReference),
    ("command", .arr [.str "server", .obj [("--token=s3cret", .null)]])])

theorem unread_command_allowed :
    ∃ svc v, ("app", svc) ∈ serviceObjects commandUnread ∧ v ∈ Place.elements .commandEntry svc ∧
      Place.reads .commandEntry v = false ∧ allow .ascii commandUnread = true :=
  ⟨_, .obj [("--token=s3cret", .null)], List.mem_cons_self,
    List.mem_cons_of_mem _ List.mem_cons_self, rfl, by decide +kernel⟩

end ZeroSecret.Platform
