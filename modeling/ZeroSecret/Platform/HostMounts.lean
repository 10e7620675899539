import ZeroSecret.Platform.Decision

/-!
# Writable mounts of the host

Compose takes the source of a short-form volume for a path of the host when it
begins with `/`, `.` or `~`. The rule looks for `/`, `./`, `../` and `~`: it
refuses exactly the writable mounts whose source begins so.
-/

namespace ZeroSecret.Platform

open Rego

/-- `src:dst` or `src:dst:opts`, the options separated by commas. -/
inductive ShortForm (src : List Char) : List Char → List (List Char) → Prop where
  | plain {dst : List Char} (hsrc : ':' ∉ src) (hdst : ':' ∉ dst) :
      ShortForm src (src ++ ':' :: dst) []
  | withOptions {dst : List Char} {options : List (List Char)} (hsrc : ':' ∉ src)
      (hdst : ':' ∉ dst) (hne : options ≠ []) (hoptions : ∀ o ∈ options, ',' ∉ o)
      (hcolon : ':' ∉ [','].intercalate options) :
      ShortForm src (src ++ ':' :: (dst ++ ':' :: [','].intercalate options)) options

/-- `src` is a path of the host, and nothing makes the mount read-only. -/
structure WritableHostMount (mount : String) (src : List Char) : Prop where
  form : ∃ options, ShortForm src mount.toList options ∧ ['r', 'o'] ∉ options
  host : ∃ c rest, src = c :: rest ∧ c ∈ ['/', '.', '~']

/-- The spellings that the rule knows. -/
def KnownSpelling (src : List Char) : Prop :=
  ['/'] <+: src ∨ ['.', '/'] <+: src ∨ ['.', '.', '/'] <+: src ∨ ['~'] <+: src

/-! ## The parts of a mount -/

theorem ShortForm.mountSource_eq {src mount : List Char} {options : List (List Char)}
    (h : ShortForm src mount options) : mountSource mount = src := by
  cases h with
  | plain hsrc hdst =>
      rw [mountSource, split, List.splitOn_append_cons_self_of_not_mem hsrc, List.headD_cons]
  | withOptions hsrc hdst hne hoptions hcolon =>
      rw [mountSource, split, List.splitOn_append_cons_self_of_not_mem hsrc, List.headD_cons]

theorem ShortForm.readOnly_iff {src mount : List Char} {options : List (List Char)}
    (h : ShortForm src mount options) :
    readOnly (mountOptions mount) = true ↔ ['r', 'o'] ∈ options := by
  rw [readOnly, decide_eq_true_eq]
  cases h with
  | @plain dst hsrc hdst =>
      have hparts : split ':' (src ++ ':' :: dst) = [src, dst] := by
        rw [split, List.splitOn_append_cons_self_of_not_mem hsrc, List.splitOn_eq_singleton hdst]
      rw [mountOptions, hparts]
      simp [split]
  | @withOptions dst options hsrc hdst hne hoptions hcolon =>
      have hparts : split ':' (src ++ ':' :: (dst ++ ':' :: [','].intercalate options)) =
          [src, dst, [','].intercalate options] := by
        rw [split, List.splitOn_append_cons_self_of_not_mem hsrc,
          List.splitOn_append_cons_self_of_not_mem hdst, List.splitOn_eq_singleton hcolon]
      rw [mountOptions, hparts]
      change _ ∈ split ',' ([','].intercalate options) ↔ _
      rw [split, List.splitOn_intercalate ',' hoptions hne]

theorem bindSource_iff {mount src : List Char} (h : mountSource mount = src) :
    bindSource mount = true ↔ KnownSpelling src := by
  rw [bindSource, h, KnownSpelling]
  simp only [Bool.or_eq_true, List.isPrefixOf_iff_prefix, or_assoc]

/-! ## Mounts that are refused -/

/-- A writable mount that the rule knows, in a file that is allowed, is exempted. -/
theorem exempted_of_allow {B : Builtins} {input : Value} {name : String} {svc : Value}
    {mount : String} (hservice : (name, svc) ∈ serviceObjects input)
    (hmount : .str mount ∈ arrayField svc "volumes") (hbind : bindSource (Json.chars mount) = true)
    (hwritable : readOnly (mountOptions (Json.chars mount)) = false)
    (hallow : allow B input = true) : exempted input "PLT-006" name = true := by
  have hfinding : (name, "montage de l'hôte en lecture-écriture : " ++ mount) ∈
      hostMountWritable.findings B input := by
    simp only [hostMountWritable]
    refine mem_inServices.mpr ⟨(name, svc), hservice, _, List.mem_map.mpr ⟨mount, ?_, rfl⟩, rfl⟩
    refine List.mem_filter.mpr ⟨List.mem_filterMap.mpr ⟨_, hmount, rfl⟩, ?_⟩
    rw [hbind, hwritable]
    rfl
  exact (allow_iff.mp hallow).2 hostMountWritable (by simp [rules]) _ hfinding

/-! ## Mounts that pass -/

/-- A service that mounts one volume; its exemption is for engine sockets. -/
def mountingService (mount : String) : Value :=
  .obj [("image", .str pinnedReference),
    ("labels", .obj [("io.zero-secret.exemption.PLT-001",
      .str "ADR-014 acces au moteur pour la supervision reexamen=2027-02-23")]),
    ("volumes", .arr [.str mount])]

theorem exempted_mountingService (mount : String) :
    exempted (oneService (mountingService mount)) "PLT-001" "app" = true := by
  have hclosed : exempted (oneService (mountingService "")) "PLT-001" "app" = true := by
    decide +kernel
  exact hclosed

theorem quiet_mountingService {mount : String} (h : bindSource (Json.chars mount) = false) :
    Quiet (mountingService mount) where
  isObject := rfl
  image := rfl
  types := by
    refine Quiet.types_of_fields fun kv hkv => ?_
    simp only [List.mem_cons, List.not_mem_nil, or_false] at hkv
    rcases hkv with rfl | rfl | rfl <;> rfl
  absent := Quiet.absent_of_fields (by decide : ∀ k ∈ fieldsLeftOut, k ∉ ["image", "labels", "volumes"])
  environment := by
    intro kv hkv
    cases hkv
  args := rfl
  securityOpt := rfl
  volumes := by
    intro v hv
    obtain rfl := List.mem_singleton.mp hv
    exact ⟨mount, rfl, h⟩

theorem not_exempted_mountingService (mount : String) :
    exempted (oneService (mountingService mount)) "PLT-006" "app" = false := by
  have hclosed : exempted (oneService (mountingService "")) "PLT-006" "app" = false := by
    decide +kernel
  exact hclosed

/-- **The writable mounts that are refused unless exempted are those whose
source is spelled in one of the ways the rule knows.** -/
theorem writable_mount_refused_iff (B : Builtins) {mount : String} {src : List Char}
    (h : WritableHostMount mount src) :
    (∀ input name svc, (name, svc) ∈ serviceObjects input →
      .str mount ∈ arrayField svc "volumes" → allow B input = true →
        exempted input "PLT-006" name = true) ↔ KnownSpelling src := by
  obtain ⟨options, hform, hwritable⟩ := h.form
  rw [← Json.chars_eq_toList] at hform
  constructor
  · intro hrefused
    by_contra hknown
    have hbind : bindSource (Json.chars mount) = false := by
      rwa [← Bool.not_eq_true, bindSource_iff hform.mountSource_eq]
    have hexempted := hrefused (oneService (mountingService mount)) "app" (mountingService mount)
      List.mem_cons_self List.mem_cons_self
      ((quiet_mountingService hbind).allow B (Or.inr (exempted_mountingService mount)))
    rw [not_exempted_mountingService] at hexempted
    cases hexempted
  · intro hknown input name svc hservice hmount hallow
    refine exempted_of_allow hservice hmount ((bindSource_iff hform.mountSource_eq).mpr hknown) ?_
      hallow
    rwa [← Bool.not_eq_true, hform.readOnly_iff]

theorem writable_mount_data_refused :
    (∀ input name svc, (name, svc) ∈ serviceObjects input →
      .str "./data:/app" ∈ arrayField svc "volumes" → allow .ascii input = true →
        exempted input "PLT-006" name = true) ↔ KnownSpelling ['.', '/', 'd', 'a', 't', 'a'] := by
  have hform : ShortForm ['.', '/', 'd', 'a', 't', 'a'] "./data:/app".toList [] :=
    @ShortForm.plain _ ['/', 'a', 'p', 'p'] (by decide) (by decide)
  exact writable_mount_refused_iff .ascii ⟨⟨[], hform, by decide⟩, '.', _, rfl, by decide⟩

/-- The project directory itself, mounted in writing. -/
def projectMounted : Value :=
  oneService (.obj [("image", .str pinnedReference), ("volumes", .arr [.str ".:/app"])])

theorem project_mount_allowed :
    ∃ svc, ("app", svc) ∈ serviceObjects projectMounted ∧
      .str ".:/app" ∈ arrayField svc "volumes" ∧ WritableHostMount ".:/app" ['.'] ∧
        allow .ascii projectMounted = true ∧ exempted projectMounted "PLT-006" "app" = false := by
  have hform : ShortForm ['.'] ".:/app".toList [] :=
    @ShortForm.plain _ ['/', 'a', 'p', 'p'] (by decide) (by decide)
  exact ⟨_, List.mem_cons_self, List.mem_cons_self, ⟨⟨[], hform, by decide⟩, '.', _, rfl, by decide⟩,
    by decide +kernel, by decide +kernel⟩

end ZeroSecret.Platform
