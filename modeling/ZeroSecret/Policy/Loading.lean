import Mathlib.Data.List.Perm.Basic
import ZeroSecret.Base.Fallible
import ZeroSecret.Crypto.CorpusBinding
import ZeroSecret.Policy.Pdp

/-!
# `Pdp::load`

The corpus is read in the order the directory is listed in and sorted by the
names of its files, as texts. A name that is not UTF-8 becomes the empty text;
files of such names stand first, in the order they were listed in. Files whose
names are texts leave nothing of that order.
-/

namespace ZeroSecret.Policy

open Crypto Crypto.DecisionBinding Fallible

/-! ## Files of a directory -/

/-- A file name of the operating system; `.` and `..` are not listed. -/
structure OsName where
  bytes : Bytes
  nonempty : bytes ≠ []
  noSlash : 0x2F ∉ bytes
  noNul : 0x00 ∉ bytes
deriving DecidableEq

/-- Before and behind the last dot. -/
def rsplitAtDot : Bytes → Option (Bytes × Bytes)
  | [] => none
  | b :: rest =>
      match rsplitAtDot rest with
      | some (before, after) => some (b :: before, after)
      | none => if b = 0x2E then some ([], rest) else none

/-- `OsStr::to_str` -/
def toStr (bytes : Bytes) : Option String := String.fromUTF8? bytes.toByteArray

namespace OsName

/-- `Path::extension`; a dot that starts the name starts no extension. -/
def extension (name : OsName) : Option Bytes :=
  match rsplitAtDot name.bytes with
  | none => none
  | some (before, after) => if before = [] then none else some after

/-- `to_str().unwrap_or_default()` -/
def relative (name : OsName) : String := (toStr name.bytes).getD ""

end OsName

structure DirEntry where
  name : OsName
  /-- What `read_to_string` gives. -/
  contents : Except String String

def DirEntry.isCedar (entry : DirEntry) : Bool :=
  entry.name.extension.bind toStr = some "cedar"

/-! ## Loading -/

inductive PdpLoadError
  | readSchema (e : String)
  | schema (e : String)
  | readCorpus (e : String)
  | policies (e : String)
  | binding (e : CorpusBindingError)

def PdpLoadError.toString : PdpLoadError → String
  | .readSchema e => "lecture du schéma Cedar : " ++ e
  | .schema e => "schéma Cedar invalide : " ++ e
  | .readCorpus e => "lecture du corpus de politiques : " ++ e
  | .policies e => "corpus de politiques invalide : " ++ e
  | .binding e => "empreinte de corpus : " ++ e.toString

/-- What `load` uses of `cedar-policy`. -/
structure CedarLibrary where
  Schema : Type
  PolicySet : Type
  schemaFromJsonStr : String → Except String Schema
  parsePolicySet : String → Except String PolicySet
  engine : Schema → PolicySet → Engine

def cedarEngineVersion : String := "4.12.0"

def readFile (entry : DirEntry) : Except PdpLoadError CorpusFile := do
  let contents ← entry.contents.mapError .readCorpus
  .ok ⟨entry.name.relative, contents⟩

/-- The loop over `read_dir`. -/
def readCorpus : List DirEntry → Except PdpLoadError (List CorpusFile)
  | [] => .ok []
  | entry :: rest =>
      if entry.isCedar then do
        let file ← readFile entry
        let files ← readCorpus rest
        .ok (file :: files)
      else readCorpus rest

/-- `sort_by`: files of one name keep their order. -/
def sortByName (files : List CorpusFile) : List CorpusFile := files.insertionSort pathLe

def bundle (files : List CorpusFile) : String :=
  "\n".intercalate (files.map CorpusFile.contents)

/-- `DecisionBinding::to_hex_string` -/
def toHexString (binding : DecisionBinding) : String :=
  binding.suite ++ ":" ++ hexEncode binding.digest.val

section
variable (P : Primitives) (cedar : CedarLibrary) (schemaFile : Except String String)

/-- `entries` in the order the directory is listed in. -/
def load (entries : List DirEntry) : Except PdpLoadError Pdp := do
  let schemaJson ← schemaFile.mapError .readSchema
  let schema ← (cedar.schemaFromJsonStr schemaJson).mapError .schema
  let cedarFiles ← readCorpus entries
  let cedarFiles := sortByName cedarFiles
  if cedarFiles.isEmpty then .error (.policies "aucun fichier .cedar dans le corpus")
  else do
    let policies ← (cedar.parsePolicySet (bundle cedarFiles)).mapError .policies
    let binding ←
      (bindPolicyCorpus P schemaJson cedarEngineVersion cedarFiles).mapError .binding
    .ok ⟨cedar.engine schema policies, toHexString binding⟩

/-- What `load` asks of its inputs. -/
structure Accepted (entries : List DirEntry) (schemaJson : String) (schema : cedar.Schema)
    (files : List CorpusFile) (policies : cedar.PolicySet) : Prop where
  schemaRead : schemaFile = .ok schemaJson
  schema : cedar.schemaFromJsonStr schemaJson = .ok schema
  corpus : readCorpus entries = .ok files
  nonempty : files ≠ []
  policies : cedar.parsePolicySet (bundle (sortByName files)) = .ok policies
  checked : ∀ file ∈ files,
    pathRefused file.relativePath = false ∧ contentsRefused file.contents = false

/-- The digest a corpus is known by. -/
def corpusVersion (schemaJson : String) (files : List CorpusFile) : String :=
  toHexString ⟨suiteV1,
    P.sha256 (corpusPreimage schemaJson cedarEngineVersion (sortByName files))⟩

theorem load_eq_ok_iff {entries : List DirEntry} {pdp : Pdp} :
    load P cedar schemaFile entries = .ok pdp ↔ ∃ schemaJson schema files policies,
      Accepted cedar schemaFile entries schemaJson schema files policies ∧
      pdp = ⟨cedar.engine schema policies, corpusVersion P schemaJson files⟩ := by
  rw [load, mapError_bind_eq_ok_iff]
  constructor
  · rintro ⟨schemaJson, hread, h⟩
    obtain ⟨schema, hschema, h⟩ := mapError_bind_eq_ok_iff.mp h
    obtain ⟨files, hfiles, h⟩ := bind_eq_ok_iff.mp h
    dsimp only at h
    split at h
    · cases h
    · rename_i hne
      obtain ⟨policies, hpolicies, h⟩ := mapError_bind_eq_ok_iff.mp h
      obtain ⟨binding, hbinding, h⟩ := mapError_bind_eq_ok_iff.mp h
      obtain ⟨u, hchecked, hok⟩ := bind_eq_ok_iff.mp hbinding
      obtain rfl := Except.ok.inj hok
      obtain rfl := Except.ok.inj h
      refine ⟨schemaJson, schema, files, policies, ?_, rfl⟩
      refine ⟨hread, hschema, hfiles, ?_, hpolicies, fun file hfile => ?_⟩
      · rintro rfl
        exact hne rfl
      · exact (checkFiles_eq_ok_iff _).mp hchecked file ((List.mem_insertionSort pathLe).mpr hfile)
  · rintro ⟨schemaJson, schema, files, policies, h, rfl⟩
    have hne : ¬ (sortByName files).isEmpty = true := by
      rw [List.isEmpty_iff_length_eq_zero, sortByName, List.length_insertionSort,
        List.length_eq_zero_iff]
      exact h.nonempty
    have hchecked : checkFiles (sortByName files) = .ok () :=
      (checkFiles_eq_ok_iff _).mpr fun file hfile =>
        h.checked file ((List.mem_insertionSort pathLe).mp hfile)
    refine ⟨schemaJson, h.schemaRead, mapError_bind_eq_ok_iff.mpr ⟨schema, h.schema, ?_⟩⟩
    refine bind_eq_ok_iff.mpr ⟨files, h.corpus, ?_⟩
    dsimp only
    rw [if_neg hne]
    refine mapError_bind_eq_ok_iff.mpr ⟨policies, h.policies, ?_⟩
    refine mapError_bind_eq_ok_iff.mpr ⟨_, bind_eq_ok_iff.mpr ⟨(), hchecked, rfl⟩, rfl⟩

end

/-! ## What the corpus keeps of a directory -/

theorem octets_of_toStr {bytes : Bytes} {s : String} (h : toStr bytes = some s) :
    octets s = bytes := by
  rw [toStr, String.fromUTF8?] at h
  split at h
  · rw [← Option.some.inj h]
    change bytes.toByteArray.data.toList = bytes
    simp
  · cases h

/-- Names that are texts are told apart by them, and none is empty. -/
theorem OsName.bytes_eq_of_relative {name name' : OsName} (h : name.relative = name'.relative)
    (hname : toStr name.bytes ≠ none) : name.bytes = name'.bytes := by
  obtain ⟨s, hs⟩ := Option.ne_none_iff_exists'.mp hname
  rw [OsName.relative, OsName.relative, hs, Option.getD_some] at h
  cases hs' : toStr name'.bytes with
  | none =>
      rw [hs', Option.getD_none] at h
      rw [h] at hs
      exact absurd (octets_of_toStr hs).symm name.nonempty
  | some s' =>
      rw [hs', Option.getD_some] at h
      rw [← octets_of_toStr hs, ← octets_of_toStr hs', h]

theorem OsName.length_relative_le (name : OsName) :
    (octets name.relative).length ≤ name.bytes.length := by
  rw [OsName.relative]
  cases hname : toStr name.bytes with
  | none => exact Nat.zero_le _
  | some s =>
      rw [Option.getD_some, octets_of_toStr hname]

theorem readFile_eq_ok_iff {entry : DirEntry} {file : CorpusFile} :
    readFile entry = .ok file ↔ entry.name.relative = file.relativePath ∧
      entry.contents = .ok file.contents := by
  rw [readFile, mapError_bind_eq_ok_iff]
  constructor
  · rintro ⟨contents, hcontents, h⟩
    obtain rfl := Except.ok.inj h
    exact ⟨rfl, hcontents⟩
  · rintro ⟨hrelative, hcontents⟩
    exact ⟨file.contents, hcontents, by rw [hrelative]⟩

/-- The corpus is what the `.cedar` entries hold, one after another. -/
theorem readCorpus_eq_ok_iff : ∀ {entries : List DirEntry} {files : List CorpusFile},
    readCorpus entries = .ok files ↔
      List.Forall₂ (fun entry file => readFile entry = .ok file)
        (entries.filter DirEntry.isCedar) files
  | [], files => by
      rw [readCorpus, List.filter_nil, List.forall₂_nil_left_iff]
      exact ⟨fun h => (Except.ok.inj h).symm, fun h => by rw [h]⟩
  | entry :: rest, files => by
      rw [readCorpus]
      split
      · rename_i hcedar
        rw [List.filter_cons_of_pos hcedar, List.forall₂_cons_left_iff, bind_eq_ok_iff]
        constructor
        · rintro ⟨file, hfile, h⟩
          obtain ⟨files', hrest, h⟩ := bind_eq_ok_iff.mp h
          exact ⟨file, files', hfile, readCorpus_eq_ok_iff.mp hrest, (Except.ok.inj h).symm⟩
        · rintro ⟨file, files', hfile, hrest, rfl⟩
          exact ⟨file, hfile, bind_eq_ok_iff.mpr ⟨files', readCorpus_eq_ok_iff.mpr hrest, rfl⟩⟩
      · rename_i hcedar
        rw [List.filter_cons_of_neg hcedar]
        exact readCorpus_eq_ok_iff

/-- Another order gives the same files, in another order. -/
theorem readCorpus_perm {order order' : List DirEntry} (hp : order.Perm order')
    {files : List CorpusFile} (h : readCorpus order = .ok files) :
    ∃ files', readCorpus order' = .ok files' ∧ files'.Perm files := by
  obtain ⟨files', hread, hp'⟩ := List.perm_comp_forall₂
    (hp.symm.filter DirEntry.isCedar) (readCorpus_eq_ok_iff.mp h)
  exact ⟨files', readCorpus_eq_ok_iff.mpr hread, hp'⟩

/-- Every file of the corpus is what some entry holds. -/
theorem entry_of_mem_files {entries : List DirEntry} {files : List CorpusFile} {file : CorpusFile}
    (h : readCorpus entries = .ok files) (hfile : file ∈ files) :
    ∃ entry ∈ entries, entry.isCedar = true ∧ readFile entry = .ok file := by
  have hall := readCorpus_eq_ok_iff.mp h
  obtain ⟨i, hi, rfl⟩ := List.mem_iff_getElem.mp hfile
  have hi' := hall.length_eq.symm ▸ hi
  have hmem := List.mem_filter.mp (List.getElem_mem hi')
  exact ⟨_, hmem.1, hmem.2, hall.get hi' hi⟩

/-! ## Orders of enumeration -/

/-- A directory: no name twice, and what fits in memory. -/
structure Directory where
  entries : List DirEntry
  names : (entries.map DirEntry.name).Nodup
  countFits : entries.length < 2 ^ 63
  textsFit : ∀ entry ∈ entries, TextFits entry.name.relative ∧
    ∀ contents, entry.contents = .ok contents → TextFits contents

/-- The text of the bundle that `load` parses. -/
def corpusBundle (entries : List DirEntry) : Except PdpLoadError String := do
  let cedarFiles ← readCorpus entries
  .ok (bundle (sortByName cedarFiles))

/-- The `.cedar` files whose names are not texts all hold the same. -/
def Directory.Settled (d : Directory) : Prop :=
  ∀ entry ∈ d.entries, ∀ entry' ∈ d.entries, entry.isCedar = true →
    entry'.isCedar = true → toStr entry.name.bytes = none → toStr entry'.name.bytes = none →
    entry.contents = entry'.contents

/-- Files of one sorting key are one file. -/
theorem file_eq_of_key {d : Directory} (hd : d.Settled) {entry entry' : DirEntry}
    (hentry : entry ∈ d.entries) (hentry' : entry' ∈ d.entries) (hcedar : entry.isCedar = true)
    (hcedar' : entry'.isCedar = true) {file file' : CorpusFile}
    (hfile : readFile entry = .ok file) (hfile' : readFile entry' = .ok file')
    (hkey : file.relativePath = file'.relativePath) : file = file' := by
  obtain ⟨hrelative, hcontents⟩ := readFile_eq_ok_iff.mp hfile
  obtain ⟨hrelative', hcontents'⟩ := readFile_eq_ok_iff.mp hfile'
  have hsame : entry.name.relative = entry'.name.relative := by
    rw [hrelative, hrelative', hkey]
  have hequal : entry.contents = entry'.contents := by
    by_cases hname : toStr entry.name.bytes = none
    · by_cases hname' : toStr entry'.name.bytes = none
      · exact hd entry hentry entry' hentry' hcedar hcedar' hname hname'
      · rw [OsName.bytes_eq_of_relative hsame.symm hname'] at hname'
        exact absurd hname hname'
    · have hbytes := OsName.bytes_eq_of_relative hsame hname
      have hnames : entry.name = entry'.name := by
        cases hn : entry.name
        cases hn' : entry'.name
        rw [hn, hn'] at hbytes
        simpa using hbytes
      rw [List.inj_on_of_nodup_map d.names hentry hentry' hnames]
  rw [hcontents, hcontents'] at hequal
  exact file_injective (Prod.ext hkey (Except.ok.inj hequal))

theorem sortByName_eq {d : Directory} (hd : d.Settled) {order order' : List DirEntry}
    (hp : order.Perm d.entries) (hp' : order'.Perm d.entries) {files files' : List CorpusFile}
    (h : readCorpus order = .ok files) (h' : readCorpus order' = .ok files') :
    sortByName files = sortByName files' := by
  obtain ⟨files'', h'', hperm⟩ := readCorpus_perm (hp.trans hp'.symm) h
  obtain rfl := Except.ok.inj (h'.symm.trans h'')
  refine List.Perm.eq_of_pairwise ?_ (List.pairwise_insertionSort pathLe files)
    (List.pairwise_insertionSort pathLe files') ?_
  · intro file file' hfile hfile' hle hle'
    obtain ⟨entry, hentry, hcedar, hread⟩ :=
      entry_of_mem_files h ((List.mem_insertionSort pathLe).mp hfile)
    obtain ⟨entry', hentry', hcedar', hread'⟩ :=
      entry_of_mem_files h' ((List.mem_insertionSort pathLe).mp hfile')
    exact file_eq_of_key hd (hp.mem_iff.mp hentry) (hp'.mem_iff.mp hentry') hcedar hcedar' hread
      hread' (pathLe_antisymm file file' hle hle')
  · exact (List.perm_insertionSort pathLe files).trans
      (hperm.symm.trans (List.perm_insertionSort pathLe files').symm)

section
variable (P : Primitives) (cedar : CedarLibrary) (schemaFile : Except String String)

/-- Both fail, or both give one version and one bundle. -/
def Agree (order order' : List DirEntry) : Prop :=
  (¬ Succeeds (load P cedar schemaFile order) ∧ ¬ Succeeds (load P cedar schemaFile order')) ∨
  ∃ pdp pdp' text, load P cedar schemaFile order = .ok pdp ∧
    load P cedar schemaFile order' = .ok pdp' ∧ pdp.policyVersion = pdp'.policyVersion ∧
    corpusBundle order = .ok text ∧ corpusBundle order' = .ok text

def OrderIndependent (d : Directory) : Prop :=
  ∀ order order' : List DirEntry, order.Perm d.entries → order'.Perm d.entries →
    Agree P cedar schemaFile order order'

/-- Listed in no order is the directory what `load` asks for. -/
def Refused (d : Directory) : Prop :=
  ∀ order : List DirEntry, order.Perm d.entries → ∀ schemaJson schema files policies,
    ¬ Accepted cedar schemaFile order schemaJson schema files policies

/-- No two pre-images of the directory collide. -/
def CorpusCollisionFree (d : Directory) : Prop :=
  ∀ schemaJson, schemaFile = .ok schemaJson → ∀ order order' : List DirEntry,
    order.Perm d.entries → order'.Perm d.entries → ∀ files files',
    readCorpus order = .ok files → readCorpus order' = .ok files' →
    P.sha256 (corpusPreimage schemaJson cedarEngineVersion (sortByName files)) =
      P.sha256 (corpusPreimage schemaJson cedarEngineVersion (sortByName files')) →
    corpusPreimage schemaJson cedarEngineVersion (sortByName files) =
      corpusPreimage schemaJson cedarEngineVersion (sortByName files')

variable {P cedar schemaFile}

theorem corpusBundle_eq {order : List DirEntry} {files : List CorpusFile}
    (h : readCorpus order = .ok files) :
    corpusBundle order = .ok (bundle (sortByName files)) := by
  rw [corpusBundle, h]
  rfl

theorem not_succeeds_of_refused {d : Directory} (hd : Refused cedar schemaFile d)
    {order : List DirEntry} (hp : order.Perm d.entries) :
    ¬ Succeeds (load P cedar schemaFile order) := by
  rintro ⟨pdp, hload⟩
  obtain ⟨schemaJson, schema, files, policies, haccepted, -⟩ :=
    (load_eq_ok_iff P cedar schemaFile).mp hload
  exact hd order hp schemaJson schema files policies haccepted

/-- What is accepted in one order is accepted in every order, with one sorted corpus. -/
theorem accepted_of_settled {d : Directory} (hd : d.Settled) {order order' : List DirEntry}
    (hp : order.Perm d.entries) (hp' : order'.Perm d.entries) {schemaJson : String}
    {schema : cedar.Schema} {files : List CorpusFile} {policies : cedar.PolicySet}
    (h : Accepted cedar schemaFile order schemaJson schema files policies) :
    ∃ files', Accepted cedar schemaFile order' schemaJson schema files' policies ∧
      sortByName files = sortByName files' := by
  obtain ⟨files', hfiles', hperm⟩ := readCorpus_perm (hp.trans hp'.symm) h.corpus
  have hsorted := sortByName_eq hd hp hp' h.corpus hfiles'
  refine ⟨files', ⟨h.schemaRead, h.schema, hfiles', ?_, ?_, ?_⟩, hsorted⟩
  · exact fun hnil => h.nonempty (List.perm_nil.mp (hnil ▸ hperm.symm))
  · rw [← hsorted]
    exact h.policies
  · exact fun file hfile => h.checked file (hperm.mem_iff.mp hfile)

theorem orderIndependent_of_settled {d : Directory} (hd : d.Settled) :
    OrderIndependent P cedar schemaFile d := by
  intro order order' hp hp'
  by_cases hload : Succeeds (load P cedar schemaFile order)
  · obtain ⟨pdp, hload⟩ := hload
    obtain ⟨schemaJson, schema, files, policies, h, hpdp⟩ :=
      (load_eq_ok_iff P cedar schemaFile).mp hload
    obtain ⟨files', h', hsorted⟩ := accepted_of_settled hd hp hp' h
    refine Or.inr ⟨pdp, _, _, hload, (load_eq_ok_iff P cedar schemaFile).mpr
      ⟨schemaJson, schema, files', policies, h', rfl⟩, ?_, corpusBundle_eq h.corpus, ?_⟩
    · rw [hpdp, corpusVersion, corpusVersion, hsorted]
    · rw [hsorted]
      exact corpusBundle_eq h'.corpus
  · refine Or.inl ⟨hload, fun hload' => hload ?_⟩
    obtain ⟨pdp, hload'⟩ := hload'
    obtain ⟨schemaJson, schema, files, policies, h, -⟩ :=
      (load_eq_ok_iff P cedar schemaFile).mp hload'
    obtain ⟨files', h', -⟩ := accepted_of_settled hd hp' hp h
    exact ⟨_, (load_eq_ok_iff P cedar schemaFile).mpr
      ⟨schemaJson, schema, files', policies, h', rfl⟩⟩

/-! ### Files whose names are not texts -/

/-- Such a file stands first, if it is listed first. -/
theorem sortByName_cons {entry : DirEntry} {rest : List DirEntry} {files : List CorpusFile}
    {contents : String} (hcedar : entry.isCedar = true) (hname : toStr entry.name.bytes = none)
    (hcontents : entry.contents = .ok contents) (h : readCorpus (entry :: rest) = .ok files) :
    ∃ files', sortByName files = ⟨"", contents⟩ :: files' := by
  rw [readCorpus, if_pos hcedar] at h
  obtain ⟨file, hfile, h⟩ := bind_eq_ok_iff.mp h
  obtain ⟨files', -, h⟩ := bind_eq_ok_iff.mp h
  obtain rfl := Except.ok.inj h
  obtain ⟨hrelative, hread⟩ := readFile_eq_ok_iff.mp hfile
  have hempty : file.relativePath = "" := by
    rw [← hrelative, OsName.relative, hname, Option.getD_none]
  have hfile' : file = ⟨"", contents⟩ :=
    file_injective (Prod.ext hempty (Except.ok.inj (hread.symm.trans hcontents)))
  have hfirst : ∀ other ∈ files', pathLe file other := by
    intro other _
    rw [hfile']
    exact List.nil_le _
  refine ⟨sortByName files', ?_⟩
  rw [sortByName, List.insertionSort_cons_of_forall_rel pathLe hfirst, hfile', sortByName]

theorem filesFit_of_readCorpus {d : Directory} {order : List DirEntry} (hp : order.Perm d.entries)
    {files : List CorpusFile} (h : readCorpus order = .ok files) : FilesFit (sortByName files) := by
  constructor
  · have hlength : files.length ≤ order.length := by
      rw [← (readCorpus_eq_ok_iff.mp h).length_eq]
      exact List.length_filter_le _ _
    rw [sortByName, List.length_insertionSort]
    have hcount := d.countFits
    rw [← hp.length_eq] at hcount
    omega
  · intro file hfile
    obtain ⟨entry, hentry, -, hread⟩ :=
      entry_of_mem_files h ((List.mem_insertionSort pathLe).mp hfile)
    obtain ⟨hrelative, hcontents⟩ := readFile_eq_ok_iff.mp hread
    obtain ⟨hname, htext⟩ := d.textsFit entry (hp.mem_iff.mp hentry)
    exact ⟨hrelative ▸ hname, htext _ hcontents⟩

/-- One pre-image is one sorted corpus. -/
theorem sortByName_eq_of_preimage {d : Directory} {order order' : List DirEntry}
    (hp : order.Perm d.entries) (hp' : order'.Perm d.entries) {files files' : List CorpusFile}
    (h : readCorpus order = .ok files) (h' : readCorpus order' = .ok files') {schemaJson : String}
    (heq : corpusPreimage schemaJson cedarEngineVersion (sortByName files) =
      corpusPreimage schemaJson cedarEngineVersion (sortByName files')) :
    sortByName files = sortByName files' := by
  have hsorted : ∀ l : List CorpusFile, (sortByName l).insertionSort pathLe = sortByName l :=
    fun l => (List.pairwise_insertionSort pathLe l).insertionSort_eq
  rw [corpusPreimage, corpusPreimage, hsorted, hsorted] at heq
  have hfiles := List.append_cancel_left heq
  exact (selfDelimiting_files (filesFit_of_readCorpus hp h) (filesFit_of_readCorpus hp' h')
    (congrArg (· ++ []) hfiles)).1

theorem digest_eq_of_corpusVersion {schemaJson : String} {files files' : List CorpusFile}
    (h : corpusVersion P schemaJson files = corpusVersion P schemaJson files') :
    P.sha256 (corpusPreimage schemaJson cedarEngineVersion (sortByName files)) =
      P.sha256 (corpusPreimage schemaJson cedarEngineVersion (sortByName files')) := by
  have hlist := congrArg String.toList h
  simp only [corpusVersion, toHexString, String.toList_append] at hlist
  exact Subtype.ext (hexEncode_injective (String.toList_inj.mp (List.append_cancel_left hlist)))

/-- Where nothing depends on the order, a file of such a name may as well be listed first. -/
theorem listed_first {d : Directory} (hd : OrderIndependent P cedar schemaFile d)
    {order : List DirEntry} (hp : order.Perm d.entries) {schemaJson : String}
    {schema : cedar.Schema} {files : List CorpusFile} {policies : cedar.PolicySet}
    (haccepted : Accepted cedar schemaFile order schemaJson schema files policies)
    {entry : DirEntry} (hentry : entry ∈ d.entries) (hcedar : entry.isCedar = true)
    (hname : toStr entry.name.bytes = none) :
    ∃ order' files' contents rest, order'.Perm d.entries ∧ readCorpus order' = .ok files' ∧
      entry.contents = .ok contents ∧ sortByName files' = ⟨"", contents⟩ :: rest ∧
      corpusVersion P schemaJson files = corpusVersion P schemaJson files' := by
  have hload := (load_eq_ok_iff P cedar schemaFile).mpr
    ⟨schemaJson, schema, files, policies, haccepted, rfl⟩
  obtain ⟨before, after, hsplit⟩ := List.append_of_mem hentry
  have hp' : (entry :: (before ++ after)).Perm d.entries := by
    rw [hsplit]
    exact List.perm_middle.symm
  obtain ⟨hno, -⟩ | ⟨pdp, pdp', text, hpdp, hpdp', hversion, -, -⟩ := hd order _ hp hp'
  · exact absurd ⟨_, hload⟩ hno
  · obtain ⟨schemaJson', schema', files', policies', haccepted', rfl⟩ :=
      (load_eq_ok_iff P cedar schemaFile).mp hpdp'
    obtain rfl := Except.ok.inj (hload.symm.trans hpdp)
    obtain rfl := Except.ok.inj (haccepted.schemaRead.symm.trans haccepted'.schemaRead)
    obtain ⟨contents, hcontents⟩ : ∃ contents, entry.contents = .ok contents := by
      have hread := haccepted'.corpus
      rw [readCorpus, if_pos hcedar] at hread
      obtain ⟨file, hfile, -⟩ := bind_eq_ok_iff.mp hread
      exact ⟨_, (readFile_eq_ok_iff.mp hfile).2⟩
    obtain ⟨rest, hrest⟩ := sortByName_cons hcedar hname hcontents haccepted'.corpus
    exact ⟨_, files', contents, rest, hp', haccepted'.corpus, hcontents, hrest, hversion⟩

/-- **What is loaded does not depend on the order of enumeration exactly when the `.cedar`
files whose names are not UTF-8 all hold the same, or nothing is loaded in any order.** -/
theorem orderIndependent_iff {d : Directory} (hfree : CorpusCollisionFree P schemaFile d) :
    OrderIndependent P cedar schemaFile d ↔ d.Settled ∨ Refused cedar schemaFile d := by
  constructor
  · intro hd
    by_contra hcond
    obtain ⟨hsettled, hrefused⟩ := not_or.mp hcond
    simp only [Refused, not_forall, not_not] at hrefused
    obtain ⟨order, hp, schemaJson, schema, files, policies, haccepted⟩ := hrefused
    refine hsettled fun entry hentry entry' hentry' hcedar hcedar' hname hname' => ?_
    obtain ⟨order₁, files₁, contents₁, rest₁, hp₁, hread₁, hcontents₁, hsorted₁, hversion₁⟩ :=
      listed_first hd hp haccepted hentry hcedar hname
    obtain ⟨order₂, files₂, contents₂, rest₂, hp₂, hread₂, hcontents₂, hsorted₂, hversion₂⟩ :=
      listed_first hd hp haccepted hentry' hcedar' hname'
    have hpreimage := hfree schemaJson haccepted.schemaRead order₁ order₂ hp₁ hp₂ files₁ files₂
      hread₁ hread₂ (digest_eq_of_corpusVersion (hversion₁.symm.trans hversion₂))
    -- one pre-image is one sorted corpus, and the two stand first in it
    have hsame := sortByName_eq_of_preimage hp₁ hp₂ hread₁ hread₂ hpreimage
    rw [hsorted₁, hsorted₂] at hsame
    obtain ⟨hfile, -⟩ := List.cons_eq_cons.mp hsame
    have hcontents : contents₁ = contents₂ := congrArg CorpusFile.contents hfile
    rw [hcontents₁, hcontents₂, hcontents]
  · rintro (hsettled | hrefused)
    · exact orderIndependent_of_settled hsettled
    · exact fun order order' hp hp' =>
        Or.inl ⟨not_succeeds_of_refused hrefused hp, not_succeeds_of_refused hrefused hp'⟩

end

/-! ### Two directories -/

/-- An entry named `b` followed by `.cedar`. -/
def cedarEntry (b : UInt8) (hb : b ∉ [0x2F, 0x00]) (contents : String) : DirEntry where
  name := {
    bytes := b :: octets ".cedar"
    nonempty := List.cons_ne_nil _ _
    noSlash := by
      have hrest : 0x2F ∉ octets ".cedar" := by decide
      rintro (_ | ⟨_, h⟩)
      · exact hb (by decide)
      · exact hrest h
    noNul := by
      have hrest : 0x00 ∉ octets ".cedar" := by decide
      rintro (_ | ⟨_, h⟩)
      · exact hb (by decide)
      · exact hrest h }
  contents := .ok contents

/-- A parser that takes every text. -/
def sampleCedar : CedarLibrary where
  Schema := String
  PolicySet := String
  schemaFromJsonStr := .ok
  parsePolicySet := .ok
  engine := fun _ _ => {
    fromEntities := fun _ => .error ""
    newRequest := fun _ _ _ _ => .error ""
    isAuthorized := fun _ _ => ⟨.deny, []⟩
    annotation := fun _ _ => none }

def permitText : String := "permit(principal, action, resource);"

def forbidText : String := "forbid(principal, action, resource);"

theorem cedarEntry_fits {b : UInt8} {hb : b ∉ [0x2F, 0x00]} {text : String} (h : TextFits text) :
    TextFits (cedarEntry b hb text).name.relative ∧
      ∀ contents, (cedarEntry b hb text).contents = .ok contents → TextFits contents := by
  have hlength : (cedarEntry b hb text).name.bytes.length = 7 := rfl
  have hle := (cedarEntry b hb text).name.length_relative_le
  refine ⟨?_, fun contents hcontents => Except.ok.inj hcontents ▸ h⟩
  rw [TextFits]
  omega

/-- A permit and a forbid. -/
def sampleDirectory (a b : UInt8) (ha : a ∉ [0x2F, 0x00]) (hb : b ∉ [0x2F, 0x00]) (hab : a ≠ b) :
    Directory where
  entries := [cedarEntry a ha permitText, cedarEntry b hb forbidText]
  names := by simp [cedarEntry, hab]
  countFits := by simp
  textsFit := by
    have hpermit : TextFits permitText := by
      rw [TextFits]
      decide +kernel
    have hforbid : TextFits forbidText := by
      rw [TextFits]
      decide +kernel
    rintro entry (_ | ⟨_, _ | ⟨_, h⟩⟩)
    · exact cedarEntry_fits hpermit
    · exact cedarEntry_fits hforbid
    · cases h

/-- `a.cedar` and `b.cedar` -/
def textDirectory : Directory :=
  sampleDirectory 0x61 0x62 (by decide) (by decide) (by decide)

/-- Names that are not UTF-8. -/
def foreignDirectory : Directory :=
  sampleDirectory 0xFE 0xFF (by decide) (by decide) (by decide)

theorem textDirectory_settled : textDirectory.Settled := by
  have hnames : ∀ entry ∈ textDirectory.entries, (toStr entry.name.bytes).isSome = true := by
    decide +kernel
  intro entry hentry _ _ _ _ hname _
  have hsome := hnames entry hentry
  rw [hname] at hsome
  cases hsome

/-- In every order the pre-image is one. -/
theorem textDirectory_collisionFree :
    CorpusCollisionFree .standard (.ok "{}") textDirectory := by
  intro schemaJson _ order order' hp hp' files files' hread hread' _
  rw [sortByName_eq textDirectory_settled hp hp' hread hread']

theorem orderIndependent_iff_textDirectory :
    OrderIndependent .standard sampleCedar (.ok "{}") textDirectory ↔
      textDirectory.Settled ∨ Refused sampleCedar (.ok "{}") textDirectory :=
  orderIndependent_iff textDirectory_collisionFree

/-- Two such files are bundled in the order they are listed in. -/
theorem foreignDirectory_order :
    ¬ OrderIndependent .standard sampleCedar (.ok "{}") foreignDirectory := by
  intro hd
  have hswap := List.Perm.swap (cedarEntry 0xFE (by decide) permitText)
    (cedarEntry 0xFF (by decide) forbidText) []
  obtain ⟨hno, -⟩ | ⟨pdp, pdp', text, -, -, -, htext, htext'⟩ :=
    hd foreignDirectory.entries _ (List.Perm.refl _) hswap
  · have hload : (load .standard sampleCedar (.ok "{}") foreignDirectory.entries).toOption.isSome =
        true := by
      decide +kernel
    cases h : load .standard sampleCedar (.ok "{}") foreignDirectory.entries with
    | error e =>
        rw [h] at hload
        cases hload
    | ok pdp => exact hno ⟨pdp, h⟩
  · have hbundles : (corpusBundle foreignDirectory.entries).toOption ≠
        (corpusBundle foreignDirectory.entries.reverse).toOption := by
      decide +kernel
    refine hbundles ?_
    rw [htext]
    exact (congrArg Except.toOption htext').symm

end ZeroSecret.Policy
