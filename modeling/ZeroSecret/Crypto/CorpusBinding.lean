import ZeroSecret.Base.Fallible
import ZeroSecret.Base.Framing
import ZeroSecret.Crypto.CanonicalForm
import ZeroSecret.Crypto.DecisionBinding

/-!
# `zs-crypto/src/decision_binding.rs`: the digest of a policy corpus

The schema, the engine version and the files, sorted by path, are written one
after another, each behind its length. What is hashed is the corpus: it does
not see the order the files came in, and it sees everything else, whatever the
files contain.
-/

namespace ZeroSecret.Crypto

open Fallible (bind_eq_ok_iff)

structure CorpusFile where
  relativePath : String
  contents : String
deriving DecidableEq

inductive CorpusBindingError where
  | invalidEncoding (path : String)
  | invalidPath (path : String)
deriving DecidableEq

def CorpusBindingError.toString : CorpusBindingError → String
  | .invalidEncoding path => "fichier de corpus non-UTF-8 ou porteur d'un BOM : '" ++ path ++ "'"
  | .invalidPath path => "chemin de corpus non normalisé (contient '\\\\' ou n'est pas relatif) : '" ++
      path ++ "'"

namespace DecisionBinding

/-- `contains('\\') || starts_with('/')`. -/
def pathRefused (path : String) : Bool :=
  path.toList.contains '\\' || path.toList.head? == some '/'

/-- `starts_with('\u{FEFF}')`. -/
def contentsRefused (contents : String) : Bool := contents.toList.head? == some '\uFEFF'

/-- The body of the first loop. -/
def checkFile (file : CorpusFile) : Except CorpusBindingError Unit :=
  if pathRefused file.relativePath then .error (.invalidPath file.relativePath)
  else if contentsRefused file.contents then .error (.invalidEncoding file.relativePath)
  else .ok ()

def checkFiles : List CorpusFile → Except CorpusBindingError Unit
  | [] => .ok ()
  | file :: files => do
      checkFile file
      checkFiles files

/-- Octet order of the paths. -/
def pathLe (a b : CorpusFile) : Prop := bytesLe a.relativePath b.relativePath

instance : DecidableRel pathLe := fun a b =>
  inferInstanceAs (Decidable (bytesLe a.relativePath b.relativePath))

/-- `(s.len() as u64).to_be_bytes()`, then the octets. -/
def lengthPrefixed (s : String) : Bytes := Framing.framed 8 (octets s)

/-- What one file adds to the message. -/
def fileOctets (file : CorpusFile) : Bytes :=
  lengthPrefixed file.relativePath ++ lengthPrefixed file.contents

/-- The octets `bind_policy_corpus` hashes. `sort_unstable_by` leaves open the
order of equal paths; with distinct paths every sort gives this one. -/
def corpusPreimage (schema cedarEngineVersion : String) (files : List CorpusFile) : Bytes :=
  octets (suiteV1 ++ "/policy-corpus\x00") ++
  octets ("cedar-policy=" ++ cedarEngineVersion ++ "\x00") ++
  lengthPrefixed schema ++
  (BigEndian.write 8 (files.insertionSort pathLe).length ++
    (files.insertionSort pathLe).flatMap fileOctets)

def bindPolicyCorpus (P : Primitives) (schema cedarEngineVersion : String)
    (files : List CorpusFile) : Except CorpusBindingError DecisionBinding := do
  checkFiles files
  .ok ⟨suiteV1, P.sha256 (corpusPreimage schema cedarEngineVersion files)⟩

/-! ## What is refused -/

theorem checkFile_eq_ok_iff (file : CorpusFile) :
    checkFile file = .ok () ↔
      pathRefused file.relativePath = false ∧ contentsRefused file.contents = false := by
  unfold checkFile
  by_cases hp : pathRefused file.relativePath = true
  · simp [hp]
  · by_cases hc : contentsRefused file.contents = true
    · simp [hp, hc]
    · simp [hp, hc]

theorem checkFiles_eq_ok_iff (files : List CorpusFile) :
    checkFiles files = .ok () ↔ ∀ file ∈ files,
      pathRefused file.relativePath = false ∧ contentsRefused file.contents = false := by
  induction files with
  | nil => simp [checkFiles]
  | cons file files ih =>
      rw [checkFiles, bind_eq_ok_iff, List.forall_mem_cons, ← ih, ← checkFile_eq_ok_iff]
      constructor
      · rintro ⟨u, hfile, hfiles⟩
        exact ⟨hfile, hfiles⟩
      · rintro ⟨hfile, hfiles⟩
        exact ⟨(), hfile, hfiles⟩

/-- A path the corpus refuses, in words. -/
theorem pathRefused_iff (path : String) :
    pathRefused path = true ↔ '\\' ∈ path.toList ∨ path.toList.head? = some '/' := by
  simp [pathRefused]

theorem contentsRefused_iff (contents : String) :
    contentsRefused contents = true ↔ contents.toList.head? = some '\uFEFF' := by
  simp [contentsRefused]

theorem bindPolicyCorpus_error_iff (P : Primitives) (schema version : String)
    (files : List CorpusFile) :
    (∃ e, bindPolicyCorpus P schema version files = .error e) ↔ ∃ file ∈ files,
      '\\' ∈ file.relativePath.toList ∨ file.relativePath.toList.head? = some '/' ∨
        file.contents.toList.head? = some '\uFEFF' := by
  have hrefused : (∃ e, bindPolicyCorpus P schema version files = .error e) ↔
      ¬ checkFiles files = .ok () := by
    unfold bindPolicyCorpus
    cases checkFiles files with
    | error e => simp [Fallible.error_bind]
    | ok u => simp [Fallible.ok_bind]
  rw [hrefused, checkFiles_eq_ok_iff]
  simp only [not_forall, exists_prop, not_and_or, Bool.not_eq_false, pathRefused_iff,
    contentsRefused_iff, or_assoc]

/-! ## The files -/

instance : Std.Total pathLe :=
  ⟨fun a b => List.le_total (octets a.relativePath) (octets b.relativePath)⟩

instance : IsTrans CorpusFile pathLe := ⟨fun _ _ _ h h' => List.le_trans h h'⟩

theorem pathLe_antisymm (a b : CorpusFile) (h : pathLe a b) (h' : pathLe b a) :
    a.relativePath = b.relativePath :=
  octets_injective (List.le_antisymm h h')

theorem file_injective :
    Function.Injective fun f : CorpusFile => (f.relativePath, f.contents) := by
  rintro ⟨p, c⟩ ⟨p', c'⟩ h
  obtain ⟨rfl, rfl⟩ := Prod.mk.inj h
  rfl

/-- The contents of the file at a path. -/
def contentsAt (files : List CorpusFile) (path : String) : Option String :=
  (files.map fun f => (f.relativePath, f.contents)).lookup path

theorem perm_iff_contentsAt {files files' : List CorpusFile}
    (hn : (files.map CorpusFile.relativePath).Nodup)
    (hn' : (files'.map CorpusFile.relativePath).Nodup) :
    files.Perm files' ↔ ∀ path, contentsAt files path = contentsAt files' path := by
  have hkeys : ∀ l : List CorpusFile,
      (l.map fun f => (f.relativePath, f.contents)).map Prod.fst =
        l.map CorpusFile.relativePath := fun l => List.map_map
  rw [← List.map_perm_map_iff file_injective]
  exact KeyOrder.perm_iff_lookup (by rwa [hkeys]) (by rwa [hkeys])

/-! ## What the pre-image keeps -/

/-- What fits in memory: a text has fewer than `2 ^ 63` octets, a slice of
files fewer than `2 ^ 63` of them. -/
def TextFits (s : String) : Prop := (octets s).length < 2 ^ 63

instance (s : String) : Decidable (TextFits s) := Nat.decLt _ _

def FilesFit (files : List CorpusFile) : Prop :=
  files.length < 2 ^ 63 ∧ ∀ f ∈ files, TextFits f.relativePath ∧ TextFits f.contents

theorem selfDelimiting_lengthPrefixed : Framing.SelfDelimiting TextFits lengthPrefixed := by
  intro s t hs ht x y h
  have hbound : ∀ {u : String}, TextFits u → (octets u).length < 256 ^ 8 := by
    intro u hu
    exact lt_trans hu (by norm_num)
  obtain ⟨hst, hxy⟩ := Framing.selfDelimiting_framed 8 (hbound hs) (hbound ht) h
  exact ⟨octets_injective hst, hxy⟩

theorem selfDelimiting_fileOctets :
    Framing.SelfDelimiting (fun f => TextFits f.relativePath ∧ TextFits f.contents)
      fileOctets := by
  have hpair := selfDelimiting_lengthPrefixed.pair selfDelimiting_lengthPrefixed
  exact hpair.comp file_injective

theorem selfDelimiting_files : Framing.SelfDelimiting FilesFit
    (fun files => BigEndian.write 8 files.length ++ files.flatMap fileOctets) := by
  intro files files' hf hf' x y h
  have hbound : ∀ {l : List CorpusFile}, FilesFit l → l.length < 256 ^ 8 := by
    intro l hl
    exact lt_trans hl.1 (by norm_num)
  exact selfDelimiting_fileOctets.counted 8 ⟨hbound hf, hf.2⟩ ⟨hbound hf', hf'.2⟩ h

/-- No octet of another character is NUL. -/
theorem eq_nul_of_zero_mem {c : Char} (h : 0x00 ∈ String.utf8EncodeChar c) : c = '\x00' := by
  have hzero : (0x00 : UInt8).toNat = 0 := rfl
  rw [String.utf8EncodeChar.eq_def] at h
  dsimp only at h
  split at h
  · have hval : c.val.toNat = 0 := by
      rw [List.mem_singleton, ← UInt8.toNat_inj, UInt8.toNat_ofNat'] at h
      omega
    exact Char.ext (UInt32.toNat_inj.mp hval)
  · exfalso
    split at h
    · simp only [List.mem_cons, List.not_mem_nil, or_false, ← UInt8.toNat_inj,
        UInt8.toNat_ofNat'] at h
      omega
    · split at h
      all_goals
        simp only [List.mem_cons, List.not_mem_nil, or_false, ← UInt8.toNat_inj,
          UInt8.toNat_ofNat'] at h
        omega

theorem zero_notMem_octets {s : String} (h : '\x00' ∉ s.toList) : 0x00 ∉ octets s := by
  rw [octets_eq_utf8]
  intro hz
  obtain ⟨c, hc, hz⟩ := List.mem_flatMap.mp hz
  rw [eq_nul_of_zero_mem hz] at hc
  exact h hc

theorem octets_append (s t : String) : octets (s ++ t) = octets s ++ octets t := by
  rw [octets_eq_utf8, octets_eq_utf8, octets_eq_utf8, String.toList_append, Json.utf8_append]

end DecisionBinding

open DecisionBinding

/-- What a corpus is bound from: an engine version without NUL, files at
distinct paths, and sizes that fit in memory. -/
structure PolicyCorpus where
  schema : String
  cedarEngineVersion : String
  files : List CorpusFile
  noNul : '\x00' ∉ cedarEngineVersion.toList
  paths : (files.map CorpusFile.relativePath).Nodup
  schemaFits : TextFits schema
  filesFit : FilesFit files

namespace PolicyCorpus

def preimage (c : PolicyCorpus) : Bytes :=
  corpusPreimage c.schema c.cedarEngineVersion c.files

def bind (P : Primitives) (c : PolicyCorpus) : Except CorpusBindingError DecisionBinding :=
  bindPolicyCorpus P c.schema c.cedarEngineVersion c.files

theorem insertionSort_fits (c : PolicyCorpus) : FilesFit (c.files.insertionSort pathLe) := by
  refine ⟨?_, fun f hf => c.filesFit.2 f ((List.mem_insertionSort pathLe).mp hf)⟩
  rw [List.length_insertionSort]
  exact c.filesFit.1

/-- **The pre-image is the schema, the version and the files up to order.** -/
theorem preimage_eq_iff (c c' : PolicyCorpus) :
    c.preimage = c'.preimage ↔ c.schema = c'.schema ∧
      c.cedarEngineVersion = c'.cedarEngineVersion ∧ c.files.Perm c'.files := by
  constructor
  · intro h
    simp only [preimage, corpusPreimage, List.append_assoc, octets_append] at h
    have hversion := List.append_cancel_left (List.append_cancel_left (List.append_cancel_left h))
    have hzero : octets "\x00" = [0x00] := by decide
    rw [hzero, ← List.append_assoc (octets c.cedarEngineVersion),
      ← List.append_assoc (octets c'.cedarEngineVersion)] at hversion
    obtain ⟨hv, hrest⟩ := Framing.terminated 0x00 (zero_notMem_octets c.noNul)
      (zero_notMem_octets c'.noNul) hversion
    obtain ⟨hs, hfiles⟩ := selfDelimiting_lengthPrefixed c.schemaFits c'.schemaFits hrest
    have hfiles' := selfDelimiting_files c.insertionSort_fits c'.insertionSort_fits
      (congrArg (· ++ []) hfiles)
    exact ⟨hs, octets_injective hv,
      (KeyOrder.insertionSort_eq_iff_perm pathLe_antisymm c.paths).mp hfiles'.1⟩
  · rintro ⟨hs, hv, hp⟩
    have hsorted := (KeyOrder.insertionSort_eq_iff_perm pathLe_antisymm c.paths).mpr hp
    rw [preimage, preimage, corpusPreimage, corpusPreimage, hs, hv, hsorted]

/-- **`bind_policy_corpus` identifies the corpus.** The octets it hashes do
not see the order of the files; two corpora have the same octets exactly when
they have one schema, one engine version and the same contents at every path;
the call fails exactly when some path holds a backslash or starts with `/`, or
some contents start with a byte-order mark, and otherwise hashes those
octets. -/
theorem bindPolicyCorpus_identifies (P : Primitives) (c c' : PolicyCorpus) :
    (∀ files : List CorpusFile, files.Perm c.files →
      corpusPreimage c.schema c.cedarEngineVersion files = c.preimage) ∧
    (c.preimage = c'.preimage ↔ c.schema = c'.schema ∧
      c.cedarEngineVersion = c'.cedarEngineVersion ∧
      ∀ path, contentsAt c.files path = contentsAt c'.files path) ∧
    ((∃ e, c.bind P = .error e) ↔ ∃ file ∈ c.files,
      '\\' ∈ file.relativePath.toList ∨ file.relativePath.toList.head? = some '/' ∨
        file.contents.toList.head? = some '\uFEFF') ∧
    (∀ b, c.bind P = .ok b → b = ⟨suiteV1, P.sha256 c.preimage⟩) := by
  refine ⟨?_, ?_, bindPolicyCorpus_error_iff P _ _ _, ?_⟩
  · intro files hp
    have hsorted := (KeyOrder.insertionSort_eq_iff_perm pathLe_antisymm c.paths).mpr hp.symm
    rw [preimage, corpusPreimage, corpusPreimage, hsorted]
  · rw [preimage_eq_iff, perm_iff_contentsAt c.paths c'.paths]
  · intro b hb
    obtain ⟨u, -, hok⟩ := bind_eq_ok_iff.mp hb
    exact (Except.ok.inj hok).symm

def connectFile : CorpusFile := ⟨"access/db_connect.cedar", "permit (principal, action, resource);"⟩

def guardrailFile : CorpusFile := ⟨"access/guardrails.cedar", "forbid (principal, action, resource);"⟩

theorem sampleFilesFit : FilesFit [connectFile, guardrailFile] := by
  refine ⟨by decide, fun f hf => ?_⟩
  rcases List.mem_pair.mp hf with rfl | rfl
  · exact ⟨by decide +kernel, by decide +kernel⟩
  · exact ⟨by decide +kernel, by decide +kernel⟩

/-- A permission and the guardrail over it. -/
def sampleCorpus : PolicyCorpus where
  schema := "namespace ZeroSecret {}"
  cedarEngineVersion := "4.12.0"
  files := [connectFile, guardrailFile]
  noNul := by decide
  paths := by decide
  schemaFits := by decide +kernel
  filesFit := sampleFilesFit

/-- Its files in the other order are bound to the same octets, and it is bound. -/
theorem bindPolicyCorpus_identifies_sample :
    corpusPreimage "namespace ZeroSecret {}" "4.12.0" [guardrailFile, connectFile] =
        sampleCorpus.preimage ∧
      ¬ ∃ e, sampleCorpus.bind .standard = .error e := by
  obtain ⟨hperm, -, herror, -⟩ := bindPolicyCorpus_identifies .standard sampleCorpus sampleCorpus
  refine ⟨hperm _ (List.Perm.swap connectFile guardrailFile []), ?_⟩
  rw [herror]
  rintro ⟨file, hfile, h⟩
  have haccepted : ∀ file ∈ [connectFile, guardrailFile],
      ¬ ('\\' ∈ file.relativePath.toList ∨ file.relativePath.toList.head? = some '/' ∨
        file.contents.toList.head? = some '\uFEFF') := by decide
  exact haccepted file hfile h

end PolicyCorpus

end ZeroSecret.Crypto
