import Mathlib.Data.List.TakeWhile
import Mathlib.Data.List.Forall2
import ZeroSecret.Base.Fallible
import ZeroSecret.Base.LenientBase64

/-!
# The block of assertions

`parseAssertionsBlock` of `apps/console-web/src/server.ts`: one assertion a
line, in standard base64. The reader of buffers takes any text, so what it read
is written anew and compared with the line, padding aside.
-/

namespace ZeroSecret.Console

/-- White space and line ends, which `trim` takes off. -/
def isSpace (u : UInt16) : Bool :=
  let n := u.toNat
  (9 ≤ n && n ≤ 13) || n == 32 || n == 160 || n == 5760 || (8192 ≤ n && n ≤ 8202) || n == 8232 ||
    n == 8233 || n == 8239 || n == 8287 || n == 12288 || n == 65279

def trim (s : CodeUnits) : CodeUnits := ((s.dropWhile isSpace).reverse.dropWhile isSpace).reverse

/-- `split(/\r?\n/)` -/
def splitLines : CodeUnits → List CodeUnits
  | [] => [[]]
  | u :: rest =>
      if u = 10 then [] :: splitLines rest
      else if u = 13 ∧ rest.head? = some 10 then splitLines rest
      else (splitLines rest).modifyHead (u :: ·)

/-- `toString("base64")` -/
def base64Units (bytes : Bytes) : CodeUnits := CodeUnits.ofChars (Base64.encodeChars bytes)

/-- `replace(/=+$/, "")` -/
def withoutPadding (s : CodeUnits) : CodeUnits := (s.reverse.dropWhile (· = 61)).reverse

/-- The class `[A-Za-z0-9+/]`. -/
def isDigit (u : UInt16) : Bool :=
  let n := u.toNat
  (65 ≤ n && n ≤ 90) || (97 ≤ n && n ≤ 122) || (48 ≤ n && n ≤ 57) || n == 43 || n == 47

/-- `/^[A-Za-z0-9+/]+={0,2}$/` -/
def isBase64Line (line : CodeUnits) : Bool :=
  line.takeWhile isDigit ≠ [] && [[], [61], [61, 61]].contains (line.dropWhile isDigit)

/-- One line; the error is the message of the `BadRequest`. -/
def assertionOfLine (line : CodeUnits) : Except String Bytes :=
  if isBase64Line line then
    let decoded := Base64.lenient line
    if withoutPadding (base64Units decoded) = withoutPadding line then .ok decoded
    else .error "assertion_encodee_en_base64_invalide"
  else .error "assertion_encodee_en_base64_invalide"

/-- The lines that are not blank. -/
def linesOf (raw : CodeUnits) : List CodeUnits :=
  ((splitLines raw).map trim).filter fun line => 0 < line.length

def parseAssertionsBlock (raw : CodeUnits) : Except String (List Bytes) :=
  let lines := linesOf raw
  if lines.length = 0 then .error "champ_manquant_ou_invalide:assertions"
  else lines.mapM assertionOfLine

/-! ## Lines -/

/-- The digits of the octets, without padding. -/
def digitUnits (bytes : Bytes) : CodeUnits :=
  CodeUnits.ofChars ((Base64.sixes bytes).map Base64.digit)

/-- A line spells octets: their digits and up to two paddings. -/
def Spells (line : CodeUnits) (bytes : Bytes) : Prop :=
  bytes ≠ [] ∧ ∃ padding ≤ 2, line = digitUnits bytes ++ List.replicate padding 61

theorem isDigit_digit : ∀ n < 64, isDigit (UInt16.ofNat (Base64.digit n).toNat) = true := by
  decide

theorem isDigit_of_mem {bytes : Bytes} {u : UInt16} (h : u ∈ digitUnits bytes) :
    isDigit u = true := by
  obtain ⟨c, hc, rfl⟩ := List.mem_map.mp h
  obtain ⟨n, hn, rfl⟩ := List.mem_map.mp hc
  exact isDigit_digit n (Base64.sixes_lt hn)

theorem digitUnits_eq_nil_iff {bytes : Bytes} : digitUnits bytes = [] ↔ bytes = [] := by
  constructor
  · intro h
    by_contra hne
    have hsixes := Base64.sixes_ne_nil hne
    rw [digitUnits, CodeUnits.ofChars, List.map_map, List.map_eq_nil_iff] at h
    exact hsixes h
  · rintro rfl
    rfl

theorem base64Units_eq (bytes : Bytes) :
    base64Units bytes = digitUnits bytes ++ List.replicate (Base64.paddingLength bytes) 61 := by
  rw [base64Units, Base64.encodeChars_eq, CodeUnits.ofChars, List.map_append, List.map_replicate]
  rfl

/-- What is written for octets spells them. -/
theorem spells_base64Units {bytes : Bytes} (h : bytes ≠ []) : Spells (base64Units bytes) bytes :=
  ⟨h, _, Base64.paddingLength_le bytes, base64Units_eq bytes⟩

theorem withoutPadding_append {digits : CodeUnits} (h : ∀ u ∈ digits, isDigit u = true)
    (padding : Nat) : withoutPadding (digits ++ List.replicate padding 61) = digits := by
  have hkept : digits.reverse.dropWhile (· = 61) = digits.reverse := by
    rw [List.dropWhile_eq_self_iff]
    intro hlen hpad
    have hmem := h _ (List.mem_reverse.mp (List.getElem_mem hlen))
    rw [of_decide_eq_true hpad] at hmem
    exact absurd hmem (by decide)
  have hpads : ∀ u ∈ List.replicate padding (61 : UInt16), decide (u = 61) = true :=
    fun u hu => decide_eq_true (List.eq_of_mem_replicate hu)
  rw [withoutPadding, List.reverse_append, List.reverse_replicate,
    List.dropWhile_append_of_pos hpads, hkept, List.reverse_reverse]

theorem paddings_iff {rest : CodeUnits} :
    [[], [61], [61, 61]].contains rest = true ↔ ∃ padding ≤ 2, rest = List.replicate padding 61 := by
  rw [List.contains_iff_mem]
  constructor
  · intro h
    rcases List.mem_cons.mp h with rfl | h
    · exact ⟨0, Nat.zero_le 2, rfl⟩
    rcases List.mem_cons.mp h with rfl | h
    · exact ⟨1, Nat.le_succ 1, rfl⟩
    · exact ⟨2, Nat.le_refl 2, List.mem_singleton.mp h⟩
  · rintro ⟨padding, hle, rfl⟩
    have hcases : ∀ n ≤ 2, List.replicate n (61 : UInt16) ∈ [[], [61], [61, 61]] := by decide
    exact hcases padding hle

/-- The expression matches digits and up to two paddings. -/
theorem isBase64Line_iff {line : CodeUnits} : isBase64Line line = true ↔
    ∃ digits, digits ≠ [] ∧ (∀ u ∈ digits, isDigit u = true) ∧
      ∃ padding ≤ 2, line = digits ++ List.replicate padding 61 := by
  rw [isBase64Line, Bool.and_eq_true, decide_eq_true_eq, paddings_iff]
  constructor
  · rintro ⟨hne, padding, hle, hrest⟩
    refine ⟨_, hne, fun u hu => List.mem_takeWhile_imp hu, padding, hle, ?_⟩
    rw [← hrest, List.takeWhile_append_dropWhile]
  · rintro ⟨digits, hne, hdigits, padding, hle, rfl⟩
    have hstop : (List.replicate padding (61 : UInt16)).takeWhile isDigit = [] := by
      cases padding with
      | zero => rfl
      | succ padding => rfl
    have htake : (digits ++ List.replicate padding 61).takeWhile isDigit = digits := by
      rw [List.takeWhile_append_of_pos hdigits, hstop, List.append_nil]
    have hdrop : (digits ++ List.replicate padding 61).dropWhile isDigit =
        List.replicate padding 61 := by
      have hsplit := List.takeWhile_append_dropWhile (p := isDigit)
        (l := digits ++ List.replicate padding 61)
      rw [htake] at hsplit
      exact List.append_cancel_left hsplit
    rw [htake, hdrop]
    exact ⟨hne, padding, hle, rfl⟩

/-- **A line is accepted exactly as a spelling of the octets it is read as.** -/
theorem assertionOfLine_eq_ok_iff {line : CodeUnits} {bytes : Bytes} :
    assertionOfLine line = .ok bytes ↔ Spells line bytes := by
  have hdigits : ∀ bytes : Bytes, withoutPadding (base64Units bytes) = digitUnits bytes := by
    intro bytes
    rw [base64Units_eq, withoutPadding_append fun u hu => isDigit_of_mem hu]
  constructor
  · intro h
    unfold assertionOfLine at h
    split at h
    · rename_i hline
      obtain ⟨digits, hne, hall, padding, hle, rfl⟩ := isBase64Line_iff.mp hline
      dsimp only at h
      rw [hdigits, withoutPadding_append hall] at h
      split at h
      · rename_i hsame
        obtain rfl := Except.ok.inj h
        refine ⟨?_, padding, hle, by rw [hsame]⟩
        intro hnil
        apply hne
        rw [← hsame, digitUnits_eq_nil_iff]
        exact hnil
      · cases h
    · cases h
  · rintro ⟨hne, padding, hle, rfl⟩
    have hline : isBase64Line (digitUnits bytes ++ List.replicate padding 61) = true :=
      isBase64Line_iff.mpr ⟨_, mt digitUnits_eq_nil_iff.mp hne, fun u hu => isDigit_of_mem hu,
        padding, hle, rfl⟩
    have hread : Base64.lenient (digitUnits bytes ++ List.replicate padding 61) = bytes :=
      Base64.lenient_digits bytes padding
    rw [assertionOfLine, if_pos hline, hread]
    refine if_pos ?_
    rw [hdigits, withoutPadding_append fun u hu => isDigit_of_mem hu]

/-! ## The block -/

theorem mapM_eq_ok_iff_forall₂ {lines : List CodeUnits} {assertions : List Bytes} :
    lines.mapM assertionOfLine = .ok assertions ↔ List.Forall₂ Spells lines assertions := by
  induction lines generalizing assertions with
  | nil =>
      rw [List.mapM_nil, List.forall₂_nil_left_iff]
      exact ⟨fun h => (Except.ok.inj h).symm, fun h => congrArg Except.ok h.symm⟩
  | cons line lines ih =>
      rw [List.mapM_cons, Fallible.bind_eq_ok_iff, List.forall₂_cons_left_iff]
      constructor
      · rintro ⟨bytes, hbytes, h⟩
        obtain ⟨rest, hrest, h⟩ := Fallible.bind_eq_ok_iff.mp h
        exact ⟨bytes, rest, assertionOfLine_eq_ok_iff.mp hbytes, ih.mp hrest,
          (Except.ok.inj h).symm⟩
      · rintro ⟨bytes, rest, hbytes, hrest, rfl⟩
        refine ⟨bytes, assertionOfLine_eq_ok_iff.mpr hbytes, ?_⟩
        exact Fallible.bind_eq_ok_iff.mpr ⟨rest, ih.mpr hrest, rfl⟩

theorem parseAssertionsBlock_eq_ok_iff {raw : CodeUnits} {assertions : List Bytes} :
    parseAssertionsBlock raw = .ok assertions ↔
      assertions ≠ [] ∧ List.Forall₂ Spells (linesOf raw) assertions := by
  unfold parseAssertionsBlock
  dsimp only
  split
  · rename_i hnone
    have hnil : linesOf raw = [] := List.length_eq_zero_iff.mp hnone
    constructor
    · exact nofun
    · rintro ⟨hne, hspells⟩
      rw [hnil, List.forall₂_nil_left_iff] at hspells
      exact absurd hspells hne
  · rename_i hsome
    rw [mapM_eq_ok_iff_forall₂]
    refine ⟨fun h => ⟨?_, h⟩, And.right⟩
    rintro rfl
    rw [List.forall₂_nil_right_iff] at h
    exact hsome (List.length_eq_zero_iff.mpr h)

/-- What ends a line of a form. -/
def lineEnds : List CodeUnits := [[10], [13, 10]]

theorem splitLines_line {line : CodeUnits} (h : ∀ u ∈ line, u ≠ 10 ∧ u ≠ 13) :
    splitLines line = [line] := by
  induction line with
  | nil => rfl
  | cons u line ih =>
      obtain ⟨hfeed, hreturn⟩ := h u List.mem_cons_self
      rw [splitLines, if_neg hfeed, if_neg fun hu => hreturn hu.1,
        ih fun v hv => h v (List.mem_cons_of_mem u hv)]
      rfl

theorem splitLines_append {line lineEnd : CodeUnits} (h : ∀ u ∈ line, u ≠ 10 ∧ u ≠ 13)
    (hend : lineEnd ∈ lineEnds) (rest : CodeUnits) :
    splitLines (line ++ lineEnd ++ rest) = line :: splitLines rest := by
  induction line with
  | nil =>
      rcases List.mem_cons.mp hend with rfl | hend
      · rw [List.nil_append, List.singleton_append, splitLines, if_pos rfl]
      · rw [List.mem_singleton.mp hend]
        have hreturn : ¬ (13 : UInt16) = 10 := by decide
        have hnext : (13 : UInt16) = 13 ∧ (10 :: rest).head? = some 10 := ⟨rfl, rfl⟩
        change splitLines (13 :: 10 :: rest) = _
        rw [splitLines, if_neg hreturn, if_pos hnext, splitLines, if_pos rfl]
  | cons u line ih =>
      obtain ⟨hfeed, hreturn⟩ := h u List.mem_cons_self
      have hrest := ih fun v hv => h v (List.mem_cons_of_mem u hv)
      rw [List.cons_append, List.cons_append, splitLines, if_neg hfeed,
        if_neg fun hu => hreturn hu.1, hrest]
      rfl

/-- Lines that are written one after the other are read one by one. -/
theorem splitLines_intercalate {lineEnd : CodeUnits} (hend : lineEnd ∈ lineEnds) :
    ∀ {lines : List CodeUnits}, lines ≠ [] → (∀ line ∈ lines, ∀ u ∈ line, u ≠ 10 ∧ u ≠ 13) →
      splitLines (lineEnd.intercalate lines) = lines
  | [], hne, _ => absurd rfl hne
  | [line], _, h => by
      rw [List.intercalate_singleton]
      exact splitLines_line (h line List.mem_cons_self)
  | line :: next :: lines, _, h => by
      have hrest := splitLines_intercalate hend (List.cons_ne_nil next lines)
        fun l hl => h l (List.mem_cons_of_mem line hl)
      rw [List.intercalate_cons_cons, splitLines_append (h line List.mem_cons_self) hend, hrest]

theorem trim_eq_self {line : CodeUnits} (h : ∀ u ∈ line, isSpace u = false) : trim line = line := by
  have hkept : ∀ s : CodeUnits, (∀ u ∈ s, isSpace u = false) → s.dropWhile isSpace = s := by
    intro s hs
    rw [List.dropWhile_eq_self_iff]
    intro hlen hspace
    rw [hs _ (List.getElem_mem hlen)] at hspace
    exact Bool.noConfusion hspace
  rw [trim, hkept line h, hkept _ fun u hu => h u (List.mem_reverse.mp hu), List.reverse_reverse]

/-- A unit of a spelling: a digit or a padding. -/
theorem unit_of_spells {line : CodeUnits} {bytes : Bytes} (h : Spells line bytes) {u : UInt16}
    (hu : u ∈ line) : isSpace u = false ∧ u ≠ 10 ∧ u ≠ 13 := by
  have hdigits : ∀ n < 64, isSpace (UInt16.ofNat (Base64.digit n).toNat) = false ∧
      UInt16.ofNat (Base64.digit n).toNat ≠ 10 ∧ UInt16.ofNat (Base64.digit n).toNat ≠ 13 := by
    decide
  obtain ⟨-, padding, -, rfl⟩ := h
  rcases List.mem_append.mp hu with hu | hu
  · obtain ⟨c, hc, rfl⟩ := List.mem_map.mp hu
    obtain ⟨n, hn, rfl⟩ := List.mem_map.mp hc
    exact hdigits n (Base64.sixes_lt hn)
  · rw [List.eq_of_mem_replicate hu]
    decide

theorem exists_spells {lines : List CodeUnits} {assertions : List Bytes}
    (h : List.Forall₂ Spells lines assertions) {line : CodeUnits} (hline : line ∈ lines) :
    ∃ bytes, Spells line bytes := by
  induction h with
  | nil => cases hline
  | cons hspells _ ih =>
      rcases List.mem_cons.mp hline with rfl | hline
      · exact ⟨_, hspells⟩
      · exact ih hline

/-- Lines that spell assertions, one after the other, are what the block consists of. -/
theorem linesOf_intercalate {lineEnd : CodeUnits} (hend : lineEnd ∈ lineEnds)
    {lines : List CodeUnits} {assertions : List Bytes} (hne : lines ≠ [])
    (h : List.Forall₂ Spells lines assertions) : linesOf (lineEnd.intercalate lines) = lines := by
  have hunits : ∀ line ∈ lines, ∀ u ∈ line, isSpace u = false ∧ u ≠ 10 ∧ u ≠ 13 := by
    intro line hline u hu
    obtain ⟨bytes, hspells⟩ := exists_spells h hline
    exact unit_of_spells hspells hu
  have htrim : lines.map trim = lines := by
    nth_rewrite 2 [← List.map_id lines]
    apply List.map_congr_left
    intro line hline
    exact trim_eq_self fun u hu => (hunits line hline u hu).1
  rw [linesOf, splitLines_intercalate hend hne fun line hline u hu => (hunits line hline u hu).2,
    htrim, List.filter_eq_self]
  intro line hline
  obtain ⟨bytes, hbytes, padding, -, rfl⟩ := exists_spells h hline
  have hdigits : digitUnits bytes ≠ [] := mt digitUnits_eq_nil_iff.mp hbytes
  rw [decide_eq_true_eq, List.length_append]
  exact Nat.add_pos_left (List.length_pos_iff.mpr hdigits) _

/-- **The block is read as the octets its lines spell, and as no others.** Octets that are
none empty come back from the text that is written for them, whichever way its lines end. -/
theorem assertions_read (raw : CodeUnits) (assertions : List Bytes) :
    (parseAssertionsBlock raw = .ok assertions ↔
      assertions ≠ [] ∧ List.Forall₂ Spells (linesOf raw) assertions) ∧
    ∀ lineEnd ∈ lineEnds, assertions ≠ [] → (∀ bytes ∈ assertions, bytes ≠ []) →
      parseAssertionsBlock (lineEnd.intercalate (assertions.map base64Units)) = .ok assertions := by
  refine ⟨parseAssertionsBlock_eq_ok_iff, ?_⟩
  intro lineEnd hend hne hbytes
  have hspells : List.Forall₂ Spells (assertions.map base64Units) assertions := by
    rw [List.forall₂_map_left_iff, List.forall₂_same]
    exact fun bytes hmem => spells_base64Units (hbytes bytes hmem)
  refine parseAssertionsBlock_eq_ok_iff.mpr ⟨hne, ?_⟩
  rw [linesOf_intercalate hend (mt List.map_eq_nil_iff.mp hne) hspells]
  exact hspells

end ZeroSecret.Console
