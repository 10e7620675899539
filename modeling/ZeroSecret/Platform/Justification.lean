import ZeroSecret.Platform.Exemption

/-!
# What a valid justification carries

Read without the patterns. The documented form asks for a reference to a
decision record and for one marker `reexamen=AAAA-MM-JJ` in the whole text, of
a day after the evaluation and at most 366 days after it. The pattern reads
only some of the markers of that form, and the code counts those it reads.
-/

namespace ZeroSecret.Platform

open Rego Calendar

/-- `ADR-nnn`, somewhere. -/
def CarriesAdr (text : List Char) : Prop :=
  ∃ before number after, text = before ++ ['A', 'D', 'R', '-'] ++ number ++ after ∧
    number.length = 3 ∧ ∀ c ∈ number, c ∈ digits

def reviewKey : List Char := ['r', 'e', 'e', 'x', 'a', 'm', 'e', 'n', '=']

/-- `AAAA-MM-JJ`, whatever the digits. -/
def DateForm (word : List Char) : Prop :=
  ∃ y m d : List Char, word = y ++ ['-'] ++ m ++ ['-'] ++ d ∧
    y.length = 4 ∧ m.length = 2 ∧ d.length = 2 ∧ ∀ c ∈ y ++ m ++ d, c ∈ digits

/-- `reexamen=AAAA-MM-JJ` stands in the text after `before`. -/
def MarkerAt (text before word : List Char) : Prop :=
  DateForm word ∧ ∃ after, text = before ++ (reviewKey ++ word) ++ after

/-- A date that the pattern reads: of the years 2000 to 2099, with a month up
to 12 and a day up to 31. -/
def Recognised (word : List Char) : Prop :=
  ∃ y₃ ∈ digits, ∃ y₄ ∈ digits, ∃ m₁ ∈ digits, ∃ m₂ ∈ digits, ∃ d₁ ∈ digits, ∃ d₂ ∈ digits,
    word = ['2', '0', y₃, y₄, '-', m₁, m₂, '-', d₁, d₂] ∧
      (1 ≤ twoDigits m₁ m₂ ∧ twoDigits m₁ m₂ ≤ 12) ∧
        1 ≤ twoDigits d₁ d₂ ∧ twoDigits d₁ d₂ ≤ 31

/-- `context.evaluated_at` is that day. -/
def EvaluatedOn (input : Value) (today : Date) : Prop :=
  ∃ context text, input.get "context" = some context ∧
    context.get "evaluated_at" = some (.str text) ∧ parseDate text.toList = some today

/-- A justification in the documented form. -/
structure Justified (input : Value) (text : String) (today review : Date) : Prop where
  evaluated : EvaluatedOn input today
  adr : CarriesAdr text.toList
  one : ∃! marker : List Char × List Char, MarkerAt text.toList marker.1 marker.2
  present : ∃ before word, MarkerAt text.toList before word ∧ parseDate word = some review
  later : today.days < review.days
  bounded : review.days ≤ today.days + 366

/-- The one marker of the text whose date the pattern reads. -/
structure OnlyRecognised (text before word : List Char) : Prop where
  marker : MarkerAt text before word
  recognised : Recognised word
  only : ∀ before' word', MarkerAt text before' word' → Recognised word' → before' = before

/-- A justification that the code accepts: it is long enough, and the markers
that count are those of dates that the pattern reads. -/
structure Accepted (input : Value) (text : String) (today review : Date) : Prop where
  evaluated : EvaluatedOn input today
  century : 2000 ≤ today.year ∧ today.year < 2100
  long : minJustificationChars ≤ (trimSpace text.toList).length
  adr : CarriesAdr text.toList
  marker : ∃ before word, OnlyRecognised text.toList before word ∧ parseDate word = some review
  later : today.days < review.days
  bounded : review.days ≤ today.days + 366

/-! ## The patterns -/

theorem matches_digit {before word after : List Char} :
    Regex.Matches digit before word after ↔ ∃ c ∈ digits, word = [c] := by
  rw [digit, Regex.matches_char]
  constructor
  · rintro ⟨c, hword, hc⟩
    exact ⟨c, isDigit_iff_mem.mp hc, hword⟩
  · rintro ⟨c, hc, hword⟩
    exact ⟨c, hword, isDigit_iff_mem.mpr hc⟩

/-- Characters between two digits are digits. -/
theorem mem_digits_of_between {lo hi c : Char} (hlo : '0' ≤ lo) (hhi : hi ≤ '9')
    (h : lo ≤ c ∧ c ≤ hi) : c ∈ digits := by
  have hc : '0' ≤ c ∧ c ≤ '9' := ⟨Char.le_trans hlo h.1, Char.le_trans h.2 hhi⟩
  exact isDigit_iff_mem.mp (by simpa [Char.isDigit, Char.le_def] using hc)

theorem matches_month {before word after : List Char} :
    Regex.Matches month before word after ↔ ∃ m₁ ∈ digits, ∃ m₂ ∈ digits, word = [m₁, m₂] ∧
      1 ≤ twoDigits m₁ m₂ ∧ twoDigits m₁ m₂ ≤ 12 := by
  have h0 : Regex.text "0" = .lit ['0'] := rfl
  have h1 : Regex.text "1" = .lit ['1'] := rfl
  have hvalue : ∀ m₁ ∈ digits, ∀ m₂ ∈ digits,
      ((m₁ = '0' ∧ '1' ≤ m₂ ∧ m₂ ≤ '9') ∨ (m₁ = '1' ∧ '0' ≤ m₂ ∧ m₂ ≤ '2')) ↔
        1 ≤ twoDigits m₁ m₂ ∧ twoDigits m₁ m₂ ≤ 12 := by decide
  simp only [month, Regex.oneOf, h0, h1, Regex.matches_alt, Regex.matches_seq, Regex.matches_lit,
    Regex.matches_char, Bool.and_eq_true, decide_eq_true_eq]
  constructor
  · rintro (⟨_, _, rfl, rfl, m₂, rfl, hm⟩ | ⟨_, _, rfl, rfl, m₂, rfl, hm⟩)
    · have hm₂ := mem_digits_of_between (by decide) (by decide) hm
      exact ⟨'0', by decide, m₂, hm₂, rfl, (hvalue '0' (by decide) m₂ hm₂).mp (Or.inl ⟨rfl, hm⟩)⟩
    · have hm₂ := mem_digits_of_between (by decide) (by decide) hm
      exact ⟨'1', by decide, m₂, hm₂, rfl, (hvalue '1' (by decide) m₂ hm₂).mp (Or.inr ⟨rfl, hm⟩)⟩
  · rintro ⟨m₁, hm₁, m₂, hm₂, rfl, h⟩
    rcases (hvalue m₁ hm₁ m₂ hm₂).mpr h with ⟨rfl, hm⟩ | ⟨rfl, hm⟩
    · exact Or.inl ⟨['0'], [m₂], rfl, rfl, m₂, rfl, hm⟩
    · exact Or.inr ⟨['1'], [m₂], rfl, rfl, m₂, rfl, hm⟩

theorem matches_dayOfMonth {before word after : List Char} :
    Regex.Matches dayOfMonth before word after ↔ ∃ d₁ ∈ digits, ∃ d₂ ∈ digits, word = [d₁, d₂] ∧
      1 ≤ twoDigits d₁ d₂ ∧ twoDigits d₁ d₂ ≤ 31 := by
  have h0 : Regex.text "0" = .lit ['0'] := rfl
  have h3 : Regex.text "3" = .lit ['3'] := rfl
  have hvalue : ∀ d₁ ∈ digits, ∀ d₂ ∈ digits,
      ((d₁ = '0' ∧ '1' ≤ d₂ ∧ d₂ ≤ '9') ∨ ('1' ≤ d₁ ∧ d₁ ≤ '2') ∨
        (d₁ = '3' ∧ '0' ≤ d₂ ∧ d₂ ≤ '1')) ↔ 1 ≤ twoDigits d₁ d₂ ∧ twoDigits d₁ d₂ ≤ 31 := by decide
  simp only [dayOfMonth, Regex.oneOf, h0, h3, Regex.matches_alt, Regex.matches_seq,
    Regex.matches_lit, Regex.matches_char, matches_digit, Bool.and_eq_true, decide_eq_true_eq]
  constructor
  · rintro (⟨_, _, rfl, rfl, d₂, rfl, hd⟩ | ⟨_, _, rfl, ⟨d₁, rfl, hd⟩, d₂, hd₂, rfl⟩ |
      ⟨_, _, rfl, rfl, d₂, rfl, hd⟩)
    · have hd₂ := mem_digits_of_between (by decide) (by decide) hd
      exact ⟨'0', by decide, d₂, hd₂, rfl, (hvalue '0' (by decide) d₂ hd₂).mp (Or.inl ⟨rfl, hd⟩)⟩
    · have hd₁ := mem_digits_of_between (by decide) (by decide) hd
      exact ⟨d₁, hd₁, d₂, hd₂, rfl, (hvalue d₁ hd₁ d₂ hd₂).mp (Or.inr (Or.inl hd))⟩
    · have hd₂ := mem_digits_of_between (by decide) (by decide) hd
      exact ⟨'3', by decide, d₂, hd₂, rfl,
        (hvalue '3' (by decide) d₂ hd₂).mp (Or.inr (Or.inr ⟨rfl, hd⟩))⟩
  · rintro ⟨d₁, hd₁, d₂, hd₂, rfl, h⟩
    rcases (hvalue d₁ hd₁ d₂ hd₂).mpr h with ⟨rfl, hd⟩ | hd | ⟨rfl, hd⟩
    · exact Or.inl ⟨['0'], [d₂], rfl, rfl, d₂, rfl, hd⟩
    · exact Or.inr (Or.inl ⟨[d₁], [d₂], rfl, ⟨d₁, rfl, hd⟩, d₂, hd₂, rfl⟩)
    · exact Or.inr (Or.inr ⟨['3'], [d₂], rfl, rfl, d₂, rfl, hd⟩)

theorem matches_isoDate {before word after : List Char} :
    Regex.Matches isoDate before word after ↔ Recognised word := by
  have h20 : Regex.text "20" = .lit ['2', '0'] := rfl
  have hdash : Regex.text "-" = .lit ['-'] := rfl
  simp only [isoDate, Regex.all, h20, hdash, Regex.matches_seq, Regex.matches_lit, matches_digit,
    matches_month, matches_dayOfMonth]
  constructor
  · rintro ⟨_, _, rfl, rfl, _, _, rfl, ⟨y₃, hy₃, rfl⟩, _, _, rfl, ⟨y₄, hy₄, rfl⟩, _, _, rfl, rfl,
      _, _, rfl, ⟨m₁, hm₁, m₂, hm₂, rfl, hm⟩, _, _, rfl, rfl, d₁, hd₁, d₂, hd₂, rfl, hd⟩
    exact ⟨y₃, hy₃, y₄, hy₄, m₁, hm₁, m₂, hm₂, d₁, hd₁, d₂, hd₂, rfl, hm, hd⟩
  · rintro ⟨y₃, hy₃, y₄, hy₄, m₁, hm₁, m₂, hm₂, d₁, hd₁, d₂, hd₂, rfl, hm, hd⟩
    exact ⟨['2', '0'], _, rfl, rfl, [y₃], _, rfl, ⟨y₃, hy₃, rfl⟩, [y₄], _, rfl, ⟨y₄, hy₄, rfl⟩,
      ['-'], _, rfl, rfl, [m₁, m₂], _, rfl, ⟨m₁, hm₁, m₂, hm₂, rfl, hm⟩, ['-'], _, rfl, rfl,
      d₁, hd₁, d₂, hd₂, rfl, hd⟩

theorem matches_reviewMarker {before word after : List Char} :
    Regex.Matches reviewMarker before word after ↔
      ∃ date, word = reviewKey ++ date ∧ Recognised date := by
  have hkey : Regex.text "reexamen=" = .lit reviewKey := rfl
  rw [reviewMarker, hkey, Regex.matches_seq]
  constructor
  · rintro ⟨u, v, rfl, hu, hv⟩
    obtain rfl := Regex.matches_lit.mp hu
    exact ⟨v, rfl, matches_isoDate.mp (Regex.matches_group.mp hv)⟩
  · rintro ⟨date, rfl, hdate⟩
    exact ⟨reviewKey, date, rfl, Regex.matches_lit.mpr rfl,
      Regex.matches_group.mpr (matches_isoDate.mpr hdate)⟩

theorem ne_r_of_mem_digits : ∀ c ∈ digits, c ≠ 'r' := by decide

theorem headedBy_reviewMarker : reviewMarker.HeadedBy 'r' := by
  intro before word after h
  obtain ⟨date, rfl, hdate⟩ := matches_reviewMarker.mp h
  obtain ⟨y₃, hy₃, y₄, hy₄, m₁, hm₁, m₂, hm₂, d₁, hd₁, d₂, hd₂, rfl, -⟩ := hdate
  refine ⟨_, rfl, ?_⟩
  have hne : ∀ c ∈ [y₃, y₄, m₁, m₂, d₁, d₂], 'r' ≠ c := by
    intro c hc
    refine Ne.symm (ne_r_of_mem_digits c ?_)
    simp only [List.mem_cons, List.not_mem_nil, or_false] at hc
    rcases hc with rfl | rfl | rfl | rfl | rfl | rfl <;> assumption
  simp only [List.mem_cons, List.not_mem_nil, or_false, forall_eq_or_imp, forall_eq] at hne
  simp [hne]

/-- A date of this century, as it is parsed, is one that the pattern reads. -/
theorem recognised_of_parseDate {word : List Char} {date : Date} (h : parseDate word = some date)
    (hcentury : 2000 ≤ date.year ∧ date.year < 2100) : Recognised word := by
  obtain ⟨y₁, y₂, y₃, y₄, m₁, m₂, d₁, d₂, rfl, hdigits, hvalid, rfl⟩ := parseDate_eq_some h
  simp only [List.mem_cons, List.not_mem_nil, or_false, forall_eq_or_imp, forall_eq] at hdigits
  obtain ⟨hy₁, hy₂, hy₃, hy₄, hm₁, hm₂, hd₁, hd₂⟩ := hdigits
  have hrange : ∀ a ∈ digits, ∀ b ∈ digits, 0 ≤ twoDigits a b ∧ twoDigits a b < 100 := by decide
  have htwenty : ∀ a ∈ digits, ∀ b ∈ digits, twoDigits a b = 20 → a = '2' ∧ b = '0' := by decide
  have hlast := hrange y₃ hy₃ y₄ hy₄
  obtain ⟨hge, hlt⟩ := hcentury
  dsimp only at hge hlt
  obtain ⟨rfl, rfl⟩ := htwenty y₁ hy₁ y₂ hy₂ (by omega)
  exact ⟨y₃, hy₃, y₄, hy₄, m₁, hm₁, m₂, hm₂, d₁, hd₁, d₂, hd₂, rfl,
    ⟨hvalid.month_pos, hvalid.month_le⟩, hvalid.day_pos,
    le_trans hvalid.day_le (monthLength_bounds _ _).2⟩

/-- And the other way round. -/
theorem century_of_recognised {word : List Char} {date : Date} (hrecognised : Recognised word)
    (h : parseDate word = some date) : 2000 ≤ date.year ∧ date.year < 2100 := by
  obtain ⟨y₃, hy₃, y₄, hy₄, m₁, -, m₂, -, d₁, -, d₂, -, rfl, -⟩ := hrecognised
  obtain ⟨_, _, _, _, _, _, _, _, heq, -, -, rfl⟩ := parseDate_eq_some h
  have hrange : ∀ a ∈ digits, ∀ b ∈ digits, 0 ≤ twoDigits a b ∧ twoDigits a b < 100 := by decide
  have htwenty : twoDigits '2' '0' = 20 := by decide
  simp only [List.cons.injEq, and_true, true_and] at heq
  obtain ⟨rfl, rfl, rfl, rfl, -⟩ := heq
  have hlast := hrange y₃ hy₃ y₄ hy₄
  dsimp only
  omega

theorem Recognised.dateForm {word : List Char} (h : Recognised word) : DateForm word := by
  obtain ⟨y₃, hy₃, y₄, hy₄, m₁, hm₁, m₂, hm₂, d₁, hd₁, d₂, hd₂, rfl, -⟩ := h
  refine ⟨['2', '0', y₃, y₄], [m₁, m₂], [d₁, d₂], rfl, rfl, rfl, rfl, ?_⟩
  have htwo : '2' ∈ digits := by decide
  have hzero : '0' ∈ digits := by decide
  intro c hc
  simp only [List.cons_append, List.nil_append, List.mem_cons, List.not_mem_nil, or_false] at hc
  rcases hc with rfl | rfl | rfl | rfl | rfl | rfl | rfl | rfl <;> assumption

/-- A date is written in ten characters, none of them blank. -/
theorem DateForm.length {word : List Char} (h : DateForm word) : word.length = 10 := by
  obtain ⟨y, m, d, rfl, hy, hm, hd, -⟩ := h
  simp [hy, hm, hd]

theorem DateForm.isSpace_eq_false {word : List Char} (h : DateForm word) :
    ∀ c ∈ word, isSpace c = false := by
  obtain ⟨y, m, d, rfl, -, -, -, hdigits⟩ := h
  have hdigit : ∀ c ∈ digits, isSpace c = false := by decide
  have hdash : isSpace '-' = false := by decide
  intro c hc
  simp only [List.mem_append, List.mem_singleton] at hc hdigits
  rcases hc with (((hc | rfl) | hc) | rfl) | hc
  · exact hdigit c (hdigits c (Or.inl (Or.inl hc)))
  · exact hdash
  · exact hdigit c (hdigits c (Or.inl (Or.inr hc)))
  · exact hdash
  · exact hdigit c (hdigits c (Or.inr hc))

/-! ## The markers of a text -/

/-- Two markers at one place are the same. -/
theorem MarkerAt.word_eq {text before word word' : List Char} (h : MarkerAt text before word)
    (h' : MarkerAt text before word') : word = word' := by
  obtain ⟨hform, after, htext⟩ := h
  obtain ⟨hform', after', htext'⟩ := h'
  rw [htext, List.append_assoc, List.append_assoc, List.append_assoc, List.append_assoc] at htext'
  have hrest := List.append_cancel_left (List.append_cancel_left htext')
  exact (List.append_inj hrest (hform.length.trans hform'.length.symm)).1

/-- The white space around a text holds no part of a marker. -/
theorem markerAt_iff_trimSpace {text before word : List Char} :
    MarkerAt text before word ↔ ∃ skipped, before = text.takeWhile isSpace ++ skipped ∧
      MarkerAt (trimSpace text) skipped word := by
  constructor
  · rintro ⟨hform, after, htext⟩
    have hspace : ∀ c ∈ reviewKey ++ word, isSpace c = false := by
      have hkey : ∀ c ∈ reviewKey, isSpace c = false := by decide
      intro c hc
      rcases List.mem_append.mp hc with hc | hc
      · exact hkey c hc
      · exact hform.isSpace_eq_false c hc
    obtain ⟨skipped, rest, htrimmed, hbefore⟩ := infix_trimSpace htext (by simp [reviewKey]) hspace
    exact ⟨skipped, hbefore, hform, rest, htrimmed⟩
  · rintro ⟨skipped, rfl, hform, rest, htrimmed⟩
    refine ⟨hform, rest ++ (text.dropWhile isSpace).rtakeWhile isSpace, ?_⟩
    have htext := eq_trimSpace text
    rw [htrimmed] at htext
    simpa only [List.append_assoc] using htext

theorem OnlyRecognised.of_trimSpace {text skipped word : List Char}
    (h : OnlyRecognised (trimSpace text) skipped word) :
    OnlyRecognised text (text.takeWhile isSpace ++ skipped) word where
  marker := markerAt_iff_trimSpace.mpr ⟨skipped, rfl, h.marker⟩
  recognised := h.recognised
  only before' word' hmarker hword := by
    obtain ⟨skipped', rfl, htrimmed⟩ := markerAt_iff_trimSpace.mp hmarker
    rw [h.only skipped' word' htrimmed hword]

theorem OnlyRecognised.trimSpace {text before word : List Char}
    (h : OnlyRecognised text before word) :
    ∃ skipped, OnlyRecognised (trimSpace text) skipped word := by
  obtain ⟨skipped, rfl, hmarker⟩ := markerAt_iff_trimSpace.mp h.marker
  refine ⟨skipped, hmarker, h.recognised, fun skipped' word' hmarker' hword' => ?_⟩
  exact List.append_cancel_left
    (h.only _ word' (markerAt_iff_trimSpace.mpr ⟨skipped', rfl, hmarker'⟩) hword')

/-- One submatch of the pattern is the only marker that it reads, with its date
in the group. -/
theorem onlyRecognised_of_findAll {text : List Char} {captures : Regex.Captures}
    (hone : reviewMarker.findAll text = [captures]) :
    ∃ before word, OnlyRecognised text before word ∧ captures.lookup 1 = some word := by
  obtain ⟨before, found, after, htext, hway, honly⟩ :=
    Regex.findAll_eq_singleton headedBy_reviewMarker hone
  obtain ⟨word, hfound, hword, hgroup⟩ := Regex.lookup_lit_group hway
  have hkey : Json.chars "reexamen=" = reviewKey := rfl
  have hrecognised := matches_isoDate.mp hword
  rw [List.append_assoc before, hfound, hkey, ← List.append_assoc before] at htext
  refine ⟨before, word, ⟨⟨hrecognised.dateForm, after, htext⟩, hrecognised, ?_⟩, hgroup⟩
  rintro before' word' ⟨-, after', htext'⟩ hword'
  exact honly before' _ after' htext' (matches_reviewMarker.mpr ⟨word', rfl, hword'⟩)

theorem OnlyRecognised.findAll {text before word : List Char}
    (h : OnlyRecognised text before word) :
    ∃ captures, reviewMarker.findAll text = [captures] ∧ captures.lookup 1 = some word := by
  obtain ⟨hform, after, htext⟩ := h.marker
  obtain ⟨captures, hone⟩ : ∃ captures, reviewMarker.findAll text = [captures] := by
    refine (Regex.findAll_eq_singleton_iff headedBy_reviewMarker).mpr ⟨before, _, after, htext,
      matches_reviewMarker.mpr ⟨word, rfl, h.recognised⟩, ?_⟩
    rintro before' found after' htext' hmatches
    obtain ⟨word', rfl, hword'⟩ := matches_reviewMarker.mp hmatches
    exact h.only before' word' ⟨hword'.dateForm, after', htext'⟩ hword'
  obtain ⟨before', word', honly', hgroup⟩ := onlyRecognised_of_findAll hone
  obtain rfl := h.only before' word' honly'.marker honly'.recognised
  exact ⟨captures, hone, by rw [hgroup, h.marker.word_eq honly'.marker]⟩

/-! ## What the checks amount to -/

theorem search_adrReference_iff {text : List Char} :
    adrReference.search (trimSpace text) = true ↔ CarriesAdr text := by
  have hkey : Regex.text "ADR-" = .lit ['A', 'D', 'R', '-'] := rfl
  rw [Regex.search_iff]
  constructor
  · rintro ⟨before, word, after, htrimmed, hmatches⟩
    rw [adrReference, hkey, Regex.matches_seq] at hmatches
    obtain ⟨_, _, rfl, hlit, hnumber⟩ := hmatches
    obtain rfl := Regex.matches_lit.mp hlit
    simp only [Regex.atLeast, Regex.times, Regex.matches_seq, matches_digit, Regex.matches_empty]
      at hnumber
    obtain ⟨_, rest, rfl, ⟨_, _, rfl, ⟨a, ha, rfl⟩, _, _, rfl, ⟨b, hb, rfl⟩, _, _, rfl,
      ⟨c, hc, rfl⟩, rfl⟩, -⟩ := hnumber
    refine ⟨text.takeWhile isSpace ++ before, [a, b, c],
      rest ++ after ++ (text.dropWhile isSpace).rtakeWhile isSpace, ?_, rfl, ?_⟩
    · have htext := eq_trimSpace text
      rw [htrimmed] at htext
      simpa using htext
    · simp only [List.mem_cons, List.not_mem_nil, or_false, forall_eq_or_imp, forall_eq]
      exact ⟨ha, hb, hc⟩
  · rintro ⟨before, number, after, htext, hlength, hdigits⟩
    obtain ⟨a, b, c, rfl⟩ := List.length_eq_three.mp hlength
    simp only [List.mem_cons, List.not_mem_nil, or_false, forall_eq_or_imp, forall_eq] at hdigits
    obtain ⟨ha, hb, hc⟩ := hdigits
    have hspace : ∀ e ∈ ['A', 'D', 'R', '-'] ++ [a, b, c], isSpace e = false := by
      have hletters : ∀ e ∈ ['A', 'D', 'R', '-'], isSpace e = false := by decide
      have hdigit : ∀ e ∈ digits, isSpace e = false := by decide
      intro e he
      rcases List.mem_append.mp he with he | he
      · exact hletters e he
      · simp only [List.mem_cons, List.not_mem_nil, or_false] at he
        rcases he with rfl | rfl | rfl <;> exact hdigit _ (by assumption)
    rw [List.append_assoc before] at htext
    obtain ⟨skipped, rest, htrimmed, -⟩ := infix_trimSpace htext (by simp) hspace
    refine ⟨skipped, _, rest, htrimmed, ?_⟩
    rw [adrReference, hkey, Regex.matches_seq]
    refine ⟨_, _, rfl, Regex.matches_lit.mpr rfl, ?_⟩
    simp only [Regex.atLeast, Regex.times, Regex.matches_seq, matches_digit, Regex.matches_empty]
    exact ⟨[a, b, c], [], rfl, ⟨[a], [b, c], rfl, ⟨a, ha, rfl⟩, [b], [c], rfl, ⟨b, hb, rfl⟩,
      [c], [], rfl, ⟨c, hc, rfl⟩, rfl⟩, .starNil _ _ _⟩

/-- The day that is read is that of the only marker the pattern finds. -/
theorem reviewDate_trimSpace_iff {text : List Char} {ns : Int} :
    reviewDate (trimSpace text) = some ns ↔ ∃ before word review,
      OnlyRecognised text before word ∧ parseDate word = some review ∧
        review.days * 86400 * 1000000000 = ns := by
  constructor
  · intro h
    unfold reviewDate at h
    split at h
    · rename_i captures hone
      obtain ⟨skipped, word, honly, hgroup⟩ := onlyRecognised_of_findAll hone
      rw [hgroup, Option.bind_some, parseNs, Option.map_eq_some_iff] at h
      obtain ⟨review, hparsed, hns⟩ := h
      exact ⟨_, word, review, honly.of_trimSpace, hparsed, hns⟩
    · cases h
  · rintro ⟨before, word, review, honly, hparsed, rfl⟩
    obtain ⟨skipped, honly⟩ := honly.trimSpace
    obtain ⟨captures, hone, hgroup⟩ := honly.findAll
    rw [reviewDate, hone]
    change (captures.lookup 1).bind parseNs = _
    rw [hgroup, Option.bind_some, parseNs, hparsed]
    rfl

theorem search_isoDateAnchored_iff {text : List Char} :
    isoDateAnchored.search text = true ↔ Recognised text := by
  rw [Regex.search_iff]
  simp only [isoDateAnchored, Regex.all, Regex.matches_seq, matches_isoDate]
  constructor
  · rintro ⟨before, _, after, rfl, _, _, rfl, hstart, word, _, rfl, hword, hend⟩
    cases hstart
    cases hend
    simpa using hword
  · intro h
    exact ⟨[], text, [], by simp, [], text, rfl, .startOfText _, text, [], by simp, h, .endOfText _⟩

/-- The day of the evaluation is read when it is one of this century. -/
theorem evaluatedAtNs_eq_some_iff {input : Value} {ns : Int} :
    evaluatedAtNs input = some ns ↔ ∃ today, EvaluatedOn input today ∧
      (2000 ≤ today.year ∧ today.year < 2100) ∧ today.days * 86400 * 1000000000 = ns := by
  constructor
  · intro h
    obtain ⟨context, hcontext, h⟩ := Option.bind_eq_some_iff.mp h
    obtain ⟨text, htext, h⟩ := Option.bind_eq_some_iff.mp h
    split at h
    · rename_i hsearch
      obtain ⟨value, hvalue, htext⟩ := Option.bind_eq_some_iff.mp htext
      cases value with
      | str s =>
          obtain rfl := Option.some.inj htext
          obtain ⟨today, hparsed, hns⟩ := Option.map_eq_some_iff.mp h
          have hcentury := century_of_recognised (search_isoDateAnchored_iff.mp hsearch) hparsed
          rw [Json.chars_eq_toList] at hparsed
          exact ⟨today, ⟨context, s, hcontext, hvalue, hparsed⟩, hcentury, hns⟩
      | _ => cases htext
    · cases h
  · rintro ⟨today, ⟨context, text, hcontext, hvalue, hparsed⟩, hcentury, rfl⟩
    rw [← Json.chars_eq_toList] at hparsed
    have hsearch : isoDateAnchored.search (Json.chars text) = true :=
      search_isoDateAnchored_iff.mpr (recognised_of_parseDate hparsed hcentury)
    refine Option.bind_eq_some_iff.mpr ⟨context, hcontext, ?_⟩
    refine Option.bind_eq_some_iff.mpr ⟨text, by rw [Value.getString, hvalue]; rfl, ?_⟩
    rw [if_pos hsearch, parseNs, hparsed]
    rfl

/-- **What the code accepts as a justification.** -/
theorem justificationValid_iff {input value : Value} : justificationValid input value = true ↔
    ∃ text today review, value = .str text ∧ Accepted input text today review := by
  have hmax : maxExemptionNs = 366 * 86400 * 1000000000 := by decide
  constructor
  · intro h
    cases value with
    | str text =>
        change (_ && _ && _) = true at h
        rw [Bool.and_eq_true, Bool.and_eq_true, Json.chars_eq_toList, decide_eq_true_eq] at h
        obtain ⟨⟨hlong, hadr⟩, hdates⟩ := h
        split at hdates
        · rename_i now review hnow hreview
          rw [Bool.and_eq_true, decide_eq_true_eq, decide_eq_true_eq, hmax] at hdates
          obtain ⟨today, htoday, hcentury, rfl⟩ := evaluatedAtNs_eq_some_iff.mp hnow
          obtain ⟨before, word, date, honly, hparsed, rfl⟩ := reviewDate_trimSpace_iff.mp hreview
          exact ⟨text, today, date, rfl, htoday, hcentury, hlong, search_adrReference_iff.mp hadr,
            ⟨before, word, honly, hparsed⟩, by omega, by omega⟩
        · cases hdates
    | _ => cases h
  · rintro ⟨text, today, review, rfl, h⟩
    obtain ⟨before, word, honly, hparsed⟩ := h.marker
    have hnow := evaluatedAtNs_eq_some_iff.mpr ⟨today, h.evaluated, h.century, rfl⟩
    have hreview := reviewDate_trimSpace_iff.mpr ⟨before, word, review, honly, hparsed, rfl⟩
    have hlater := h.later
    have hbounded := h.bounded
    change (_ && _ && _) = true
    rw [Bool.and_eq_true, Bool.and_eq_true, Json.chars_eq_toList, decide_eq_true_eq, hnow, hreview]
    refine ⟨⟨h.long, search_adrReference_iff.mpr h.adr⟩, ?_⟩
    change (_ && _) = true
    rw [Bool.and_eq_true, decide_eq_true_eq, decide_eq_true_eq, hmax]
    constructor <;> omega

/-- **An accepted justification is in the documented form exactly when the
pattern reads every marker of the text.** -/
theorem Accepted.justified_iff {input : Value} {text : String} {today review : Date}
    (h : Accepted input text today review) :
    (∃ today' review', Justified input text today' review') ↔
      ∀ before word, MarkerAt text.toList before word → Recognised word := by
  obtain ⟨before, word, honly, hparsed⟩ := h.marker
  constructor
  · rintro ⟨today', review', hjustified⟩ before' word' hmarker'
    have hsame : (before', word') = (before, word) :=
      hjustified.one.unique hmarker' honly.marker
    rw [(Prod.mk.inj hsame).2]
    exact honly.recognised
  · intro hall
    refine ⟨today, review, h.evaluated, h.adr, ⟨(before, word), honly.marker, ?_⟩,
      ⟨before, word, honly.marker, hparsed⟩, h.later, h.bounded⟩
    rintro ⟨before', word'⟩ hmarker'
    obtain rfl := honly.only before' word' hmarker' (hall before' word' hmarker')
    rw [honly.marker.word_eq hmarker']

end ZeroSecret.Platform
