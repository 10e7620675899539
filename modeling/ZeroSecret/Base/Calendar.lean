import Mathlib.Tactic

/-!
# The proleptic Gregorian calendar and RFC 3339 texts

Days and seconds since 1970-01-01T00:00:00Z to civil dates, by shifting the
year to start in March so that the leap day comes last, and their text with
four-digit years.
-/

namespace Calendar

/-- Year, month, day of a day number. -/
def civilFromDays (z : Int) : Int × Int × Int :=
  let z := z + 719468
  let era := z / 146097
  let doe := z % 146097
  let yoe := (doe - doe / 1460 + doe / 36524 - doe / 146096) / 365
  let y := yoe + era * 400
  let doy := doe - (365 * yoe + yoe / 4 - yoe / 100)
  let mp := (5 * doy + 2) / 153
  let d := doy - (153 * mp + 2) / 5 + 1
  let m := if mp < 10 then mp + 3 else mp - 9
  let y := if m ≤ 2 then y + 1 else y
  (y, m, d)

/-- The day number of a civil date. -/
def daysFromCivil (y m d : Int) : Int :=
  let y := if m ≤ 2 then y - 1 else y
  let era := y / 400
  let yoe := y % 400
  let mp := if m > 2 then m - 3 else m + 9
  let doy := (153 * mp + 2) / 5 + d - 1
  let doe := yoe * 365 + yoe / 4 - yoe / 100 + doy
  era * 146097 + doe - 719468

/-- A number in at least `width` characters, zeros in front; the sign counts
in the width. -/
def padded (width : Nat) : Int → List Char
  | .ofNat n => (Nat.toDigits 10 n).leftpad width '0'
  | .negSucc n => '-' :: (Nat.toDigits 10 (n + 1)).leftpad (width - 1) '0'

/-- `AAAA-MM-DDThh:mm:ssZ`. -/
def rfc3339 (totalSeconds : Int) : String :=
  let days := totalSeconds / 86400
  let secondsOfDay := totalSeconds % 86400
  let (year, month, day) := civilFromDays days
  let hour := secondsOfDay / 3600
  let minute := secondsOfDay % 3600 / 60
  let second := secondsOfDay % 60
  String.ofList (padded 4 year ++ '-' :: padded 2 month ++ '-' :: padded 2 day ++
    'T' :: padded 2 hour ++ ':' :: padded 2 minute ++ ':' :: padded 2 second ++ ['Z'])

/-! ## Four-digit years -/

/-- A non-negative number is written in digits. -/
theorem padded_isDigit (width : Nat) {n : Int} (h0 : 0 ≤ n) :
    ∀ c ∈ padded width n, c.isDigit = true := by
  obtain ⟨m, rfl⟩ := Int.eq_ofNat_of_zero_le h0
  change ∀ c ∈ (Nat.toDigits 10 m).leftpad width '0', c.isDigit = true
  intro c hc
  rw [List.leftpad, List.mem_append] at hc
  rcases hc with hc | hc
  · rw [(List.mem_replicate.mp hc).2]
    rfl
  · exact Nat.isDigit_of_mem_toDigits (by decide) (by decide) hc

theorem le_length_padded (width : Nat) {n : Int} (h0 : 0 ≤ n) :
    width ≤ (padded width n).length := by
  obtain ⟨m, rfl⟩ := Int.eq_ofNat_of_zero_le h0
  change width ≤ ((Nat.toDigits 10 m).leftpad width '0').length
  rw [List.length_leftpad]
  exact Nat.le_max_left _ _

/-- It takes exactly `width` digits when it is below `10 ^ width`. -/
theorem padded_length_iff {width : Nat} {n : Int} (hw : 0 < width) (h0 : 0 ≤ n) :
    (padded width n).length = width ↔ n < 10 ^ width := by
  obtain ⟨m, rfl⟩ := Int.eq_ofNat_of_zero_le h0
  have hdigits : (Nat.toDigits 10 m).length ≤ width ↔ m < 10 ^ width :=
    Nat.length_toDigits_le_iff (by decide) hw
  change ((Nat.toDigits 10 m).leftpad width '0').length = width ↔ _
  rw [List.length_leftpad, max_eq_left_iff, hdigits]
  constructor
  · intro h
    exact_mod_cast h
  · intro h
    exact_mod_cast h

/-- A day of an era lies in its year: after the first of March, at most 366
days later. -/
theorem dayOfYear_bounds {doe yoe : Int} (h0 : 0 ≤ doe) (h1 : doe < 146097)
    (hyoe : (doe - doe / 1460 + doe / 36524 - doe / 146096) / 365 = yoe) :
    0 ≤ yoe ∧ yoe < 400 ∧ 365 * yoe + yoe / 4 - yoe / 100 ≤ doe ∧
      doe ≤ 365 * yoe + yoe / 4 - yoe / 100 + 366 := by
  have hrange : 0 ≤ yoe ∧ yoe < 400 := by omega
  refine ⟨hrange.1, hrange.2, ?_⟩
  -- the last day of the era is the only one whose fourth century has a leap day more
  have hlast : doe / 146096 = 0 ∨ doe = 146096 := by omega
  rcases hlast with hlast | rfl
  · have hcentury : doe / 36524 = 0 ∨ doe / 36524 = 1 ∨ doe / 36524 = 2 ∨ doe / 36524 = 3 ∨
        doe / 36524 = 4 := by omega
    have hyear : yoe / 100 = doe / 36524 := by
      rcases hcentury with h | h | h | h | h <;> rw [h, hlast] at hyoe <;> omega
    have hleap : yoe / 4 - yoe / 100 ≤ doe / 1460 - doe / 36524 := by
      rcases hcentury with h | h | h | h | h <;> rw [h, hlast] at hyoe <;> omega
    have hleap' : doe / 1460 - doe / 36524 ≤ yoe / 4 - yoe / 100 + 1 := by
      rcases hcentury with h | h | h | h | h <;> rw [h, hlast] at hyoe <;> omega
    omega
  · norm_num at hyoe
    omega

/-- The days of the years 0 to 9999 have a four-digit year, a two-digit month
and a two-digit day. -/
theorem civilFromDays_bounds {z : Int} (h0 : -719528 ≤ z) (h1 : z < 2932897) :
    (0 ≤ (civilFromDays z).1 ∧ (civilFromDays z).1 < 10 ^ 4) ∧
      (0 ≤ (civilFromDays z).2.1 ∧ (civilFromDays z).2.1 < 10 ^ 2) ∧
      (0 ≤ (civilFromDays z).2.2 ∧ (civilFromDays z).2.2 < 10 ^ 2) := by
  simp only [civilFromDays]
  generalize hera : (z + 719468) / 146097 = era
  generalize hdoe : (z + 719468) % 146097 = doe
  generalize hyoe : (doe - doe / 1460 + doe / 36524 - doe / 146096) / 365 = yoe
  generalize hdoy : doe - (365 * yoe + yoe / 4 - yoe / 100) = doy
  generalize hmp : (5 * doy + 2) / 153 = mp
  obtain ⟨hy0, hy1, hd0, hd1⟩ := dayOfYear_bounds (by omega) (by omega) hyoe
  have hdoy' : 0 ≤ doy ∧ doy ≤ 366 := by omega
  have hmp' : 0 ≤ mp ∧ mp ≤ 11 := by omega
  have hera' : -1 ≤ era ∧ era ≤ 24 := by omega
  have hday : 0 ≤ doy - (153 * mp + 2) / 5 + 1 ∧ doy - (153 * mp + 2) / 5 + 1 < 10 ^ 2 := by
    omega
  have hyear : yoe + era * 400 < 9999 ∨ (yoe + era * 400 = 9999 ∧ doy ≤ 305) := by
    omega
  -- the year before the first is seen from January on
  have hfirst : 0 ≤ era ∨ (yoe + era * 400 = -1 ∧ 306 ≤ doy) := by
    omega
  refine ⟨?_, ?_, hday⟩
  · split <;> split <;> omega
  · split <;> omega

/-! ## The two conversions are inverse -/

/-- **A day number is read back from its date.** -/
theorem daysFromCivil_civilFromDays (z : Int) :
    daysFromCivil (civilFromDays z).1 (civilFromDays z).2.1 (civilFromDays z).2.2 = z := by
  simp only [civilFromDays]
  generalize hera : (z + 719468) / 146097 = era
  generalize hdoe : (z + 719468) % 146097 = doe
  generalize hyoe : (doe - doe / 1460 + doe / 36524 - doe / 146096) / 365 = yoe
  generalize hdoy : doe - (365 * yoe + yoe / 4 - yoe / 100) = doy
  generalize hmp : (5 * doy + 2) / 153 = mp
  obtain ⟨hy0, hy1, hd0, hd1⟩ := dayOfYear_bounds (by omega) (by omega) hyoe
  have hmp' : 0 ≤ mp ∧ mp ≤ 11 := by omega
  have hz : era * 146097 + doe - 719468 = z := by omega
  -- the shifted month tells on which side of the new year the day lies
  have hyear : (yoe + era * 400) / 400 = era ∧ (yoe + era * 400) % 400 = yoe := by omega
  by_cases hm : mp < 10
  · simp only [if_pos hm, daysFromCivil, if_neg (show ¬ mp + 3 ≤ 2 by omega), hyear.1, hyear.2,
      if_pos (show mp + 3 > 2 by omega)]
    rw [show mp + 3 - 3 = mp by omega]
    omega
  · simp only [if_neg hm, daysFromCivil, if_pos (show mp - 9 ≤ 2 by omega),
      if_neg (show ¬ mp - 9 > 2 by omega), Int.add_sub_cancel, hyear.1, hyear.2]
    rw [show mp - 9 + 9 = mp by omega]
    omega

/-- 10000-01-01 is day 2932897. -/
theorem lt_of_year_le {z : Int} (h : (civilFromDays z).1 ≤ 9999) : z < 2932897 := by
  simp only [civilFromDays] at h
  generalize hera : (z + 719468) / 146097 = era at h
  generalize hdoe : (z + 719468) % 146097 = doe at h
  generalize hyoe : (doe - doe / 1460 + doe / 36524 - doe / 146096) / 365 = yoe at h
  generalize hdoy : doe - (365 * yoe + yoe / 4 - yoe / 100) = doy at h
  generalize hmp : (5 * doy + 2) / 153 = mp at h
  obtain ⟨hy0, hy1, hd0, hd1⟩ := dayOfYear_bounds (by omega) (by omega) hyoe
  by_contra hlate
  have hend : era = 24 ∧ 146037 ≤ doe ∨ 25 ≤ era := by omega
  rcases hend with ⟨rfl, hlast⟩ | hera'
  · have hyoe' : yoe = 399 := by omega
    have hm : 10 ≤ mp := by omega
    rw [if_neg (show ¬ mp < 10 by omega)] at h
    rw [if_pos (show mp - 9 ≤ 2 by omega)] at h
    omega
  · split at h <;> omega

/-- 0000-01-01 is day -719528. -/
theorem ge_of_year_nonneg {z : Int} (h : 0 ≤ (civilFromDays z).1) : -719528 ≤ z := by
  simp only [civilFromDays] at h
  generalize hera : (z + 719468) / 146097 = era at h
  generalize hdoe : (z + 719468) % 146097 = doe at h
  generalize hyoe : (doe - doe / 1460 + doe / 36524 - doe / 146096) / 365 = yoe at h
  generalize hdoy : doe - (365 * yoe + yoe / 4 - yoe / 100) = doy at h
  generalize hmp : (5 * doy + 2) / 153 = mp at h
  obtain ⟨hy0, hy1, hd0, hd1⟩ := dayOfYear_bounds (by omega) (by omega) hyoe
  by_contra hearly
  have hend : era = -1 ∧ doe < 146037 ∨ era ≤ -2 := by omega
  rcases hend with ⟨rfl, hfirst⟩ | hera'
  · by_cases hm : mp < 10
    · rw [if_pos hm, if_neg (show ¬ mp + 3 ≤ 2 by omega)] at h
      omega
    · rw [if_neg hm] at h
      split at h <;> omega
  · split at h <;> omega

/-- Zeros in front do not change a number. -/
theorem ofDigitChars_padded (width : Nat) {n : Int} (h0 : 0 ≤ n) :
    (Nat.ofDigitChars 10 (padded width n) 0 : Int) = n := by
  obtain ⟨m, rfl⟩ := Int.eq_ofNat_of_zero_le h0
  change ((Nat.ofDigitChars 10 ((Nat.toDigits 10 m).leftpad width '0') 0 : Nat) : Int) = m
  rw [List.leftpad, Nat.ofDigitChars_append, Nat.ofDigitChars_replicate_zero, Nat.mul_zero,
    Nat.ofDigitChars_ten_toDigits]

end Calendar
