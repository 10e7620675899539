import ZeroSecret.Base.Calendar

/-!
# The Gregorian calendar by its rules

Leap years, lengths of months and the day after a date. Counting days from
1970-01-01 by these rules gives one function, in both directions of time, and
it is `civilFromDays`: the arithmetic with eras is right on every day.
-/

namespace Calendar

structure Date where
  year : Int
  month : Int
  day : Int
deriving DecidableEq

/-- Every fourth year, no century, every fourth century. -/
def IsLeap (year : Int) : Prop := year % 4 = 0 ∧ (year % 100 ≠ 0 ∨ year % 400 = 0)

instance (year : Int) : Decidable (IsLeap year) := inferInstanceAs (Decidable (_ ∧ _))

def monthLength (year month : Int) : Int :=
  if month = 2 then if IsLeap year then 29 else 28
  else if month = 4 ∨ month = 6 ∨ month = 9 ∨ month = 11 then 30
  else 31

structure Date.Valid (t : Date) : Prop where
  month_pos : 1 ≤ t.month
  month_le : t.month ≤ 12
  day_pos : 1 ≤ t.day
  day_le : t.day ≤ monthLength t.year t.month

/-- The day after. -/
def Date.next (t : Date) : Date :=
  if t.day < monthLength t.year t.month then { t with day := t.day + 1 }
  else if t.month < 12 then ⟨t.year, t.month + 1, 1⟩
  else ⟨t.year + 1, 1, 1⟩

/-- Earlier by year, then by month, then by day. -/
def Date.Before (t u : Date) : Prop :=
  t.year < u.year ∨ (t.year = u.year ∧
    (t.month < u.month ∨ (t.month = u.month ∧ t.day < u.day)))

/-- A calendar that follows the rules, day by day. -/
structure IsGregorian (calendar : Int → Date) : Prop where
  epoch : calendar 0 = ⟨1970, 1, 1⟩
  valid : ∀ z, (calendar z).Valid
  next : ∀ z, calendar (z + 1) = (calendar z).next

/-! ## Counting days -/

def Date.days (t : Date) : Int := daysFromCivil t.year t.month t.day

/-- The days before a year that starts in March. -/
def marchDays (year : Int) : Int := 365 * year + year / 4 - year / 100 + year / 400

/-- The same, by years and months that start in March, without eras. -/
theorem days_eq (t : Date) :
    t.days = marchDays (if t.month ≤ 2 then t.year - 1 else t.year) +
      (153 * (if t.month > 2 then t.month - 3 else t.month + 9) + 2) / 5 + t.day - 719469 := by
  simp only [Date.days, daysFromCivil, marchDays]
  generalize (if t.month ≤ 2 then t.year - 1 else t.year) = y
  omega

theorem monthLength_bounds (year month : Int) :
    28 ≤ monthLength year month ∧ monthLength year month ≤ 31 := by
  unfold monthLength
  split_ifs <;> omega

theorem Date.Valid.next {t : Date} (h : t.Valid) : t.next.Valid := by
  obtain ⟨hm1, hm2, hd1, hd2⟩ := h
  have hfirst : ∀ year month, 1 ≤ month → month ≤ 12 → (⟨year, month, 1⟩ : Date).Valid :=
    fun year month h1 h2 => ⟨h1, h2, Int.le_refl 1, by
      have hlength := (monthLength_bounds year month).1
      simp only
      omega⟩
  unfold Date.next
  split_ifs with hday hmonth
  · exact ⟨hm1, hm2, by simp only; omega, by simp only; omega⟩
  · exact hfirst _ _ (by omega) (by omega)
  · exact hfirst _ _ (by omega) (by omega)

/-- A year that starts in March ends with the leap day of the next. -/
theorem marchDays_pred (year : Int) :
    marchDays year = marchDays (year - 1) + 365 + if IsLeap year then 1 else 0 := by
  unfold marchDays
  split
  · rename_i h
    unfold IsLeap at h
    omega
  · rename_i h
    unfold IsLeap at h
    omega

theorem marchDays_le {a b : Int} (h : a ≤ b) : marchDays a ≤ marchDays b := by
  unfold marchDays
  omega

theorem days_next {t : Date} (h : t.Valid) : t.next.days = t.days + 1 := by
  obtain ⟨year, month, day⟩ := t
  obtain ⟨hm1, hm2, hd1, hd2⟩ := h
  simp only at hm1 hm2 hd1 hd2
  unfold Date.next
  simp only
  by_cases hday : day < monthLength year month
  · rw [if_pos hday, days_eq, days_eq]
    simp only
    omega
  · have hlast : day = monthLength year month := by omega
    rw [if_neg hday]
    by_cases hmonth : month < 12
    · rw [if_pos hmonth, days_eq, days_eq, hlast]
      by_cases hfeb : month = 2
      · subst hfeb
        have hmarch := marchDays_pred year
        by_cases hleap : IsLeap year
        · simp only [monthLength, if_pos hleap, if_true] at hmarch ⊢
          norm_num
          omega
        · simp only [monthLength, if_neg hleap, if_true] at hmarch ⊢
          norm_num
          omega
      · interval_cases month <;> simp [monthLength] at hfeb ⊢ <;> omega
    · obtain rfl : month = 12 := by omega
      rw [if_neg hmonth, days_eq, days_eq, hlast]
      simp [monthLength]
      omega

/-- The year that started in March. -/
def Date.marchYear (t : Date) : Int := if t.month ≤ 2 then t.year - 1 else t.year

/-- The months since March. -/
def Date.marchMonth (t : Date) : Int := if t.month > 2 then t.month - 3 else t.month + 9

theorem days_eq_march (t : Date) :
    t.days = marchDays t.marchYear + (153 * t.marchMonth + 2) / 5 + t.day - 719469 :=
  days_eq t

/-- A date lies in the year that started in March. -/
theorem marchDays_bounds {t : Date} (h : t.Valid) :
    marchDays t.marchYear ≤ t.days + 719468 ∧ t.days + 719468 < marchDays (t.marchYear + 1) := by
  obtain ⟨year, month, day⟩ := t
  obtain ⟨hm1, hm2, hd1, hd2⟩ := h
  simp only at hm1 hm2 hd1 hd2
  rw [days_eq_march]
  simp only [Date.marchYear, Date.marchMonth]
  have hmarch := marchDays_pred ((if month ≤ 2 then year - 1 else year) + 1)
  rw [Int.add_sub_cancel] at hmarch
  by_cases hfeb : month = 2
  · subst hfeb
    simp only [le_refl, if_true, Int.sub_add_cancel] at hmarch ⊢
    by_cases hleap : IsLeap year
    · rw [if_pos hleap] at hmarch
      simp only [monthLength, if_pos hleap, if_true] at hd2
      norm_num
      omega
    · rw [if_neg hleap] at hmarch
      simp only [monthLength, if_neg hleap, if_true] at hd2
      norm_num
      omega
  · have hlength := (monthLength_bounds year month).2
    have hpos : 0 ≤ if IsLeap ((if month ≤ 2 then year - 1 else year) + 1) then (1 : Int) else 0 := by
      split_ifs <;> omega
    interval_cases month <;> simp at hfeb hmarch hpos ⊢ <;> omega

/-- The day of the year tells the month. -/
theorem marchMonth_of_day {t : Date} (h : t.Valid) :
    (5 * ((153 * t.marchMonth + 2) / 5 + t.day - 1) + 2) / 153 = t.marchMonth := by
  obtain ⟨year, month, day⟩ := t
  obtain ⟨hm1, hm2, hd1, hd2⟩ := h
  simp only [Date.marchMonth] at hm1 hm2 hd1 hd2 ⊢
  have hlength : monthLength year 2 ≤ 29 := by
    unfold monthLength
    split_ifs <;> omega
  interval_cases month <;> simp [monthLength] at hd2 hlength ⊢ <;> omega

/-- Two dates with the same number are one. -/
theorem days_injective {t u : Date} (ht : t.Valid) (hu : u.Valid) (h : t.days = u.days) :
    t = u := by
  obtain ⟨ht1, ht2⟩ := marchDays_bounds ht
  obtain ⟨hu1, hu2⟩ := marchDays_bounds hu
  have hyear : t.marchYear = u.marchYear := by
    rcases lt_trichotomy t.marchYear u.marchYear with hlt | heq | hlt
    · have hle := marchDays_le (show t.marchYear + 1 ≤ u.marchYear by omega)
      omega
    · exact heq
    · have hle := marchDays_le (show u.marchYear + 1 ≤ t.marchYear by omega)
      omega
  have hpos : (153 * t.marchMonth + 2) / 5 + t.day - 1 = (153 * u.marchMonth + 2) / 5 + u.day - 1 := by
    rw [days_eq_march, days_eq_march, hyear] at h
    omega
  have hmonth : t.marchMonth = u.marchMonth := by
    rw [← marchMonth_of_day ht, ← marchMonth_of_day hu, hpos]
  have hday : t.day = u.day := by
    rw [hmonth] at hpos
    omega
  obtain ⟨ht1, ht2, -, -⟩ := ht
  obtain ⟨hu1, hu2, -, -⟩ := hu
  obtain ⟨year, month, day⟩ := t
  obtain ⟨year', month', day'⟩ := u
  simp only [Date.marchYear, Date.marchMonth] at *
  obtain rfl : month = month' := by
    split_ifs at hmonth <;> omega
  obtain rfl : year = year' := by
    split_ifs at hyear <;> omega
  rw [hday]

/-! ## `civilFromDays` -/

def date (z : Int) : Date := ⟨(civilFromDays z).1, (civilFromDays z).2.1, (civilFromDays z).2.2⟩

theorem days_date (z : Int) : (date z).days = z := daysFromCivil_civilFromDays z

/-- The day of the year that starts in March is at most 364, or 365 before the
end of a leap year. -/
theorem dayOfYear_exact {doe yoe : Int} (h0 : 0 ≤ doe) (h1 : doe < 146097)
    (hyoe : (doe - doe / 1460 + doe / 36524 - doe / 146096) / 365 = yoe) :
    doe - (365 * yoe + yoe / 4 - yoe / 100) ≤ 364 + if IsLeap (yoe + 1) then 1 else 0 := by
  obtain ⟨hy0, hy1, hd0, hd1⟩ := dayOfYear_bounds h0 h1 hyoe
  have hlast : doe / 146096 = 0 ∨ doe = 146096 := by omega
  rcases hlast with hlast | rfl
  · have hcentury : doe / 36524 = 0 ∨ doe / 36524 = 1 ∨ doe / 36524 = 2 ∨ doe / 36524 = 3 ∨
        doe / 36524 = 4 := by omega
    have hyear : yoe / 100 = doe / 36524 := by
      rcases hcentury with h | h | h | h | h <;> rw [h, hlast] at hyoe <;> omega
    by_cases hleap : IsLeap (yoe + 1)
    · rw [if_pos hleap]
      unfold IsLeap at hleap
      rcases hcentury with h | h | h | h | h <;> rw [h, hlast] at hyoe <;> omega
    · rw [if_neg hleap]
      unfold IsLeap at hleap
      by_cases hfour : (yoe + 1) % 4 = 0
      · -- the end of a century
        have hend : (yoe + 1) % 100 = 0 := by omega
        omega
      · -- not the fourth year of four
        have hfloor : yoe ≤ 4 * (yoe / 4) + 2 := by omega
        have hdoe : doe ≤ 365 * yoe + 364 + doe / 1460 - doe / 36524 := by omega
        have hfew : doe / 1460 ≤ 100 := by omega
        have hquad : doe / 1460 ≤ yoe / 4 := by omega
        omega
  · norm_num at hyoe
    subst hyoe
    decide

theorem isLeap_add (year era : Int) : IsLeap (year + era * 400) ↔ IsLeap year := by
  unfold IsLeap
  omega

theorem valid_date (z : Int) : (date z).Valid := by
  simp only [date, civilFromDays]
  generalize hera : (z + 719468) / 146097 = era
  generalize hdoe : (z + 719468) % 146097 = doe
  generalize hyoe : (doe - doe / 1460 + doe / 36524 - doe / 146096) / 365 = yoe
  have hexact := dayOfYear_exact (by omega) (by omega) hyoe
  obtain ⟨hy0, hy1, hd0, hd1⟩ := dayOfYear_bounds (by omega) (by omega) hyoe
  generalize hdoy : doe - (365 * yoe + yoe / 4 - yoe / 100) = doy at hexact ⊢
  generalize hmp : (5 * doy + 2) / 153 = mp
  have hdoy' : 0 ≤ doy := by omega
  have hshort : doy ≤ 365 := by
    split_ifs at hexact <;> omega
  have hmp' : 0 ≤ mp ∧ mp ≤ 11 := by omega
  obtain ⟨hmp0, hmp1⟩ := hmp'
  by_cases hfeb : mp = 11
  · -- the end of February, in the year that is about to start in March
    subst hfeb
    have hleap : IsLeap (yoe + era * 400 + 1) ↔ IsLeap (yoe + 1) := by
      rw [show yoe + era * 400 + 1 = yoe + 1 + era * 400 by omega, isLeap_add]
    by_cases h : IsLeap (yoe + 1)
    · rw [if_pos h] at hexact
      constructor <;> simp [monthLength, hleap.mpr h] <;> omega
    · rw [if_neg h] at hexact
      constructor <;> simp [monthLength, mt hleap.mp h] <;> omega
  · interval_cases mp
    all_goals
      first
        | exact absurd rfl hfeb
        | (constructor <;> simp [monthLength] <;> omega)

/-- **`civilFromDays` is the Gregorian calendar**, on every day before and
after 1970. -/
theorem isGregorian_date : IsGregorian date where
  epoch := by decide
  valid := valid_date
  next := by
    intro z
    refine days_injective (valid_date _) (valid_date z).next ?_
    rw [days_date, days_next (valid_date z), days_date]

namespace IsGregorian

variable {calendar : Int → Date}

theorem days_eq (h : IsGregorian calendar) (z : Int) : (calendar z).days = z := by
  induction z using Int.induction_on with
  | zero =>
      rw [h.epoch]
      decide
  | succ n ih => rw [h.next, days_next (h.valid n), ih]
  | pred n ih =>
      have hnext := days_next (h.valid (-(n : Int) - 1))
      rw [← h.next, Int.sub_add_cancel, ih] at hnext
      omega

/-- There is no other. -/
theorem eq_date (h : IsGregorian calendar) : calendar = date := by
  funext z
  exact days_injective (h.valid z) (valid_date z) (by rw [h.days_eq, days_date])

end IsGregorian

/-! ## Dates in order -/

theorem Date.Before.trans {t u v : Date} (h : t.Before u) (h' : u.Before v) : t.Before v := by
  unfold Date.Before at *
  omega

theorem before_next (t : Date) : t.Before t.next := by
  unfold Date.Before Date.next
  split_ifs <;> simp

theorem date_before_add (z : Int) (n : Nat) : (date z).Before (date (z + (n + 1))) := by
  induction n with
  | zero =>
      rw [Nat.cast_zero, Int.zero_add, isGregorian_date.next]
      exact before_next _
  | succ n ih =>
      rw [Nat.cast_succ, ← Int.add_assoc, isGregorian_date.next]
      exact ih.trans (before_next _)

/-- A later day has a later date. -/
theorem date_before {z z' : Int} (h : z < z') : (date z).Before (date z') := by
  have hlater := date_before_add z (z' - z - 1).toNat
  rw [Int.toNat_of_nonneg (by omega), show z + (z' - z - 1 + 1) = z' by omega] at hlater
  exact hlater

end Calendar
