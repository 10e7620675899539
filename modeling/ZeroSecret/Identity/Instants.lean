import ZeroSecret.Base.Gregorian
import ZeroSecret.Crypto.IdentityAssertion
import ZeroSecret.Identity.Handler
import ZeroSecret.Policy.SelfVerification

/-!
# Instants and their texts

Three services write instants as texts, each with its own copy of one function,
and an assertion expires by a comparison of texts. The function is followed
operation by operation on `i64`, and what it writes is compared with the
Gregorian calendar: the texts of the years 0 to 9999 denote their instants and
stand in the same order.
-/

namespace ZeroSecret.Identity

open Calendar Crypto
open Crypto.IdentityAssertion (WireDocument withinWindow)
open Json (utf8)
open Policy (decimal requestTimeFromRfc3339)

/-- identity-provider's copy. -/
def formatRfc3339 (totalSeconds : Int64) : String := Calendar.rfc3339 totalSeconds.toInt

/-! ## Operation by operation -/

/-- What an operation on `i64` gives, unless it overflows. -/
def i64 (n : Int) : Option Int := if -2 ^ 63 ≤ n ∧ n < 2 ^ 63 then some n else none

/-- `as u32`, unless it changes the value. -/
def u32 (n : Int) : Option Int := if 0 ≤ n ∧ n < 2 ^ 32 then some n else none

theorem i64_bind {β : Type} {n : Int} (h : -2 ^ 63 ≤ n ∧ n < 2 ^ 63) (f : Int → Option β) :
    (i64 n >>= f) = f n := by
  rw [i64, if_pos h]
  rfl

def yearOfEraChecked (doe : Int) : Option Int := do
  let a ← i64 (doe - doe / 1460)
  let b ← i64 (a + doe / 36524)
  let c ← i64 (b - doe / 146096)
  some (c / 365)

def dayOfYearChecked (doe yoe : Int) : Option Int := do
  let a ← i64 (365 * yoe)
  let b ← i64 (a + yoe / 4)
  let c ← i64 (b - yoe / 100)
  i64 (doe - c)

def monthFromMarchChecked (doy : Int) : Option Int := do
  let a ← i64 (5 * doy)
  let b ← i64 (a + 2)
  some (b / 153)

def dayOfMonthChecked (doy mp : Int) : Option Int := do
  let a ← i64 (153 * mp)
  let b ← i64 (a + 2)
  let c ← i64 (doy - b / 5)
  let d ← i64 (c + 1)
  u32 d

def monthChecked (mp : Int) : Option Int :=
  if mp < 10 then i64 (mp + 3) >>= u32 else i64 (mp - 9) >>= u32

def civilFromDaysChecked (z : Int) : Option (Int × Int × Int) := do
  let z ← i64 (z + 719468)
  let yoe ← yearOfEraChecked (z % 146097)
  let eras ← i64 (z / 146097 * 400)
  let y ← i64 (yoe + eras)
  let doy ← dayOfYearChecked (z % 146097) yoe
  let mp ← monthFromMarchChecked doy
  let d ← dayOfMonthChecked doy mp
  let m ← monthChecked mp
  let y ← if m ≤ 2 then i64 (y + 1) else some y
  some (y, m, d)

def formatRfc3339Checked (totalSeconds : Int) : Option String := do
  let (year, month, day) ← civilFromDaysChecked (totalSeconds / 86400)
  let secondsOfDay := totalSeconds % 86400
  let hour := secondsOfDay / 3600
  let minute := secondsOfDay % 3600 / 60
  let second := secondsOfDay % 60
  some (String.ofList (padded 4 year ++ '-' :: padded 2 month ++ '-' :: padded 2 day ++
    'T' :: padded 2 hour ++ ':' :: padded 2 minute ++ ':' :: padded 2 second ++ ['Z']))

theorem yearOfEraChecked_eq {doe : Int} (h0 : 0 ≤ doe) (h1 : doe < 146097) :
    yearOfEraChecked doe = some ((doe - doe / 1460 + doe / 36524 - doe / 146096) / 365) := by
  unfold yearOfEraChecked
  rw [i64_bind (by omega), i64_bind (by omega), i64_bind (by omega)]

theorem dayOfYearChecked_eq {doe yoe : Int} (h0 : 0 ≤ doe) (h1 : doe < 146097) (hy0 : 0 ≤ yoe)
    (hy1 : yoe < 400) :
    dayOfYearChecked doe yoe = some (doe - (365 * yoe + yoe / 4 - yoe / 100)) := by
  unfold dayOfYearChecked
  rw [i64_bind (by omega), i64_bind (by omega), i64_bind (by omega), i64, if_pos (by omega)]

theorem monthFromMarchChecked_eq {doy : Int} (h0 : 0 ≤ doy) (h1 : doy ≤ 366) :
    monthFromMarchChecked doy = some ((5 * doy + 2) / 153) := by
  unfold monthFromMarchChecked
  rw [i64_bind (by omega), i64_bind (by omega)]

theorem dayOfMonthChecked_eq {doy mp : Int} (h0 : 0 ≤ doy) (h1 : doy ≤ 366)
    (hmp : (5 * doy + 2) / 153 = mp) :
    dayOfMonthChecked doy mp = some (doy - (153 * mp + 2) / 5 + 1) := by
  unfold dayOfMonthChecked
  rw [i64_bind (by omega), i64_bind (by omega), i64_bind (by omega), i64_bind (by omega), u32,
    if_pos (by omega)]

theorem monthChecked_eq {mp : Int} (h0 : 0 ≤ mp) (h1 : mp ≤ 11) :
    monthChecked mp = some (if mp < 10 then mp + 3 else mp - 9) := by
  unfold monthChecked
  split
  · rw [i64_bind (by omega), u32, if_pos (by omega)]
  · rw [i64_bind (by omega), u32, if_pos (by omega)]

/-- No operation overflows on the days of an `i64` of seconds. -/
theorem civilFromDaysChecked_eq {z : Int} (h : -2 ^ 50 ≤ z ∧ z < 2 ^ 50) :
    civilFromDaysChecked z = some (civilFromDays z) := by
  unfold civilFromDaysChecked civilFromDays
  rw [i64_bind (by omega)]
  simp only
  generalize hera : (z + 719468) / 146097 = era
  generalize hdoe : (z + 719468) % 146097 = doe
  rw [yearOfEraChecked_eq (by omega) (by omega)]
  generalize hyoe : (doe - doe / 1460 + doe / 36524 - doe / 146096) / 365 = yoe
  obtain ⟨hy0, hy1, hd0, hd1⟩ := dayOfYear_bounds (by omega) (by omega) hyoe
  show (i64 (era * 400) >>= _) = _
  rw [i64_bind (by omega), i64_bind (by omega), dayOfYearChecked_eq (by omega) (by omega) hy0 hy1]
  generalize hdoy : doe - (365 * yoe + yoe / 4 - yoe / 100) = doy
  show (monthFromMarchChecked doy >>= _) = _
  rw [monthFromMarchChecked_eq (by omega) (by omega)]
  generalize hmp : (5 * doy + 2) / 153 = mp
  show (dayOfMonthChecked doy mp >>= _) = _
  rw [dayOfMonthChecked_eq (by omega) (by omega) hmp]
  show (monthChecked mp >>= _) = _
  rw [monthChecked_eq (by omega) (by omega)]
  generalize (if mp < 10 then mp + 3 else mp - 9) = m
  show (if m ≤ 2 then i64 (yoe + era * 400 + 1) >>= _ else some (yoe + era * 400) >>= _) = _
  by_cases hm : m ≤ 2
  · rw [if_pos hm, if_pos hm, i64_bind (by omega)]
  · rw [if_neg hm, if_neg hm]
    rfl

theorem toInt_bounds (s : Int64) : -2 ^ 63 ≤ s.toInt ∧ s.toInt < 2 ^ 63 := by
  have h1 := s.le_toInt
  have h2 := s.toInt_lt
  omega

/-- **Formatting never overflows.** -/
theorem formatRfc3339Checked_eq (s : Int64) :
    formatRfc3339Checked s.toInt = some (formatRfc3339 s) := by
  have h := toInt_bounds s
  rw [formatRfc3339Checked, civilFromDaysChecked_eq (by omega)]
  rfl

/-! ## What a text denotes -/

/-- A date with a time of day. -/
structure Instant where
  date : Date
  hour : Int
  minute : Int
  second : Int

/-- Digits of a width with a value. -/
structure Digits (width : Nat) (xs : Bytes) (n : Int) : Prop where
  length : xs.length = width
  digit : ∀ b ∈ xs, isAsciiDigit b = true
  value : decimal xs = n

/-- `AAAA-MM-DDThh:mm:ssZ` of an instant. -/
def Denotes (text : Bytes) (i : Instant) : Prop :=
  ∃ year month day hour minute second,
    Digits 4 year i.date.year ∧ Digits 2 month i.date.month ∧ Digits 2 day i.date.day ∧
    Digits 2 hour i.hour ∧ Digits 2 minute i.minute ∧ Digits 2 second i.second ∧
    text = year ++ ([0x2D] ++ (month ++ ([0x2D] ++ (day ++ ([0x54] ++ (hour ++ ([0x3A] ++
      (minute ++ ([0x3A] ++ (second ++ [0x5A]))))))))))

/-- The seconds of an `i64` as a civil instant, by the calendar. -/
def instantOf (calendar : Int → Date) (s : Int) : Instant where
  date := calendar (s / 86400)
  hour := s % 86400 / 3600
  minute := s % 86400 % 3600 / 60
  second := s % 86400 % 60

/-- The year has four digits. -/
def YearInRange (calendar : Int → Date) (s : Int) : Prop :=
  0 ≤ (calendar (s / 86400)).year ∧ (calendar (s / 86400)).year ≤ 9999

theorem yearInRange_date_iff (s : Int) :
    YearInRange date s ↔ -62167219200 ≤ s ∧ s < 253402300800 := by
  constructor
  · rintro ⟨h0, h1⟩
    have hfirst := ge_of_year_nonneg h0
    have hlast := lt_of_year_le h1
    omega
  · rintro ⟨h0, h1⟩
    have hbounds := civilFromDays_bounds (show -719528 ≤ s / 86400 by omega)
      (show s / 86400 < 2932897 by omega)
    exact ⟨hbounds.1.1, Int.lt_add_one_iff.mp hbounds.1.2⟩

theorem digits_padded {width : Nat} (hw : 0 < width) {n : Int} (hn : 0 ≤ n ∧ n < 10 ^ width) :
    Digits width (utf8 (padded width n)) n := by
  obtain ⟨hlength, hdigit⟩ := utf8_padded hw hn
  exact ⟨hlength, hdigit, Policy.decimal_padded width hn.1⟩

theorem denotes_rfc3339 {s : Int} (h : YearInRange date s) :
    Denotes (octets (Calendar.rfc3339 s)) (instantOf date s) := by
  obtain ⟨h0, h1⟩ := (yearInRange_date_iff s).mp h
  have hbounds := civilFromDays_bounds (show -719528 ≤ s / 86400 by omega)
    (show s / 86400 < 2932897 by omega)
  refine ⟨_, _, _, _, _, _, digits_padded (by decide) hbounds.1,
    digits_padded (by decide) hbounds.2.1, digits_padded (by decide) hbounds.2.2,
    digits_padded (by decide) ?_, digits_padded (by decide) ?_, digits_padded (by decide) ?_,
    octets_rfc3339 s⟩
  · simp only [instantOf]
    omega
  · simp only [instantOf]
    omega
  · simp only [instantOf]
    omega

/-! ## Texts in order -/

theorem append_lt_append_iff {xs ys rest rest' : Bytes} (h : xs.length = ys.length) :
    xs ++ rest < ys ++ rest' ↔ xs < ys ∨ xs = ys ∧ rest < rest' := by
  induction xs generalizing ys with
  | nil =>
      obtain rfl := List.eq_nil_of_length_eq_zero h.symm
      simp
  | cons x xs ih =>
      cases ys with
      | nil => cases h
      | cons y ys =>
          rw [List.cons_append, List.cons_append, List.cons_lt_cons_iff, List.cons_lt_cons_iff,
            ih (Nat.succ.inj h), List.cons.injEq]
          tauto

theorem decimal_cons (b : UInt8) (bs : Bytes) :
    decimal (b :: bs) = (b.toNat - 48 : Int) * 10 ^ bs.length + decimal bs := by
  have hfold : ∀ (bs : Bytes) (n : Int), bs.foldl (fun n b => n * 10 + (b.toNat - 48 : Int)) n =
      n * 10 ^ bs.length + decimal bs := by
    intro bs
    induction bs with
    | nil => intro n; simp [decimal]
    | cons c bs ih =>
        intro n
        have hcons : decimal (c :: bs) = (0 * 10 + (c.toNat - 48 : Int)) * 10 ^ bs.length +
            decimal bs := ih _
        rw [List.foldl_cons, ih, hcons, List.length_cons]
        ring
  rw [decimal, List.foldl_cons, hfold]
  simp

theorem decimal_bounds {bs : Bytes} (h : ∀ b ∈ bs, isAsciiDigit b = true) :
    0 ≤ decimal bs ∧ decimal bs < 10 ^ bs.length := by
  induction bs with
  | nil => simp [decimal]
  | cons b bs ih =>
      obtain ⟨h0, h1⟩ := ih fun c hc => h c (List.mem_cons_of_mem b hc)
      have hb := h b List.mem_cons_self
      simp only [isAsciiDigit, Bool.and_eq_true, decide_eq_true_eq, UInt8.le_iff_toNat_le] at hb
      obtain ⟨hb0, hb1⟩ := hb
      change 48 ≤ b.toNat at hb0
      change b.toNat ≤ 57 at hb1
      rw [decimal_cons, List.length_cons, pow_succ]
      constructor
      · have : 0 ≤ (b.toNat - 48 : Int) * 10 ^ bs.length := by
          apply mul_nonneg <;> [omega; positivity]
        omega
      · nlinarith [show (0 : Int) < 10 ^ bs.length from by positivity]

/-- Digits of one width stand in the order of their values. -/
theorem Digits.lt_iff {width : Nat} {xs ys : Bytes} {m n : Int} (hx : Digits width xs m)
    (hy : Digits width ys n) : xs < ys ↔ m < n := by
  induction width generalizing xs ys m n with
  | zero =>
      obtain rfl := List.eq_nil_of_length_eq_zero hx.length
      obtain rfl := List.eq_nil_of_length_eq_zero hy.length
      rw [← hx.value, ← hy.value]
      simp
  | succ width ih =>
      match xs, ys, hx, hy with
      | x :: xs, y :: ys, hx, hy =>
          have hdx : Digits width xs (decimal xs) :=
            ⟨Nat.succ.inj hx.length, fun b hb => hx.digit b (List.mem_cons_of_mem x hb), rfl⟩
          have hdy : Digits width ys (decimal ys) :=
            ⟨Nat.succ.inj hy.length, fun b hb => hy.digit b (List.mem_cons_of_mem y hb), rfl⟩
          obtain ⟨hx0, hx1⟩ := decimal_bounds hdx.digit
          obtain ⟨hy0, hy1⟩ := decimal_bounds hdy.digit
          rw [hdx.length] at hx1
          rw [hdy.length] at hy1
          have hpow : (0 : Int) < 10 ^ width := by positivity
          rw [List.cons_lt_cons_iff, ih hdx hdy, ← hx.value, ← hy.value, decimal_cons, decimal_cons,
            hdx.length, hdy.length, UInt8.lt_iff_toNat_lt, ← UInt8.toNat_inj]
          generalize x.toNat = a
          generalize y.toNat = b
          constructor
          · rintro (hlt | ⟨rfl, hlt⟩)
            · have hab : (a : Int) + 1 ≤ b := by exact_mod_cast hlt
              nlinarith
            · omega
          · intro hlt
            rcases lt_trichotomy a b with hab | hab | hab
            · exact Or.inl hab
            · subst hab
              exact Or.inr ⟨rfl, by omega⟩
            · have hba : (b : Int) + 1 ≤ a := by exact_mod_cast hab
              nlinarith

theorem Digits.eq_iff {width : Nat} {xs ys : Bytes} {m n : Int} (hx : Digits width xs m)
    (hy : Digits width ys n) : xs = ys ↔ m = n := by
  constructor
  · rintro rfl
    rw [← hx.value, hy.value]
  · rintro rfl
    have hxy : ¬ xs < ys := fun hlt => lt_irrefl _ ((hx.lt_iff hy).mp hlt)
    have hyx : ¬ ys < xs := fun hlt => lt_irrefl _ ((hy.lt_iff hx).mp hlt)
    exact List.le_antisymm (List.not_lt.mp hyx) (List.not_lt.mp hxy)

/-- Digits, a separator and the rest. -/
theorem Digits.append_lt_iff {width : Nat} {xs ys rest rest' : Bytes} {m n : Int} {sep : UInt8}
    (hx : Digits width xs m) (hy : Digits width ys n) :
    xs ++ ([sep] ++ rest) < ys ++ ([sep] ++ rest') ↔ m < n ∨ m = n ∧ rest < rest' := by
  rw [append_lt_append_iff (hx.length.trans hy.length.symm), hx.lt_iff hy, hx.eq_iff hy,
    List.singleton_append, List.singleton_append, List.cons_lt_cons_iff]
  simp

def Instant.Before (i j : Instant) : Prop :=
  i.date.Before j.date ∨ i.date = j.date ∧ (i.hour < j.hour ∨ (i.hour = j.hour ∧
    (i.minute < j.minute ∨ (i.minute = j.minute ∧ i.second < j.second))))

/-- Texts stand in the order of what they denote. -/
theorem Denotes.lt_iff {a b : Bytes} {i j : Instant} (ha : Denotes a i) (hb : Denotes b j) :
    a < b ↔ i.Before j := by
  obtain ⟨_, _, _, _, _, _, hy, hm, hd, hh, hi, hs, rfl⟩ := ha
  obtain ⟨_, _, _, _, _, _, hy', hm', hd', hh', hi', hs', rfl⟩ := hb
  have hend := @append_lt_append_iff _ _ [0x5A] [0x5A] (hs.length.trans hs'.length.symm)
  rw [hy.append_lt_iff hy', hm.append_lt_iff hm', hd.append_lt_iff hd', hh.append_lt_iff hh',
    hi.append_lt_iff hi', hend, hs.lt_iff hs']
  obtain ⟨⟨_, _, _⟩, _, _, _⟩ := i
  obtain ⟨⟨_, _, _⟩, _, _, _⟩ := j
  simp only [Instant.Before, Date.Before, Date.mk.injEq]
  tauto

theorem Instant.Before.irrefl (i : Instant) : ¬ i.Before i := by
  simp [Instant.Before, Date.Before]

theorem Instant.Before.asymm {i j : Instant} (h : i.Before j) : ¬ j.Before i := by
  obtain ⟨⟨_, _, _⟩, _, _, _⟩ := i
  obtain ⟨⟨_, _, _⟩, _, _, _⟩ := j
  simp only [Instant.Before, Date.Before, Date.mk.injEq] at *
  omega

/-- Later seconds are a later civil instant. -/
theorem instantOf_before {s t : Int} (h : s < t) :
    (instantOf date s).Before (instantOf date t) := by
  by_cases hday : s / 86400 < t / 86400
  · exact Or.inl (date_before hday)
  · have hsame : s / 86400 = t / 86400 := by omega
    refine Or.inr ⟨congrArg date hsame, ?_⟩
    simp only [instantOf]
    omega

theorem rfc3339_lt_iff {s t : Int} (hs : YearInRange date s) (ht : YearInRange date t) :
    octets (Calendar.rfc3339 s) < octets (Calendar.rfc3339 t) ↔ s < t := by
  rw [(denotes_rfc3339 hs).lt_iff (denotes_rfc3339 ht)]
  constructor
  · intro hbefore
    rcases lt_trichotomy s t with hlt | rfl | hlt
    · exact hlt
    · exact absurd hbefore (Instant.Before.irrefl _)
    · exact absurd hbefore (instantOf_before hlt).asymm
  · exact instantOf_before

/-! ## The three copies -/

/-- What one call of a formatter is to give: no overflow, the instant of the
calendar, a timestamp, and the seconds read back. -/
structure Formatted (calendar : Int → Date) (s : Int64) : Prop where
  denotes : Denotes (octets (formatRfc3339 s)) (instantOf calendar s.toInt)
  accepted : ∃ timestamp, Timestamp.new (formatRfc3339 s) = .ok timestamp ∧
    timestamp.val = formatRfc3339 s
  readBack : requestTimeFromRfc3339 (Policy.rfc3339FromSeconds s) = s

theorem formatted_date {s : Int64} (h : YearInRange date s.toInt) : Formatted date s := by
  obtain ⟨h0, h1⟩ := (yearInRange_date_iff _).mp h
  have hvalid : timestampValid (octets (formatRfc3339 s)) = true := timestampValid_rfc3339 h0 h1
  exact {
    denotes := denotes_rfc3339 h
    accepted := ⟨_, Timestamp.new_eq_ok hvalid, rfl⟩
    readBack := Policy.requestTimeFromRfc3339_rfc3339 h0 h1 }

theorem refused_of_year {s : Int64} (h : ¬ YearInRange date s.toInt) :
    Timestamp.new (formatRfc3339 s) = .error ⟨"timestamp"⟩ := by
  refine dif_neg fun hvalid => h ?_
  exact year_of_timestampValid hvalid

/-- An instant is at or after another unless it is before. -/
theorem rfc3339_le_iff {s t : Int} (hs : YearInRange date s) (ht : YearInRange date t) :
    octets (Calendar.rfc3339 s) ≤ octets (Calendar.rfc3339 t) ↔ s ≤ t := by
  rw [← List.not_lt, rfc3339_lt_iff ht hs, Int.not_lt]

/-- The window of an assertion, in seconds. -/
theorem withinWindow_iff {doc : WireDocument} {now : Timestamp} {issued ends clock : Int}
    (hissued : doc.issuedAt = Calendar.rfc3339 issued) (hends : doc.expiresAt = Calendar.rfc3339 ends)
    (hnow : now.val = Calendar.rfc3339 clock) (hi : YearInRange date issued)
    (he : YearInRange date ends) (hc : YearInRange date clock) :
    withinWindow doc now = true ↔ issued ≤ clock ∧ clock < ends := by
  rw [withinWindow, hissued, hends, hnow, Bool.and_eq_true, decide_eq_true_eq, decide_eq_true_eq,
    rfc3339_le_iff hi hc, rfc3339_lt_iff hc he]

/-- **Instants and their texts.** In any calendar that follows the Gregorian
rules: formatting an `i64` never overflows and the three copies agree; in the
years 0 to 9999 the text denotes the instant, is a timestamp, is read back,
and stands in the order of time; in any other year it is refused. So an
assertion is in its window from its issue to the end of its lifetime. -/
theorem instants_formatted (calendar : Int → Date) (hcalendar : IsGregorian calendar) :
    (∀ s : Int64, formatRfc3339Checked s.toInt = some (formatRfc3339 s) ∧
      Policy.rfc3339FromSeconds s = formatRfc3339 s ∧
      Audit.rfc3339FromSeconds s.toInt = formatRfc3339 s) ∧
    (∀ s : Int64, YearInRange calendar s.toInt → Formatted calendar s) ∧
    (∀ s t : Int64, YearInRange calendar s.toInt → YearInRange calendar t.toInt →
      (s.toInt < t.toInt ↔ octets (formatRfc3339 s) < octets (formatRfc3339 t))) ∧
    (∀ s : Int64, ¬ YearInRange calendar s.toInt →
      Timestamp.new (formatRfc3339 s) = .error ⟨"timestamp"⟩) ∧
    ∀ (t ttl ends clock : Int64) (doc : WireDocument) (now : Timestamp),
      0 ≤ ttl.toInt → ends.toInt = t.toInt + ttl.toInt →
      YearInRange calendar t.toInt → YearInRange calendar ends.toInt →
      YearInRange calendar clock.toInt →
      doc.issuedAt = formatRfc3339 t → doc.expiresAt = formatRfc3339 ends →
      now.val = formatRfc3339 clock →
      (withinWindow doc now = true ↔
        t.toInt ≤ clock.toInt ∧ clock.toInt < t.toInt + ttl.toInt) := by
  obtain rfl := hcalendar.eq_date
  refine ⟨fun s => ⟨formatRfc3339Checked_eq s, rfl, rfl⟩, fun s => formatted_date, ?_,
    fun s => refused_of_year, ?_⟩
  · exact fun s t hs ht => (rfc3339_lt_iff hs ht).symm
  · intro t ttl ends clock doc now _ hends ht he hc hissued hexpires hnow
    rw [withinWindow_iff hissued hexpires hnow ht he hc, hends]

/-- A leap day, formatted. -/
theorem instants_formatted_leap_day :
    instantOf date 951782400 = ⟨⟨2000, 2, 29⟩, 0, 0, 0⟩ ∧ Formatted date 951782400 :=
  ⟨rfl, (instants_formatted date isGregorian_date).2.1 951782400
    ((yearInRange_date_iff _).mpr (by decide))⟩

end ZeroSecret.Identity
