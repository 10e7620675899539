import Mathlib.Algebra.Order.Field.Power
import Mathlib.Data.Int.Log
import Mathlib.Data.Rat.Floor
import Mathlib.Tactic.Linarith
import Mathlib.Tactic.NormNum
import Mathlib.Tactic.Positivity

/-!
# Arithmetic rounded to binary64

A value is an exact rational. An operation rounds its exact result to 53
significant bits, ties to even; the exponent is unbounded, so what is said here
is for results that neither overflow nor are subnormal.
-/

namespace Binary64

/-! ## Rounding to an integer -/

def nearestEven (x : ℚ) : ℤ :=
  if x - ⌊x⌋ < 1 / 2 then ⌊x⌋
  else if x - ⌊x⌋ = 1 / 2 ∧ Even ⌊x⌋ then ⌊x⌋
  else ⌊x⌋ + 1

/-- Nearest, and even when there are two. -/
def IsNearest (x : ℚ) (n : ℤ) : Prop := |x - n| < 1 / 2 ∨ |x - n| = 1 / 2 ∧ Even n

theorem isNearest_nearestEven (x : ℚ) : IsNearest x (nearestEven x) := by
  have hlow : (0 : ℚ) ≤ x - ⌊x⌋ := sub_nonneg.mpr (Int.floor_le x)
  have hhigh : x - ⌊x⌋ < 1 := sub_lt_iff_lt_add'.mpr (Int.lt_floor_add_one x)
  have hup : x - ((⌊x⌋ + 1 : ℤ) : ℚ) = x - ⌊x⌋ - 1 := by
    push_cast
    ring
  unfold nearestEven IsNearest
  split
  · left
    rwa [abs_of_nonneg hlow]
  · rename_i hhalf
    split
    · rename_i htie
      right
      rw [abs_of_nonneg hlow]
      exact htie
    · rename_i htie
      rw [hup, abs_of_nonpos (by linarith)]
      rcases lt_or_eq_of_le (not_lt.mp hhalf) with h | h
      · left
        linarith
      · right
        refine ⟨by linarith, ?_⟩
        rw [Int.even_add_one]
        intro heven
        exact htie ⟨h.symm, heven⟩

theorem IsNearest.error {x : ℚ} {n : ℤ} (h : IsNearest x n) : |x - n| ≤ 1 / 2 := by
  rcases h with h | ⟨h, -⟩
  · exact h.le
  · exact h.le

theorem IsNearest.unique {x : ℚ} {n m : ℤ} (hn : IsNearest x n) (hm : IsNearest x m) : n = m := by
  have key : ∀ {a b : ℤ}, IsNearest x a → IsNearest x b → ¬ a < b := by
    intro a b ha hb hab
    have hstep : (a : ℚ) + 1 ≤ b := by exact_mod_cast hab
    have hax := abs_le.mp ha.error
    have hbx := abs_le.mp hb.error
    -- both are at one half, so they are neighbours and both even
    have hb' : b = a + 1 := by
      have : (b : ℚ) = a + 1 := by linarith
      exact_mod_cast this
    have hhalf : ∀ {c : ℤ}, IsNearest x c → ¬ |x - c| < 1 / 2 → Even c := by
      intro c hc hne
      rcases hc with h | ⟨-, h⟩
      · exact absurd h hne
      · exact h
    have hea : Even a := by
      apply hhalf ha
      rw [abs_lt]
      rintro ⟨-, h⟩
      linarith
    have heb : Even b := by
      apply hhalf hb
      rw [abs_lt]
      rintro ⟨h, -⟩
      linarith
    rw [hb', Int.even_add_one] at heb
    exact heb hea
  exact le_antisymm (not_lt.mp (key hm hn)) (not_lt.mp (key hn hm))

theorem nearestEven_eq {x : ℚ} {n : ℤ} (h : IsNearest x n) : nearestEven x = n :=
  (isNearest_nearestEven x).unique h

@[simp] theorem nearestEven_intCast (n : ℤ) : nearestEven n = n := by
  apply nearestEven_eq
  left
  rw [sub_self, abs_zero]
  norm_num

theorem nearestEven_neg (x : ℚ) : nearestEven (-x) = -nearestEven x := by
  apply nearestEven_eq
  have h := isNearest_nearestEven x
  unfold IsNearest at h ⊢
  rwa [Int.cast_neg, ← neg_sub', abs_neg, even_neg]

/-- An even integer is reached from half below it on. -/
theorem le_nearestEven_iff {x : ℚ} {n : ℤ} (hn : Even n) :
    n ≤ nearestEven x ↔ (n : ℚ) - 1 / 2 ≤ x := by
  have hnearest := isNearest_nearestEven x
  have herror := abs_le.mp hnearest.error
  constructor
  · intro h
    have : (n : ℚ) ≤ nearestEven x := by exact_mod_cast h
    linarith
  · intro h
    by_contra hlt
    have hstep : (nearestEven x : ℚ) + 1 ≤ n := by exact_mod_cast not_le.mp hlt
    have hn' : n = nearestEven x + 1 := by
      have : (n : ℚ) = nearestEven x + 1 := by linarith
      exact_mod_cast this
    rcases hnearest with h' | ⟨-, heven⟩
    · have := (abs_lt.mp h').2
      linarith
    · rw [hn', Int.even_add_one] at hn
      exact hn heven

theorem nearestEven_mono {x y : ℚ} (h : x ≤ y) : nearestEven x ≤ nearestEven y := by
  by_contra hlt
  have hstep : (nearestEven y : ℚ) + 1 ≤ nearestEven x := by exact_mod_cast not_le.mp hlt
  have hx := abs_le.mp (isNearest_nearestEven x).error
  have hy := abs_le.mp (isNearest_nearestEven y).error
  obtain rfl : x = y := by linarith
  exact hlt le_rfl

/-! ## Rounding to 53 bits -/

/-- The unit in the last place. -/
def ulp (x : ℚ) : ℚ := 2 ^ (Int.log 2 |x| - 52)

def round (x : ℚ) : ℚ := nearestEven (x / ulp x) * ulp x

theorem ulp_pos (x : ℚ) : 0 < ulp x := zpow_pos (by norm_num) _

theorem ulp_neg (x : ℚ) : ulp (-x) = ulp x := by
  unfold ulp
  rw [abs_neg]

theorem round_neg (x : ℚ) : round (-x) = -round x := by
  unfold round
  rw [ulp_neg, neg_div, nearestEven_neg, Int.cast_neg, neg_mul]

theorem round_error (x : ℚ) : |x - round x| ≤ ulp x / 2 := by
  have hu := ulp_pos x
  have hfactor : x - round x = (x / ulp x - nearestEven (x / ulp x)) * ulp x := by
    rw [round, sub_mul, div_mul_cancel₀ x hu.ne']
  calc |x - round x| = |x / ulp x - nearestEven (x / ulp x)| * ulp x := by
        rw [hfactor, abs_mul, abs_of_pos hu]
    _ ≤ 1 / 2 * ulp x :=
        mul_le_mul_of_nonneg_right (isNearest_nearestEven _).error hu.le
    _ = ulp x / 2 := by ring

/-- Below one the error is at most half a unit of `2 ^ (-53)`. -/
theorem round_error_of_lt_one {x : ℚ} (h0 : 0 < x) (h1 : x < 1) : |x - round x| ≤ 1 / 2 ^ 54 := by
  have hlog : Int.log 2 |x| < 0 := by
    rw [abs_of_pos h0, ← Int.lt_zpow_iff_log_lt (by norm_num) h0]
    simpa using h1
  have hulp : ulp x ≤ 2 ^ (-53 : ℤ) := zpow_le_zpow_right₀ (by norm_num) (by omega)
  have hval : (2 : ℚ) ^ (-53 : ℤ) = 2 * (1 / 2 ^ 54) := by norm_num
  rw [hval] at hulp
  linarith [round_error x]

/-- What a fraction lacks to one stays on its side of a bound that is not too
close. -/
theorem one_sub_round_le_iff {x c : ℚ} (h0 : 0 < x) (h1 : x < 1)
    (hfar : 1 / 2 ^ 54 < |1 - x - c|) : 1 - round x ≤ c ↔ 1 - x ≤ c := by
  have herror := abs_le.mp (round_error_of_lt_one h0 h1)
  constructor
  · intro h
    by_contra hlt
    rw [abs_of_pos (by linarith)] at hfar
    linarith [herror.1]
  · intro h
    rw [abs_of_nonpos (by linarith)] at hfar
    linarith [herror.2]

theorem round_zero : round 0 = 0 := by
  rw [round, zero_div, ← Int.cast_zero, nearestEven_intCast, Int.cast_zero, zero_mul]

theorem round_nonneg {x : ℚ} (h : 0 ≤ x) : 0 ≤ round x := by
  have hu := ulp_pos x
  have hnearest : nearestEven ((0 : ℤ) : ℚ) ≤ nearestEven (x / ulp x) := by
    apply nearestEven_mono
    rw [Int.cast_zero]
    exact div_nonneg h hu.le
  rw [nearestEven_intCast] at hnearest
  exact mul_nonneg (by exact_mod_cast hnearest) hu.le

/-- Within one binade of the integers, the unit is a fraction with a power of
two below. -/
theorem ulp_of_binade {x : ℚ} {e : ℕ} (he : e ≤ 52) (hlow : (2 : ℚ) ^ e ≤ x)
    (hhigh : x < 2 ^ (e + 1)) : ulp x = 1 / ((2 ^ (52 - e) : ℕ) : ℚ) := by
  have hx : 0 < x := lt_of_lt_of_le (by positivity) hlow
  have hlog : Int.log 2 |x| = e := by
    rw [abs_of_pos hx]
    apply le_antisymm
    · have : Int.log 2 x < (e + 1 : ℕ) := by
        rw [← Int.lt_zpow_iff_log_lt (by norm_num) hx, zpow_natCast]
        exact_mod_cast hhigh
      omega
    · rw [← Int.zpow_le_iff_le_log (by norm_num) hx, zpow_natCast]
      exact_mod_cast hlow
  have hexp : (e : ℤ) - 52 = -((52 - e : ℕ) : ℤ) := by omega
  rw [ulp, hlog, hexp, zpow_neg, zpow_natCast, one_div]
  push_cast
  rfl

/-- What sits on the grid of its binade is exact. -/
theorem round_of_mul_ulp {x : ℚ} {n : ℤ} (h : x = n * ulp x) : round x = x := by
  have hdiv : x / ulp x = n := by
    rw [div_eq_iff (ulp_pos x).ne']
    exact h
  rw [round, hdiv, nearestEven_intCast]
  exact h.symm

theorem binade_of_pos {n : ℕ} (hn : 0 < n) :
    ((2 : ℚ) ^ Nat.log 2 n ≤ n) ∧ ((n : ℚ) + 1 ≤ 2 ^ (Nat.log 2 n + 1)) := by
  refine ⟨?_, ?_⟩
  · exact_mod_cast Nat.pow_log_le_self 2 hn.ne'
  · exact_mod_cast Nat.lt_pow_succ_log_self (by norm_num) n

theorem round_natCast {n : ℕ} (h : n < 2 ^ 53) : round (n : ℚ) = n := by
  rcases Nat.eq_zero_or_pos n with rfl | hn
  · exact round_of_mul_ulp (n := 0) (by simp)
  · have he : Nat.log 2 n ≤ 52 := by
      have := Nat.log_lt_of_lt_pow hn.ne' h
      omega
    obtain ⟨hlow, hhigh⟩ := binade_of_pos hn
    have hulp := ulp_of_binade he hlow (by linarith)
    apply round_of_mul_ulp (n := (n * 2 ^ (52 - Nat.log 2 n) : ℕ))
    rw [hulp]
    push_cast
    field_simp

/-! ## Operations -/

def ofInt (n : ℤ) : ℚ := round n

def add (x y : ℚ) : ℚ := round (x + y)

def div (x y : ℚ) : ℚ := round (x / y)

/-- Conversion to an integer drops the fraction. -/
def truncate (x : ℚ) : ℤ := if 0 ≤ x then ⌊x⌋ else ⌈x⌉

theorem ofInt_neg (n : ℤ) : ofInt (-n) = -ofInt n := by
  unfold ofInt
  rw [Int.cast_neg, round_neg]

theorem ofInt_natCast {n : ℕ} (h : n < 2 ^ 53) : ofInt n = n := by
  unfold ofInt
  rw [Int.cast_natCast, round_natCast h]

theorem truncate_neg (x : ℚ) : truncate (-x) = -truncate x := by
  unfold truncate
  rcases lt_trichotomy x 0 with h | rfl | h
  · rw [if_pos (by linarith), if_neg (not_le.mpr h), Int.floor_neg]
  · simp
  · rw [if_neg (by linarith), if_pos h.le, Int.ceil_neg]

/-- **Adding a fraction to an integer carries** exactly when less than half a
unit of the integer's binade is missing. -/
theorem truncate_add_fraction {n : ℕ} {q : ℚ} (hn : 0 < n) (hbound : n < 2 ^ 52) (h0 : 0 ≤ q)
    (h1 : q < 1) :
    truncate (add n q) = if 1 - q ≤ 2 ^ Nat.log 2 n / 2 ^ 53 then (n : ℤ) + 1 else n := by
  obtain ⟨hlow, hhigh⟩ := binade_of_pos hn
  have he : Nat.log 2 n + 1 ≤ 52 := Nat.log_lt_of_lt_pow hn.ne' hbound
  have hulp : ulp (n + q) = 1 / ((2 ^ (52 - Nat.log 2 n) : ℕ) : ℚ) :=
    ulp_of_binade (by omega) (by linarith) (by linarith)
  obtain ⟨m, hm, hmpos, hhalf⟩ : ∃ m : ℕ, 2 ^ (52 - Nat.log 2 n) = 2 * m ∧ 0 < m ∧
      (2 : ℚ) ^ Nat.log 2 n / 2 ^ 53 = 1 / (2 * (2 * m)) := by
    refine ⟨2 ^ (51 - Nat.log 2 n), ?_, by positivity, ?_⟩
    · rw [← pow_succ']
      congr 1
      omega
    · rw [div_eq_div_iff (by positivity) (by positivity), one_mul]
      push_cast
      rw [show (53 : ℕ) = Nat.log 2 n + (2 + (51 - Nat.log 2 n)) by omega, pow_add, pow_add]
      ring
  have hmq : (0 : ℚ) < m := by exact_mod_cast hmpos
  rw [hm] at hulp
  rw [hhalf]
  -- the sum in units of the last place
  have hsum : add n q = (nearestEven ((n + q) * (2 * m)) : ℤ) / ((2 * m : ℕ) : ℚ) := by
    rw [add, round, hulp]
    push_cast
    rw [div_div_eq_mul_div, div_one, mul_one_div]
  have hge : (n * (2 * m) : ℤ) ≤ nearestEven ((n + q) * (2 * m)) := by
    rw [← nearestEven_intCast (n * (2 * m))]
    apply nearestEven_mono
    push_cast
    nlinarith
  have hle : nearestEven ((n + q) * (2 * m)) ≤ ((n + 1) * (2 * m) : ℤ) := by
    rw [← nearestEven_intCast ((n + 1) * (2 * m))]
    apply nearestEven_mono
    push_cast
    nlinarith
  have hcarry : ((n + 1) * (2 * m) : ℤ) ≤ nearestEven ((n + q) * (2 * m)) ↔
      1 - q ≤ 1 / (2 * (2 * m)) := by
    rw [le_nearestEven_iff ⟨(n + 1) * m, by ring⟩, le_div_iff₀ (by positivity)]
    push_cast
    constructor
    · intro h
      nlinarith
    · intro h
      nlinarith
  have hnonneg : 0 ≤ add n q := by
    rw [hsum]
    apply div_nonneg
    · exact_mod_cast le_trans (by positivity) hge
    · positivity
  rw [truncate, if_pos hnonneg, hsum, Rat.floor_intCast_div_natCast]
  push_cast
  split
  · rename_i h
    rw [le_antisymm hle (hcarry.mpr h), Int.mul_ediv_cancel _ (by positivity)]
  · rename_i h
    have hlt := not_le.mp (mt hcarry.mp h)
    apply le_antisymm
    · exact Int.lt_add_one_iff.mp (Int.ediv_lt_of_lt_mul (by positivity) hlt)
    · exact Int.le_ediv_of_mul_le (by positivity) hge

end Binary64
