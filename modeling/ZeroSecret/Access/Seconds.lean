import ZeroSecret.Access.Broker

/-!
# The whole seconds of a duration

`Duration.Seconds` adds the nanoseconds that are left to the whole seconds as
floats, and what is read off the sum is its integer part. A duration that
lacks too little to its next second is read as that second. How little is too
little depends on the size of the number; here it is said without floats.
-/

namespace ZeroSecret.Access

open Policy

/-- What `t` nanoseconds lack to `n` seconds is at most half a unit in the last
place of the second before. -/
def Reaches (t n : ℕ) : Prop := (n * 10 ^ 9 - t) * 2 ^ 53 ≤ 2 ^ Nat.log 2 (n - 1) * 10 ^ 9

instance (t n : ℕ) : Decidable (Reaches t n) := inferInstanceAs (Decidable (_ ≤ _))

/-- `t` nanoseconds are read as `n` seconds. -/
def ReadAs (t n : ℕ) : Prop := Reaches t n ∧ ¬ Reaches t (n + 1)

instance (t n : ℕ) : Decidable (ReadAs t n) := inferInstanceAs (Decidable (_ ∧ _))

/-! ## One second or the next -/

theorem reaches_of_le {t n : ℕ} (h : n ≤ t / 10 ^ 9) : Reaches t n := by
  have hle : n * 10 ^ 9 ≤ t := (Nat.le_div_iff_mul_le (by norm_num)).mp h
  rw [Reaches, Nat.sub_eq_zero_of_le hle, Nat.zero_mul]
  exact Nat.zero_le _

/-- A whole second is not made up for, as long as the seconds have 34 bits. -/
theorem not_reaches_of_lt {t n : ℕ} (ht : t / 10 ^ 9 < 2 ^ 34) (h : t / 10 ^ 9 + 1 < n) :
    ¬ Reaches t n := by
  have hlog : 2 ^ Nat.log 2 (n - 1) ≤ n - 1 := Nat.pow_log_le_self 2 (by omega)
  intro hreach
  rw [Reaches] at hreach
  generalize 2 ^ Nat.log 2 (n - 1) = unit at hlog hreach
  omega

theorem readAs_iff {t n : ℕ} (ht : t / 10 ^ 9 < 2 ^ 34) :
    ReadAs t n ↔ n = if Reaches t (t / 10 ^ 9 + 1) then t / 10 ^ 9 + 1 else t / 10 ^ 9 := by
  constructor
  · rintro ⟨hreach, hnext⟩
    have hlow : t / 10 ^ 9 ≤ n := by
      by_contra hlt
      exact hnext (reaches_of_le (by omega))
    have hhigh : n ≤ t / 10 ^ 9 + 1 := by
      by_contra hlt
      exact not_reaches_of_lt ht (by omega) hreach
    rcases Nat.lt_or_eq_of_le hhigh with hlt | rfl
    · obtain rfl : n = t / 10 ^ 9 := by omega
      rw [if_neg hnext]
    · rw [if_pos hreach]
  · intro h
    split at h
    · rename_i hreach
      rw [h]
      exact ⟨hreach, not_reaches_of_lt ht (by omega)⟩
    · rename_i hreach
      rw [h]
      exact ⟨reaches_of_le le_rfl, hreach⟩

theorem readAs_bounds {t n : ℕ} (ht : t / 10 ^ 9 < 2 ^ 34) (h : ReadAs t n) :
    t / 10 ^ 9 ≤ n ∧ n ≤ t / 10 ^ 9 + 1 := by
  rw [readAs_iff ht] at h
  split at h <;> omega

theorem lt_of_readAs {t n : ℕ} (h : ReadAs t n) : t < (n + 1) * 10 ^ 9 := by
  by_contra hle
  exact h.2 (reaches_of_le ((Nat.le_div_iff_mul_le (by norm_num)).mpr (not_lt.mp hle)))

/-! ## The float -/

/-- No number of nanoseconds comes close to half a unit: half a unit is an odd
number of them over a power of two. -/
theorem unit_gap {j e : ℕ} (he : e < 34) :
    (500000000 : ℤ) < |(j : ℤ) * 2 ^ 53 - 2 ^ e * 10 ^ 9| := by
  have hrest : ∀ e < 34, 500000000 < 2 ^ e * 10 ^ 9 % 2 ^ 53 ∧
      2 ^ e * 10 ^ 9 % 2 ^ 53 + 500000000 < 2 ^ 53 := by decide
  have h := hrest e he
  have hcast : (2 ^ e * 10 ^ 9 : ℤ) = ((2 ^ e * 10 ^ 9 : ℕ) : ℤ) := by push_cast; rfl
  rw [hcast]
  generalize 2 ^ e * 10 ^ 9 = unit at h
  norm_num at h ⊢
  rw [lt_abs]
  omega

/-- Rounding the fraction first does not decide whether it reaches. -/
theorem fraction_reaches_iff {k j e : ℕ} (hk : k < 10 ^ 9) (hj : k + j = 10 ^ 9) (he : e < 34) :
    1 - Binary64.div (Binary64.ofInt k) 1000000000 ≤ 2 ^ e / 2 ^ 53 ↔
      j * 2 ^ 53 ≤ 2 ^ e * 10 ^ 9 := by
  have hexact : Binary64.ofInt k = k := Binary64.ofInt_natCast (by omega)
  have hrest : (1 : ℚ) - k / 1000000000 = j / 1000000000 := by
    have hsum : (k : ℚ) + j = 10 ^ 9 := by exact_mod_cast hj
    rw [eq_div_iff (by norm_num), sub_mul, div_mul_cancel₀ _ (by norm_num)]
    linarith
  have hsides : (j : ℚ) / 1000000000 ≤ 2 ^ e / 2 ^ 53 ↔ j * 2 ^ 53 ≤ 2 ^ e * 10 ^ 9 := by
    rw [div_le_div_iff₀ (by norm_num) (by norm_num), ← @Nat.cast_le ℚ]
    push_cast
    norm_num
  rw [Binary64.div, hexact, ← hsides, ← hrest]
  rcases Nat.eq_zero_or_pos k with rfl | hpos
  · rw [Nat.cast_zero, zero_div, Binary64.round_zero]
  · apply Binary64.one_sub_round_le_iff
    · positivity
    · rw [div_lt_one (by norm_num)]
      norm_num at hk
      exact_mod_cast hk
    · have hgap : (500000000 : ℚ) < |(j : ℚ) * 2 ^ 53 - 2 ^ e * 10 ^ 9| := by
        have h := Int.cast_lt (R := ℚ) |>.mpr (@unit_gap j e he)
        push_cast at h
        exact h
      have hscale : (j : ℚ) / 1000000000 - 2 ^ e / 2 ^ 53 =
          (j * 2 ^ 53 - 2 ^ e * 10 ^ 9) / (2 ^ 53 * 10 ^ 9) := by
        field_simp
        ring
      rw [hrest, hscale, abs_div, abs_of_pos (by norm_num : (0 : ℚ) < 2 ^ 53 * 10 ^ 9),
        lt_div_iff₀ (by norm_num)]
      refine lt_of_le_of_lt ?_ hgap
      norm_num

/-- Less than a second stays less than a second, by half a nanosecond. -/
theorem fraction_bounds {k : ℕ} (hk : k < 10 ^ 9) :
    0 ≤ Binary64.div (Binary64.ofInt k) 1000000000 ∧
      Binary64.div (Binary64.ofInt k) 1000000000 ≤ 1 - 1 / (2 * 10 ^ 9) := by
  have hexact : Binary64.ofInt k = k := Binary64.ofInt_natCast (by omega)
  rw [Binary64.div, hexact]
  rcases Nat.eq_zero_or_pos k with rfl | hpos
  · rw [Nat.cast_zero, zero_div, Binary64.round_zero]
    norm_num
  · have hone : (1 : ℚ) ≤ k := by exact_mod_cast hpos
    have hlast : (k : ℚ) + 1 ≤ 10 ^ 9 := by exact_mod_cast hk
    have hlow : (1 : ℚ) / 10 ^ 9 ≤ k / 1000000000 := by linarith
    have hhigh : (k : ℚ) / 1000000000 ≤ 1 - 1 / 10 ^ 9 := by linarith
    generalize (k : ℚ) / 1000000000 = q at hlow hhigh
    have herror := abs_le.mp
      (Binary64.round_error_of_lt_one (by linarith : 0 < q) (by linarith))
    constructor
    · linarith [herror.2]
    · linarith [herror.1]

theorem truncate_fraction {q : ℚ} (h0 : 0 ≤ q) (h1 : q ≤ 1 - 1 / (2 * 10 ^ 9)) :
    Binary64.truncate (Binary64.add 0 q) = 0 := by
  rw [Binary64.add, zero_add]
  rcases h0.eq_or_lt with rfl | hpos
  · rw [Binary64.round_zero]
    rfl
  · have herror := abs_le.mp (Binary64.round_error_of_lt_one hpos (by linarith))
    have hnonneg := Binary64.round_nonneg h0
    rw [Binary64.truncate, if_pos hnonneg, Int.floor_eq_zero_iff]
    exact ⟨hnonneg, by linarith [herror.1]⟩

/-- **The seconds of a duration**, read off the float. -/
theorem truncate_floatSeconds {t : ℕ} (ht : t / 10 ^ 9 < 2 ^ 34) :
    Binary64.truncate (floatSeconds t) =
      ((if Reaches t (t / 10 ^ 9 + 1) then t / 10 ^ 9 + 1 else t / 10 ^ 9 : ℕ) : ℤ) := by
  have hparts : floatSeconds t = Binary64.add (Binary64.ofInt (t / 10 ^ 9 : ℕ))
      (Binary64.div (Binary64.ofInt (t % 10 ^ 9 : ℕ)) 1000000000) := rfl
  have hk : t % 10 ^ 9 < 10 ^ 9 := Nat.mod_lt _ (by norm_num)
  have hwhole : Binary64.ofInt (t / 10 ^ 9 : ℕ) = (t / 10 ^ 9 : ℕ) :=
    Binary64.ofInt_natCast (by omega)
  obtain ⟨j, hj⟩ := Nat.exists_eq_add_of_le hk.le
  have hreach : Reaches t (t / 10 ^ 9 + 1) ↔
      j * 2 ^ 53 ≤ 2 ^ Nat.log 2 (t / 10 ^ 9) * 10 ^ 9 := by
    rw [Reaches, Nat.add_sub_cancel, show (t / 10 ^ 9 + 1) * 10 ^ 9 - t = j by omega]
  obtain ⟨h0, h1⟩ := fraction_bounds hk
  simp only [hparts, hwhole, hreach]
  generalize t % 10 ^ 9 = k at hk hj h0 h1
  generalize t / 10 ^ 9 = s at ht
  rcases Nat.eq_zero_or_pos s with rfl | hpos
  · have hnever : ¬ j * 2 ^ 53 ≤ 2 ^ Nat.log 2 0 * 10 ^ 9 := by
      rw [Nat.log_zero_right]
      omega
    rw [if_neg hnever, Nat.cast_zero, truncate_fraction h0 h1]
    rfl
  · have hlog : Nat.log 2 s < 34 := Nat.log_lt_of_lt_pow hpos.ne' ht
    rw [Binary64.truncate_add_fraction hpos (by omega) h0 (by linarith)]
    simp only [fraction_reaches_iff hk hj.symm hlog]
    split
    · rfl
    · rfl

theorem floatSeconds_neg (x : ℤ) : floatSeconds (-x) = -floatSeconds x := by
  simp only [floatSeconds, Binary64.add, Binary64.div, Int.neg_tdiv, Int.neg_tmod,
    Binary64.ofInt_neg, neg_div, Binary64.round_neg, ← neg_add]

/-- A negative duration is read as its opposite. -/
theorem truncate_floatSeconds_int {x : ℤ} (hx : x.natAbs / 10 ^ 9 < 2 ^ 34) :
    ∃ n, ReadAs x.natAbs n ∧
      Binary64.truncate (floatSeconds x) = if 0 ≤ x then (n : ℤ) else -n := by
  refine ⟨_, (readAs_iff hx).mpr rfl, ?_⟩
  rw [← truncate_floatSeconds hx]
  split
  · rename_i hnonneg
    rw [Int.natAbs_of_nonneg hnonneg]
  · rename_i hneg
    rw [Int.ofNat_natAbs_of_nonpos (by omega), floatSeconds_neg, Binary64.truncate_neg, neg_neg]

/-! ## What is recorded -/

def nanoseconds (d : ProtoDuration) : ℤ := d.seconds.toInt * 10 ^ 9 + d.nanos.toInt

/-- Saturation is far from every number of seconds that 32 bits hold. -/
theorem asDuration_cases (d : ProtoDuration) :
    asDuration d = nanoseconds d ∧ (nanoseconds d).natAbs ≤ 2 ^ 63 ∨
      2 ^ 33 ≤ d.seconds.toInt ∧ asDuration d = 2 ^ 63 - 1 ∨
      d.seconds.toInt ≤ -2 ^ 33 - 8 ∧ asDuration d = -2 ^ 63 := by
  have hnanos := d.nanos.toInt_lt
  have hnanos' := d.nanos.le_toInt
  have hsign : d.seconds < 0 ↔ d.seconds.toInt < 0 := Int64.lt_iff_toInt_lt
  simp only [asDuration, nanoseconds]
  by_cases hneg : d.seconds < 0
  · have := hsign.mp hneg
    rw [if_pos hneg]
    split
    · right
      right
      omega
    · left
      omega
  · have := mt hsign.mpr hneg
    rw [if_neg hneg]
    split
    · right
      left
      omega
    · left
      omega

theorem toNat_ofNat_emod (x : ℤ) : ((UInt32.ofNat (x % 2 ^ 32).toNat).toNat : ℤ) = x % 2 ^ 32 := by
  have hlt : (x % 2 ^ 32).toNat < UInt32.size := by
    change (x % 2 ^ 32).toNat < 2 ^ 32
    omega
  rw [UInt32.toNat_ofNat_of_lt' hlt]
  omega

/-- **When the recorded lifetime is the number of seconds**: they fit 32 bits
and the nanoseconds leave them as they are. -/
theorem recorded_eq_seconds_iff {d : ProtoDuration} (h : 0 ≤ d.seconds.toInt) :
    durationSeconds d % 2 ^ 32 = d.seconds.toInt ↔
      d.seconds.toInt < 2 ^ 32 ∧ (0 ≤ nanoseconds d ∨ d.seconds.toInt = 0) ∧
        ReadAs (nanoseconds d).natAbs d.seconds.toInt.toNat := by
  have hnanos := d.nanos.toInt_lt
  have hnanos' := d.nanos.le_toInt
  by_cases hfit : d.seconds.toInt < 2 ^ 32
  · obtain ⟨hdur, -⟩ | ⟨hbig, -⟩ | ⟨hsmall, -⟩ := asDuration_cases d
    · have hlt : (nanoseconds d).natAbs / 10 ^ 9 < 2 ^ 34 := by
        rw [nanoseconds]
        omega
      obtain ⟨n, hread, hval⟩ := truncate_floatSeconds_int hlt
      have hunique := readAs_iff (n := d.seconds.toInt.toNat) hlt
      rw [← (readAs_iff hlt).mp hread] at hunique
      have hbounds := readAs_bounds hlt hread
      rw [durationSeconds, hdur, hval, hunique]
      rw [nanoseconds] at hbounds ⊢
      split
      · omega
      · omega
    · omega
    · omega
  · constructor
    · intro heq
      omega
    · rintro ⟨hlt, -⟩
      exact absurd hlt hfit

/-- Of a negative lifetime nothing is recorded when the seconds that are read
vanish in 32 bits. -/
theorem recorded_eq_zero_iff {d : ProtoDuration} (h : d.seconds.toInt < 0) :
    durationSeconds d % 2 ^ 32 = 0 ↔ ∃ k ≤ 2, ReadAs (nanoseconds d).natAbs (k * 2 ^ 32) := by
  have hnanos := d.nanos.toInt_lt
  have hnanos' := d.nanos.le_toInt
  obtain ⟨hdur, hle⟩ | ⟨hbig, -⟩ | ⟨hsmall, hdur⟩ := asDuration_cases d
  · have hlt : (nanoseconds d).natAbs / 10 ^ 9 < 2 ^ 34 := by omega
    obtain ⟨n, hread, hval⟩ := truncate_floatSeconds_int hlt
    have hunique (m : ℕ) : ReadAs (nanoseconds d).natAbs m ↔ m = n := by
      rw [readAs_iff hlt, ← (readAs_iff hlt).mp hread]
    have hbounds := readAs_bounds hlt hread
    rw [durationSeconds, hdur, hval]
    simp only [hunique]
    constructor
    · intro hzero
      refine ⟨n / 2 ^ 32, by omega, ?_⟩
      split at hzero
      · omega
      · omega
    · rintro ⟨k, -, rfl⟩
      split
      · omega
      · omega
  · omega
  · constructor
    · intro hzero
      have hlt : (-2 ^ 63 : ℤ).natAbs / 10 ^ 9 < 2 ^ 34 := by decide
      obtain ⟨n, hread, hval⟩ := truncate_floatSeconds_int hlt
      have hbounds := readAs_bounds hlt hread
      rw [durationSeconds, hdur, hval, if_neg (by omega)] at hzero
      omega
    · rintro ⟨k, hk, hread⟩
      have := lt_of_readAs hread
      rw [nanoseconds] at this
      omega

end ZeroSecret.Access
