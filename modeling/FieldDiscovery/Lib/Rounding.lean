import FieldDiscovery.Lib.Number

/-!
# Rounding is monotone

Rounding to the nearest double respects the order of the rationals (`roundDouble_mono`). Two numbers
with one last binary digit are rounded on one grid; otherwise a power of two that both grids have lies
between them.
-/

namespace Py

theorem floor_le_roundHalfEven (q : ℚ) : ⌊q⌋ ≤ roundHalfEven q := by
  have hparity := Int.emod_two_eq_zero_or_one ⌊q⌋
  unfold roundHalfEven
  split
  · exact le_rfl
  · split <;> omega

theorem roundHalfEven_le_floor (q : ℚ) : roundHalfEven q ≤ ⌊q⌋ + 1 := by
  have hparity := Int.emod_two_eq_zero_or_one ⌊q⌋
  unfold roundHalfEven
  split
  · omega
  · split <;> omega

theorem roundHalfEven_mono {q q' : ℚ} (h : q ≤ q') : roundHalfEven q ≤ roundHalfEven q' := by
  rcases (Int.floor_le_floor h).lt_or_eq with hlt | heq
  · exact (roundHalfEven_le_floor q).trans (Int.add_one_le_iff.mpr hlt |>.trans (floor_le_roundHalfEven q'))
  · have hparity := Int.emod_two_eq_zero_or_one ⌊q'⌋
    unfold roundHalfEven
    rw [heq]
    by_cases hbelow : q - ⌊q'⌋ < 1 / 2
    · rw [if_pos hbelow]
      have hfloor := floor_le_roundHalfEven q'
      unfold roundHalfEven at hfloor
      exact hfloor
    · have hbelow' : ¬ q' - ⌊q'⌋ < 1 / 2 := fun h' => hbelow (by linarith)
      rw [if_neg hbelow, if_neg hbelow']
      by_cases habove : 1 / 2 < q - ⌊q'⌋
      · rw [if_pos habove, if_pos (by linarith)]
      · rw [if_neg habove]
        split <;> omega

theorem roundHalfEven_intCast (n : ℤ) : roundHalfEven n = n := by
  rw [roundHalfEven, Int.floor_intCast, sub_self, if_pos (by norm_num)]

theorem roundHalfEven_neg (q : ℚ) : roundHalfEven (-q) = -roundHalfEven q := by
  have hlo := Int.floor_le q
  have hhi := Int.lt_floor_add_one q
  rcases hlo.eq_or_lt with heq | hlt
  · rw [← heq, ← Int.cast_neg, roundHalfEven_intCast, roundHalfEven_intCast]
  · -- the fractions of `q` and `-q` add up to one
    have hfloor : ⌊-q⌋ = -⌊q⌋ - 1 := by
      rw [Int.floor_eq_iff]
      push_cast
      constructor <;> linarith
    have hparity := Int.emod_two_eq_zero_or_one ⌊q⌋
    unfold roundHalfEven
    rw [hfloor]
    push_cast
    by_cases hbelow : q - ⌊q⌋ < 1 / 2
    · rw [if_pos hbelow, if_neg (by linarith), if_pos (by linarith)]
      omega
    · by_cases habove : 1 / 2 < q - ⌊q⌋
      · rw [if_neg hbelow, if_pos habove, if_pos (by linarith)]
        omega
      · rw [if_neg hbelow, if_neg habove, if_neg (by linarith), if_neg (by linarith)]
        omega

/-- The double nearest to `q`, as if doubles had no greatest exponent: `toDouble` where it returns. -/
def roundDouble (q : ℚ) : ℚ := roundHalfEven (q / 2 ^ ulpExponent q) * (2 : ℚ) ^ ulpExponent q

theorem ulpExponent_neg (q : ℚ) : ulpExponent (-q) = ulpExponent q := by
  unfold ulpExponent
  rw [abs_neg]

theorem roundDouble_neg (q : ℚ) : roundDouble (-q) = -roundDouble q := by
  unfold roundDouble
  rw [ulpExponent_neg, neg_div, roundHalfEven_neg]
  push_cast
  ring

theorem roundDouble_nonneg {q : ℚ} (h : 0 ≤ q) : 0 ≤ roundDouble q := by
  have hpos : (0 : ℚ) < 2 ^ ulpExponent q := by positivity
  have hround : 0 ≤ roundHalfEven (q / 2 ^ ulpExponent q) := by
    have hmono := roundHalfEven_mono (div_nonneg h hpos.le)
    rwa [← Int.cast_zero, roundHalfEven_intCast] at hmono
  exact mul_nonneg (Int.cast_nonneg hround) hpos.le

/-- A power of two above a number is above its double, when it lies on the grid. -/
theorem roundDouble_le {q : ℚ} {k : ℤ} (h : q ≤ 2 ^ k) (hk : ulpExponent q ≤ k) :
    roundDouble q ≤ 2 ^ k := by
  obtain ⟨n, hn⟩ := Int.eq_ofNat_of_zero_le (sub_nonneg.mpr hk)
  have hpos : (0 : ℚ) < 2 ^ ulpExponent q := by positivity
  have hsplit : (2 : ℚ) ^ k = ((2 ^ n : ℤ) : ℚ) * 2 ^ ulpExponent q := by
    rw [Int.cast_pow, Int.cast_ofNat, ← zpow_natCast, ← zpow_add₀ two_ne_zero]
    congr 1
    omega
  have hround : roundHalfEven (q / 2 ^ ulpExponent q) ≤ 2 ^ n := by
    rw [← roundHalfEven_intCast (2 ^ n)]
    refine roundHalfEven_mono ?_
    rwa [div_le_iff₀ hpos, ← hsplit]
  rw [roundDouble, hsplit]
  exact mul_le_mul_of_nonneg_right (Int.cast_le.mpr hround) hpos.le

/-- A power of two below a number is below its double, when it lies on the grid. -/
theorem le_roundDouble {q : ℚ} {k : ℤ} (h : 2 ^ k ≤ q) (hk : ulpExponent q ≤ k) :
    2 ^ k ≤ roundDouble q := by
  obtain ⟨n, hn⟩ := Int.eq_ofNat_of_zero_le (sub_nonneg.mpr hk)
  have hpos : (0 : ℚ) < 2 ^ ulpExponent q := by positivity
  have hsplit : (2 : ℚ) ^ k = ((2 ^ n : ℤ) : ℚ) * 2 ^ ulpExponent q := by
    rw [Int.cast_pow, Int.cast_ofNat, ← zpow_natCast, ← zpow_add₀ two_ne_zero]
    congr 1
    omega
  have hround : 2 ^ n ≤ roundHalfEven (q / 2 ^ ulpExponent q) := by
    rw [← roundHalfEven_intCast (2 ^ n)]
    refine roundHalfEven_mono ?_
    rwa [le_div_iff₀ hpos, ← hsplit]
  rw [roundDouble, hsplit]
  exact mul_le_mul_of_nonneg_right (Int.cast_le.mpr hround) hpos.le

theorem roundDouble_mono_pos {q q' : ℚ} (hq : 0 < q) (h : q ≤ q') :
    roundDouble q ≤ roundDouble q' := by
  have hq' : 0 < q' := hq.trans_le h
  have hlog : Int.log 2 q ≤ Int.log 2 q' := Int.log_mono_right hq h
  have hexp : ulpExponent q = max (Int.log 2 q - 52) (-1074) := by rw [ulpExponent, abs_of_pos hq]
  have hexp' : ulpExponent q' = max (Int.log 2 q' - 52) (-1074) := by
    rw [ulpExponent, abs_of_pos hq']
  rcases eq_or_ne (ulpExponent q) (ulpExponent q') with heq | hne
  · have hpos : (0 : ℚ) < 2 ^ ulpExponent q' := by positivity
    unfold roundDouble
    rw [heq]
    refine mul_le_mul_of_nonneg_right (Int.cast_le.mpr (roundHalfEven_mono ?_)) hpos.le
    exact div_le_div_of_nonneg_right h hpos.le
  · have hlt : q < (2 : ℚ) ^ Int.log 2 q' := by
      have hsucc := Int.lt_zpow_succ_log_self (b := 2) Nat.one_lt_two q
      refine hsucc.trans_le (zpow_le_zpow_right₀ one_le_two ?_)
      omega
    have hge : (2 : ℚ) ^ Int.log 2 q' ≤ q' := Int.zpow_log_le_self Nat.one_lt_two hq'
    exact (roundDouble_le hlt.le (by omega)).trans (le_roundDouble hge (by omega))

/-- Doubles are in the order of the numbers that were rounded to them. -/
theorem roundDouble_mono {q q' : ℚ} (h : q ≤ q') : roundDouble q ≤ roundDouble q' := by
  rcases lt_or_ge 0 q with hq | hq
  · exact roundDouble_mono_pos hq h
  · rcases lt_or_ge q' 0 with hq' | hq'
    · have hneg := roundDouble_mono_pos (neg_pos.mpr hq') (neg_le_neg h)
      rwa [roundDouble_neg, roundDouble_neg, neg_le_neg_iff] at hneg
    · have hneg := roundDouble_nonneg (neg_nonneg.mpr hq)
      rw [roundDouble_neg, neg_nonneg] at hneg
      exact hneg.trans (roundDouble_nonneg hq')

end Py
