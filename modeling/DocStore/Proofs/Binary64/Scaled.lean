import DocStore.Binary64.Decimal
import DocStore.Proofs.Binary64.Rounding
import Mathlib.Tactic.FieldSimp

/-!
# Scaling without overflow

A product or quotient of finite doubles is finite when the exact one is below the overflow bound
(`Binary64.isFinite_mul`, `Binary64.isFinite_div`). So an integer of 64 bits that is scaled by a
power of ten gives a finite double as long as the exact product stays a few units away from the
bound (`Binary64.isFinite_scaleByTens`). Scaled by the zeroth power, a double stays itself
(`Binary64.scaleByTens_zero`).
-/

namespace DocStore.Binary64

lemma cast_scaleDown_one (exponent : Int) (n : Nat) :
    ((scaleDown 2 (-exponent) n 1).1 : ℚ) / (scaleDown 2 (-exponent) n 1).2 =
      n * 2 ^ exponent := by
  rw [cast_scaleDown two_ne_zero, zpow_neg, div_inv_eq_mul]
  norm_num

variable {x y : Binary64}

lemma isFinite_mul (hx : x.isFinite = true) (hy : y.isFinite = true)
    (h : x.magnitude * y.magnitude < overflowBound) : (x.mul y).isFinite = true := by
  cases x with
  | nan | infinity => cases hx
  | finite s m e hm =>
    cases y with
    | nan | infinity => cases hy
    | finite t n f hn =>
      refine (isFinite_ofQuotient_and_magnitude_le _ _
        (scaleDown_snd_pos two_ne_zero Nat.one_pos _ _) ?_).1
      rw [cast_scaleDown_one, zpow_add₀ two_ne_zero]
      refine lt_of_eq_of_lt ?_ h
      rw [magnitude, magnitude]
      push_cast
      ring

lemma isFinite_div (hx : x.isFinite = true) (hy : y.isFinite = true) (hpos : 0 < y.magnitude)
    (h : x.magnitude / y.magnitude < overflowBound) :
    (x.div y).isFinite = true ∧ (x.div y).magnitude ≤ 2 * (x.magnitude / y.magnitude) := by
  cases x with
  | nan | infinity => cases hx
  | finite s m e hm =>
    cases y with
    | nan | infinity => cases hy
    | finite t n f hn =>
      have hne : n ≠ 0 := by
        rintro rfl
        simp [magnitude] at hpos
      have hvalue : ((scaleDown 2 (f - e) m n).1 : ℚ) / (scaleDown 2 (f - e) m n).2 =
          magnitude (.finite s m e hm) / magnitude (.finite t n f hn) := by
        rw [cast_scaleDown two_ne_zero, Nat.cast_ofNat, zpow_sub₀ two_ne_zero, magnitude, magnitude]
        field_simp
      rw [div, if_neg hne, ← hvalue]
      rw [← hvalue] at h
      exact isFinite_ofQuotient_and_magnitude_le _ _
        (scaleDown_snd_pos two_ne_zero (Nat.pos_of_ne_zero hne) _ _) h

lemma ten_pow_lt_overflowBound {exponent : Nat} (h : exponent ≤ tenExponentLimit) :
    (10 : ℚ) ^ exponent < overflowBound := by
  have hlimit : 10 ^ tenExponentLimit < (2 ^ 54 - 1) * 2 ^ 970 := by decide +kernel
  have hnat : 10 ^ exponent < (2 ^ 54 - 1) * 2 ^ 970 :=
    (Nat.pow_le_pow_right (by decide) h).trans_lt hlimit
  have hrat : ((10 ^ exponent : Nat) : ℚ) < ((2 ^ 54 - 1) * 2 ^ 970 : Nat) :=
    Nat.cast_lt.mpr hnat
  rw [Nat.cast_mul, Nat.cast_pow, Nat.cast_pow] at hrat
  rw [overflowBound, zpow_ofNat (2 : ℚ) 970]
  push_cast at hrat
  generalize (2 : ℚ) ^ 970 = unit at *
  norm_num at hrat ⊢
  exact hrat

/-- A power of ten among the doubles is rounded by a part in `2 ^ 53` at most. -/
lemma tenPower_bounds {exponent : Nat} (h : exponent ≤ tenExponentLimit) :
    (tenPower exponent).isFinite = true ∧
      (10 : ℚ) ^ exponent * (1 - 1 / 2 ^ 53) ≤ (tenPower exponent).magnitude ∧
      (tenPower exponent).magnitude ≤ 10 ^ exponent * (1 + 1 / 2 ^ 53) := by
  have hpos : 0 < Nat.pow 10 exponent := Nat.pow_pos (by decide)
  have hcast : ((Nat.pow 10 exponent : Nat) : ℚ) / (1 : Nat) = 10 ^ exponent := by simp
  have hone : (1 : ℚ) ≤ 10 ^ exponent := one_le_pow₀ (by norm_num)
  have hbound := ten_pow_lt_overflowBound h
  rw [← hcast] at hbound hone ⊢
  obtain ⟨hlo, hhi⟩ := magnitude_ofQuotient_bounds hpos Nat.one_pos false hbound hone
  exact ⟨(isFinite_ofQuotient hpos Nat.one_pos false hbound).1, hlo, hhi⟩

lemma tenPower_zero : tenPower 0 = .finite false (Nat.pow 2 52) (-52) (by decide) := by
  decide

theorem scaleByTens_zero (hx : x.isFinite = true) : x.scaleByTens 0 = x := by
  have hscale : x.scaleByTens 0 = x.mul (tenPower 0) := rfl
  rw [hscale, tenPower_zero]
  cases x with
  | nan | infinity => cases hx
  | finite negative mantissa exponent canonical =>
    rw [mul, Bool.xor_false]
    rcases Nat.eq_zero_or_pos mantissa with rfl | hpos
    · obtain rfl : exponent = -1074 := by
        obtain ⟨-, -, -, hnormal | hleast⟩ := canonical
        · exact absurd hnormal (by decide)
        · exact hleast
      rw [scaleDown, Nat.zero_mul]
      rfl
    · refine ofQuotient_eq_of_canonical ?_ (scaleDown_snd_pos two_ne_zero Nat.one_pos _ _)
        negative canonical ?_
      · exact Nat.mul_pos (Nat.mul_pos hpos (by decide)) (Nat.pow_pos (by decide))
      · have hcancel : (2 : ℚ) ^ 52 * 2 ^ (exponent + -52) = 2 ^ exponent := by
          rw [← zpow_natCast, ← zpow_add₀ two_ne_zero]
          congr 1
          omega
        rw [cast_scaleDown_one, Nat.pow_eq, Nat.cast_mul, Nat.cast_pow, Nat.cast_ofNat, mul_assoc,
          hcancel]

lemma le_overflowBound : (2 : ℚ) ^ 67 < overflowBound := by
  have hpow : (1 : ℚ) ≤ 2 ^ 956 := one_le_pow₀ one_le_two
  rw [overflowBound, zpow_ofNat (2 : ℚ) 970, show 970 = 14 + 956 from rfl, pow_add]
  generalize (2 : ℚ) ^ 956 = unit at *
  linarith

lemma isFinite_div_tenPower {exponent : Nat} (h : exponent ≤ tenExponentLimit)
    (hx : x.isFinite = true) (hle : x.magnitude ≤ 2 ^ 66) :
    (x.div (tenPower exponent)).isFinite = true ∧
      (x.div (tenPower exponent)).magnitude * 10 ^ exponent ≤ 2 ^ 68 := by
  obtain ⟨hten, hlo, -⟩ := tenPower_bounds h
  have hone : (1 : ℚ) ≤ 10 ^ exponent := one_le_pow₀ (by norm_num)
  have hhalf : (10 : ℚ) ^ exponent / 2 ≤ (tenPower exponent).magnitude := by linarith
  have hpos : 0 < (tenPower exponent).magnitude := by linarith
  have hquotient : x.magnitude / (tenPower exponent).magnitude * 10 ^ exponent ≤ 2 ^ 67 := by
    rw [div_mul_eq_mul_div, div_le_iff₀ hpos]
    have hnonneg := magnitude_nonneg x
    nlinarith
  have hsmall : x.magnitude / (tenPower exponent).magnitude ≤ 2 ^ 67 := by
    refine le_trans (le_mul_of_one_le_right ?_ hone) hquotient
    exact div_nonneg (magnitude_nonneg x) hpos.le
  obtain ⟨hfinite, hdouble⟩ := isFinite_div hx hten hpos (hsmall.trans_lt le_overflowBound)
  refine ⟨hfinite, ?_⟩
  have hscaled := mul_le_mul_of_nonneg_right hdouble (zero_le_one.trans hone)
  linarith

lemma isFinite_divideByTens (exponent : Nat) (hx : x.isFinite = true)
    (h : x.magnitude ≤ 2 ^ 66) : (x.divideByTens exponent).isFinite = true := by
  fun_induction divideByTens x exponent with
  | case1 x exponent hk => exact (isFinite_div_tenPower hk hx h).1
  | case2 x exponent hk hzero => exact hx
  | case3 x exponent hk hzero ih =>
    obtain ⟨hfinite, hle⟩ := isFinite_div_tenPower (Nat.le_refl _) hx h
    refine ih hfinite ?_
    have hten : (4 : ℚ) ≤ 10 ^ tenExponentLimit :=
      le_trans (by norm_num) (le_self_pow₀ (by norm_num : (1 : ℚ) ≤ 10) (by decide))
    have hnonneg := magnitude_nonneg (x.div (tenPower tenExponentLimit))
    generalize (10 : ℚ) ^ tenExponentLimit = power at *
    nlinarith

/-- Up to here a significand of 64 bits can be scaled by a power of ten: three roundings do not
reach the overflow bound. -/
def safeBound : ℚ := (2 ^ 54 - 7) * 2 ^ (970 : Int)

lemma safeBound_lt_ten_pow : safeBound < (10 : ℚ) ^ (tenExponentLimit + 1) := by
  have hnat : (2 ^ 54 - 7) * 2 ^ 970 < 10 ^ (tenExponentLimit + 1) := by decide +kernel
  have hrat : (((2 ^ 54 - 7) * 2 ^ 970 : Nat) : ℚ) < (10 ^ (tenExponentLimit + 1) : Nat) :=
    Nat.cast_lt.mpr hnat
  rw [Nat.cast_mul, Nat.cast_pow, Nat.cast_pow] at hrat
  rw [safeBound, zpow_ofNat (2 : ℚ) 970]
  push_cast at hrat
  generalize (2 : ℚ) ^ 970 = unit at *
  norm_num at hrat ⊢
  exact hrat

lemma magnitude_ofQuotient_one_le (negative : Bool) {significand : Nat}
    (h : significand < 2 ^ 64) :
    (ofQuotient negative significand 1).isFinite = true ∧
      (ofQuotient negative significand 1).magnitude ≤ significand * (1 + 1 / 2 ^ 53) := by
  rcases Nat.eq_zero_or_pos significand with rfl | hpos
  · simp [ofQuotient, zero, isFinite, magnitude]
  · have hcast : (significand : ℚ) < 2 ^ 64 := by exact_mod_cast h
    have hbound : (significand : ℚ) / (1 : Nat) < overflowBound := by
      have hlast := le_overflowBound
      rw [Nat.cast_one, div_one]
      linarith
    have hone : (1 : ℚ) ≤ significand / (1 : Nat) := by
      rw [Nat.cast_one, div_one]
      exact_mod_cast hpos
    obtain ⟨-, hhi⟩ := magnitude_ofQuotient_bounds hpos Nat.one_pos negative hbound hone
    rw [Nat.cast_one, div_one] at hhi
    exact ⟨(isFinite_ofQuotient hpos Nat.one_pos negative hbound).1, hhi⟩

/-- Two more roundings do not take a safe product to the overflow bound. -/
lemma isFinite_multiplyByTens (negative : Bool) {significand : Nat} (h : significand < 2 ^ 64)
    {exponent : Nat} (hsafe : (significand : ℚ) * 10 ^ exponent ≤ safeBound) :
    ((ofQuotient negative significand 1).multiplyByTens exponent).isFinite = true := by
  obtain ⟨hfinite, hhi⟩ := magnitude_ofQuotient_one_le negative h
  unfold multiplyByTens
  split
  · rename_i hk
    obtain ⟨hten, -, hten_hi⟩ := tenPower_bounds hk
    refine isFinite_mul hfinite hten ?_
    calc (ofQuotient negative significand 1).magnitude * (tenPower exponent).magnitude
        ≤ significand * (1 + 1 / 2 ^ 53) * (10 ^ exponent * (1 + 1 / 2 ^ 53)) :=
          mul_le_mul hhi hten_hi (magnitude_nonneg _) (by positivity)
      _ = significand * 10 ^ exponent * (1 + 1 / 2 ^ 53) ^ 2 := by ring
      _ ≤ safeBound * (1 + 1 / 2 ^ 53) ^ 2 :=
          mul_le_mul_of_nonneg_right hsafe (by positivity)
      _ < overflowBound := by
          have hunit : (0 : ℚ) < 2 ^ (970 : Int) := by positivity
          rw [safeBound, overflowBound]
          generalize (2 : ℚ) ^ (970 : Int) = unit at *
          linarith
  · rename_i hk
    split
    · exact hfinite
    · rename_i hzero
      have hpos : significand ≠ 0 := by
        rintro rfl
        simp [ofQuotient, zero, isZero, numEq] at hzero
      have hone : (1 : ℚ) ≤ significand := by exact_mod_cast Nat.one_le_iff_ne_zero.mpr hpos
      have hpower : (10 : ℚ) ^ (tenExponentLimit + 1) ≤ 10 ^ exponent :=
        pow_le_pow_right₀ (by norm_num) (Nat.not_le.mp hk)
      have hlast := safeBound_lt_ten_pow
      have hscaled : (10 : ℚ) ^ exponent ≤ significand * 10 ^ exponent :=
        le_mul_of_one_le_left (by positivity) hone
      exact absurd hlast (not_lt_of_ge (hpower.trans (hscaled.trans hsafe)))

/-- An integer of 64 bits times a power of ten is finite as long as the exact product is safe. -/
theorem isFinite_scaleByTens (negative : Bool) {significand : Nat} (h : significand < 2 ^ 64)
    {exponent : Int} (hsafe : (significand : ℚ) * 10 ^ exponent ≤ safeBound) :
    ((ofQuotient negative significand 1).scaleByTens exponent).isFinite = true := by
  unfold scaleByTens
  split
  · rename_i hnonneg
    refine isFinite_multiplyByTens negative h ?_
    rw [← Int.toNat_of_nonneg hnonneg, zpow_natCast] at hsafe
    exact hsafe
  · obtain ⟨hfinite, hhi⟩ := magnitude_ofQuotient_one_le negative h
    refine isFinite_divideByTens _ hfinite (hhi.trans ?_)
    have hcast : (significand : ℚ) < 2 ^ 64 := by exact_mod_cast h
    linarith

end DocStore.Binary64
