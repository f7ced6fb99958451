import DocStore.Binary64.Basic
import Mathlib.Algebra.Order.Field.Power
import Mathlib.Data.Rat.Cast.Order
import Mathlib.Tactic.Linarith
import Mathlib.Tactic.NormNum
import Mathlib.Tactic.Positivity
import Mathlib.Tactic.Ring

/-!
# Rounding to doubles

`Binary64.magnitude` is the rational number that a finite double stands for, up to its sign. A
quotient below `Binary64.overflowBound` is rounded to a finite double
(`Binary64.isFinite_ofQuotient`), which lies above it by a part in `2 ^ 53` at most
(`Binary64.magnitude_ofQuotient_bounds`); and a quotient that is rounded to a double lies above it
by half a unit in the last place at most (`Binary64.le_of_ofQuotient_eq`). A quotient that is a
double is rounded to itself (`Binary64.ofQuotient_eq_of_canonical`).
-/

namespace DocStore

lemma roundHalfEven_cases (numerator denominator : Nat) :
    (roundHalfEven numerator denominator = numerator / denominator ∧
      2 * (numerator % denominator) ≤ denominator) ∨
    (roundHalfEven numerator denominator = numerator / denominator + 1 ∧
      denominator ≤ 2 * (numerator % denominator)) := by
  unfold roundHalfEven
  dsimp only
  split
  · omega
  · split
    · omega
    · rcases Nat.mod_two_eq_zero_or_one (numerator / denominator) with h | h <;> omega

lemma roundHalfEven_mul_bounds (numerator : Nat) {denominator : Nat} (hpos : 0 < denominator) :
    2 * (roundHalfEven numerator denominator * denominator) ≤ 2 * numerator + denominator ∧
      2 * numerator ≤ 2 * (roundHalfEven numerator denominator * denominator) + denominator := by
  have hdiv := Nat.div_add_mod' numerator denominator
  have hmod := Nat.mod_lt numerator hpos
  rcases roundHalfEven_cases numerator denominator with ⟨hround, hrest⟩ | ⟨hround, hrest⟩
  · rw [hround]
    omega
  · rw [hround, Nat.add_mul]
    omega

lemma roundHalfEven_mul_le_two_mul (numerator denominator : Nat) :
    roundHalfEven numerator denominator * denominator ≤ 2 * numerator := by
  have hdiv := Nat.div_add_mod' numerator denominator
  rcases roundHalfEven_cases numerator denominator with ⟨hround, hrest⟩ | ⟨hround, hrest⟩
  · rw [hround]
    omega
  · rcases Nat.eq_zero_or_pos (numerator / denominator) with hzero | hquotient
    · -- A numerator that is rounded up to 1 is half the denominator or more.
      rw [hzero] at hdiv
      rw [hround, hzero]
      omega
    · have hle := Nat.le_mul_of_pos_left denominator hquotient
      rw [hround, Nat.add_mul]
      omega

lemma cast_scaleDown {base : Nat} (hbase : base ≠ 0) (exponent : Int)
    (numerator denominator : Nat) :
    ((scaleDown base exponent numerator denominator).1 : ℚ) /
        (scaleDown base exponent numerator denominator).2 =
      numerator / denominator / (base : ℚ) ^ exponent := by
  have hne : (base : ℚ) ≠ 0 := Nat.cast_ne_zero.mpr hbase
  simp only [scaleDown, Nat.pow_eq, Nat.cast_mul, Nat.cast_pow]
  rcases Int.le_total 0 exponent with h | h
  · obtain ⟨n, rfl⟩ := Int.eq_ofNat_of_zero_le h
    simp [div_div]
  · obtain ⟨n, hn⟩ := Int.eq_ofNat_of_zero_le (Int.neg_nonneg.mpr h)
    obtain rfl : exponent = -n := by omega
    simp [mul_div_right_comm]

lemma scaleDown_snd_pos {base denominator : Nat} (hbase : base ≠ 0) (hpos : 0 < denominator)
    (exponent : Int) (numerator : Nat) :
    0 < (scaleDown base exponent numerator denominator).2 :=
  Nat.mul_pos hpos (Nat.pow_pos (Nat.pos_of_ne_zero hbase))

lemma floorLog2_bounds {numerator denominator : Nat} (hn : 0 < numerator) (hd : 0 < denominator) :
    (2 : ℚ) ^ floorLog2 numerator denominator ≤ numerator / denominator ∧
      (numerator / denominator : ℚ) < 2 ^ (floorLog2 numerator denominator + 1) := by
  have hdpos : (0 : ℚ) < denominator := by exact_mod_cast hd
  have htwo : (2 : ℚ) ≠ 0 := two_ne_zero
  have hnlo : (2 : ℚ) ^ (numerator.log2 : Int) ≤ numerator := by
    exact_mod_cast Nat.log2_self_le hn.ne'
  have hnhi : (numerator : ℚ) < 2 ^ ((numerator.log2 : Int) + 1) := by
    exact_mod_cast (Nat.lt_log2_self : numerator < 2 ^ (numerator.log2 + 1))
  have hdlo : (2 : ℚ) ^ (denominator.log2 : Int) ≤ denominator := by
    exact_mod_cast Nat.log2_self_le hd.ne'
  have hdhi : (denominator : ℚ) < 2 ^ ((denominator.log2 : Int) + 1) := by
    exact_mod_cast (Nat.lt_log2_self : denominator < 2 ^ (denominator.log2 + 1))
  have hscaled := cast_scaleDown two_ne_zero ((numerator.log2 : Int) - denominator.log2)
    numerator denominator
  have hsnd := scaleDown_snd_pos two_ne_zero hd ((numerator.log2 : Int) - denominator.log2)
    numerator
  have hpower : (0 : ℚ) < 2 ^ ((numerator.log2 : Int) - denominator.log2) := by positivity
  unfold floorLog2
  dsimp only
  generalize scaleDown 2 ((numerator.log2 : Int) - denominator.log2) numerator denominator =
    scaled at *
  have hsndpos : (0 : ℚ) < scaled.2 := by exact_mod_cast hsnd
  have hguess : scaled.2 ≤ scaled.1 ↔
      (2 : ℚ) ^ ((numerator.log2 : Int) - denominator.log2) ≤ numerator / denominator := by
    rw [← one_le_div hpower, ← Nat.cast_ofNat (n := 2), ← hscaled, one_le_div hsndpos,
      Nat.cast_le]
  split
  · rename_i hle
    refine ⟨hguess.mp hle, ?_⟩
    rw [div_lt_iff₀ hdpos]
    calc (numerator : ℚ) < 2 ^ ((numerator.log2 : Int) + 1) := hnhi
      _ = 2 ^ ((numerator.log2 : Int) - denominator.log2 + 1) * 2 ^ (denominator.log2 : Int) := by
        rw [← zpow_add₀ htwo]
        congr 1
        omega
      _ ≤ _ := mul_le_mul_of_nonneg_left hdlo (by positivity)
  · rename_i hlt
    refine ⟨?_, ?_⟩
    · rw [le_div_iff₀ hdpos]
      calc (2 : ℚ) ^ ((numerator.log2 : Int) - denominator.log2 - 1) * denominator
          ≤ 2 ^ ((numerator.log2 : Int) - denominator.log2 - 1) *
              2 ^ ((denominator.log2 : Int) + 1) :=
            mul_le_mul_of_nonneg_left hdhi.le (by positivity)
        _ = 2 ^ (numerator.log2 : Int) := by
          rw [← zpow_add₀ htwo]
          congr 1
          omega
        _ ≤ numerator := hnlo
    · rw [Int.sub_add_cancel]
      exact lt_of_not_ge (mt hguess.mpr hlt)

namespace Binary64

/-- The number that a finite double stands for, up to its sign. -/
def magnitude : Binary64 → ℚ
  | .finite _ mantissa exponent _ => mantissa * 2 ^ exponent
  | _ => 0

/-- Halfway between the greatest double and the next power of two: from here on a quotient is
rounded to infinity. -/
def overflowBound : ℚ := (2 ^ 54 - 1) * 2 ^ (970 : Int)

lemma magnitude_nonneg (x : Binary64) : 0 ≤ x.magnitude := by
  cases x with
  | finite => exact mul_nonneg (Nat.cast_nonneg _) (by positivity)
  | _ => exact le_refl _

lemma ofScaled_eq {mantissa : Nat} {exponent : Int} (negative : Bool)
    (hmantissa : mantissa ≤ 2 ^ 53) (hlo : -1074 ≤ exponent)
    (hhi : exponent ≤ 970 ∨ exponent = 971 ∧ mantissa < 2 ^ 53)
    (hnormal : 2 ^ 52 ≤ mantissa ∨ exponent = -1074) :
    (ofScaled negative mantissa exponent).isFinite = true ∧
      (ofScaled negative mantissa exponent).magnitude = mantissa * 2 ^ exponent := by
  unfold ofScaled
  split
  · exact ⟨rfl, rfl⟩
  · rename_i hnot
    have hpow : Nat.pow 2 52 = 2 ^ 52 ∧ Nat.pow 2 53 = 2 ^ 53 := ⟨rfl, rfl⟩
    have hcarry : mantissa = 2 ^ 53 := by
      by_contra hne
      refine hnot ⟨?_, hlo, ?_, ?_⟩ <;> omega
    have hnext : IsCanonical (Nat.pow 2 52) (exponent + 1) := by
      refine ⟨by decide, ?_, ?_, .inl (Nat.le_refl _)⟩ <;> omega
    rw [dif_pos ⟨hcarry, hnext⟩]
    refine ⟨rfl, ?_⟩
    rw [magnitude, hcarry, zpow_add_one₀ two_ne_zero]
    norm_num
    ring

lemma of_ofScaled_eq {negative sign : Bool} {rounded mantissa : Nat} {unit exponent : Int}
    {canonical : IsCanonical mantissa exponent}
    (h : ofScaled negative rounded unit = .finite sign mantissa exponent canonical) :
    (mantissa : ℚ) * 2 ^ exponent = rounded * 2 ^ unit ∧ unit ≤ exponent := by
  unfold ofScaled at h
  split at h
  · cases h
    exact ⟨rfl, Int.le_refl _⟩
  · split at h
    · rename_i hcarry
      cases h
      refine ⟨?_, by omega⟩
      rw [hcarry.1, zpow_add_one₀ two_ne_zero]
      norm_num
      ring
    · cases h

/-! ## Quotients -/

/-- The exponent of the unit to which a quotient is rounded. -/
def unitExponent (numerator denominator : Nat) : Int :=
  max (-1074) (floorLog2 numerator denominator - 52)

def roundedUnits (numerator denominator : Nat) : Nat :=
  let scaled := scaleDown 2 (unitExponent numerator denominator) numerator denominator
  roundHalfEven scaled.1 scaled.2

lemma ofQuotient_eq_ofScaled (negative : Bool) {numerator : Nat} (hn : numerator ≠ 0)
    (denominator : Nat) :
    ofQuotient negative numerator denominator =
      ofScaled negative (roundedUnits numerator denominator)
        (unitExponent numerator denominator) := by
  rw [ofQuotient, if_neg hn]
  rfl

section Quotient

variable {numerator denominator : Nat}

lemma roundedUnits_bounds (numerator : Nat) {denominator : Nat} (hd : 0 < denominator) :
    let units : ℚ := numerator / denominator / 2 ^ unitExponent numerator denominator
    (roundedUnits numerator denominator : ℚ) ≤ units + 1 / 2 ∧
      units ≤ roundedUnits numerator denominator + 1 / 2 ∧
      (roundedUnits numerator denominator : ℚ) ≤ 2 * units := by
  intro units
  have hunits := cast_scaleDown two_ne_zero (unitExponent numerator denominator) numerator
    denominator
  have hpos := scaleDown_snd_pos two_ne_zero hd (unitExponent numerator denominator) numerator
  unfold roundedUnits
  dsimp only
  generalize scaleDown 2 (unitExponent numerator denominator) numerator denominator = scaled at *
  obtain ⟨hup, hdown⟩ := roundHalfEven_mul_bounds scaled.1 hpos
  have hdouble := roundHalfEven_mul_le_two_mul scaled.1 scaled.2
  generalize roundHalfEven scaled.1 scaled.2 = rounded at *
  have hposq : (0 : ℚ) < scaled.2 := by exact_mod_cast hpos
  have hquotient : units = scaled.1 / scaled.2 := by
    rw [hunits, Nat.cast_ofNat]
  have hmul : units * scaled.2 = scaled.1 := by
    rw [hquotient, div_mul_cancel₀ _ hposq.ne']
  have hup' : (2 : ℚ) * (rounded * scaled.2) ≤ 2 * scaled.1 + scaled.2 := by exact_mod_cast hup
  have hdown' : (2 : ℚ) * scaled.1 ≤ 2 * (rounded * scaled.2) + scaled.2 := by
    exact_mod_cast hdown
  have hdouble' : (rounded : ℚ) * scaled.2 ≤ 2 * scaled.1 := by exact_mod_cast hdouble
  rw [← hmul] at hup' hdown' hdouble'
  refine ⟨?_, ?_, ?_⟩ <;> refine le_of_mul_le_mul_right ?_ hposq <;> linarith

/-- What a quotient is rounded to lies above it by a half of the last unit at most. -/
lemma le_of_ofQuotient_eq {negative sign : Bool} (hn : numerator ≠ 0) (hd : 0 < denominator)
    {mantissa : Nat} {exponent : Int} {canonical : IsCanonical mantissa exponent}
    (h : ofQuotient negative numerator denominator =
      .finite sign mantissa exponent canonical) :
    (numerator / denominator : ℚ) ≤ (mantissa + 1 / 2) * 2 ^ exponent := by
  rw [ofQuotient_eq_ofScaled negative hn] at h
  obtain ⟨hvalue, hunit⟩ := of_ofScaled_eq h
  obtain ⟨-, hdown, -⟩ := roundedUnits_bounds numerator hd
  have hpower : (0 : ℚ) < 2 ^ unitExponent numerator denominator := by positivity
  have hpowers : (2 : ℚ) ^ unitExponent numerator denominator ≤ 2 ^ exponent :=
    zpow_le_zpow_right₀ one_le_two hunit
  rw [div_le_iff₀ hpower] at hdown
  linarith

variable (hn : 0 < numerator) (hd : 0 < denominator)
include hn hd

lemma roundedUnits_le : roundedUnits numerator denominator ≤ 2 ^ 53 := by
  obtain ⟨hup, -, -⟩ := roundedUnits_bounds numerator hd
  obtain ⟨-, hlt⟩ := floorLog2_bounds hn hd
  have hpower : (0 : ℚ) < 2 ^ unitExponent numerator denominator := by positivity
  have hexponent : floorLog2 numerator denominator + 1 ≤
      53 + unitExponent numerator denominator := by
    unfold unitExponent
    omega
  have hunits : (numerator / denominator / 2 ^ unitExponent numerator denominator : ℚ) <
      2 ^ 53 := by
    rw [div_lt_iff₀ hpower]
    calc (numerator / denominator : ℚ) < 2 ^ (floorLog2 numerator denominator + 1) := hlt
      _ ≤ 2 ^ (53 + unitExponent numerator denominator) :=
        zpow_le_zpow_right₀ one_le_two hexponent
      _ = _ := by
        rw [zpow_add₀ two_ne_zero]
        norm_num
  have hlast : (roundedUnits numerator denominator : ℚ) < (2 ^ 53 + 1 : Nat) := by
    push_cast
    linarith
  exact Nat.lt_succ_iff.mp (by exact_mod_cast hlast)

lemma le_roundedUnits (h : unitExponent numerator denominator ≠ -1074) :
    2 ^ 52 ≤ roundedUnits numerator denominator := by
  obtain ⟨-, hdown, -⟩ := roundedUnits_bounds numerator hd
  obtain ⟨hle, -⟩ := floorLog2_bounds hn hd
  have hpower : (0 : ℚ) < 2 ^ unitExponent numerator denominator := by positivity
  have hexponent : floorLog2 numerator denominator =
      52 + unitExponent numerator denominator := by
    unfold unitExponent at h ⊢
    omega
  have hunits : (2 : ℚ) ^ 52 ≤
      numerator / denominator / 2 ^ unitExponent numerator denominator := by
    rw [le_div_iff₀ hpower]
    rw [hexponent, zpow_add₀ two_ne_zero] at hle
    exact_mod_cast hle
  have hlast : ((2 ^ 52 : Nat) : ℚ) < roundedUnits numerator denominator + 1 := by
    push_cast
    linarith
  exact Nat.lt_succ_iff.mp (by exact_mod_cast hlast)

lemma unitExponent_le (h : (numerator / denominator : ℚ) < overflowBound) :
    unitExponent numerator denominator ≤ 970 ∨
      unitExponent numerator denominator = 971 ∧
        roundedUnits numerator denominator < 2 ^ 53 := by
  obtain ⟨hle, -⟩ := floorLog2_bounds hn hd
  have hlog : floorLog2 numerator denominator < 1024 := by
    by_contra hge
    have hpowers : (2 : ℚ) ^ (1024 : Int) ≤ 2 ^ floorLog2 numerator denominator :=
      zpow_le_zpow_right₀ one_le_two (not_lt.mp hge)
    have hpos : (0 : ℚ) < 2 ^ (970 : Int) := by positivity
    rw [show (1024 : Int) = 54 + 970 from rfl, zpow_add₀ two_ne_zero,
      zpow_ofNat (2 : ℚ) 54] at hpowers
    rw [overflowBound] at h
    generalize (2 : ℚ) ^ (970 : Int) = unit at *
    linarith
  by_cases htop : unitExponent numerator denominator = 971
  · refine .inr ⟨htop, ?_⟩
    obtain ⟨hup, -, -⟩ := roundedUnits_bounds numerator hd
    have hpower : (0 : ℚ) < 2 ^ (971 : Int) := by positivity
    rw [htop] at hup
    have hunits : (numerator / denominator / 2 ^ (971 : Int) : ℚ) < 2 ^ 53 - 1 / 2 := by
      rw [div_lt_iff₀ hpower]
      refine h.trans_le (le_of_eq ?_)
      rw [overflowBound, show (971 : Int) = 1 + 970 from rfl, zpow_add₀ two_ne_zero]
      ring
    have hlast : (roundedUnits numerator denominator : ℚ) < (2 ^ 53 : Nat) := by
      push_cast
      linarith
    exact_mod_cast hlast
  · unfold unitExponent at htop ⊢
    omega

/-- A quotient below the bound is rounded to a finite double, by half a unit at most. -/
theorem isFinite_ofQuotient (negative : Bool)
    (h : (numerator / denominator : ℚ) < overflowBound) :
    (ofQuotient negative numerator denominator).isFinite = true ∧
      (ofQuotient negative numerator denominator).magnitude =
        roundedUnits numerator denominator * 2 ^ unitExponent numerator denominator := by
  rw [ofQuotient_eq_ofScaled negative hn.ne']
  refine ofScaled_eq negative (roundedUnits_le hn hd) (le_max_left _ _)
    (unitExponent_le hn hd h) ?_
  by_cases hunit : unitExponent numerator denominator = -1074
  · exact .inr hunit
  · exact .inl (le_roundedUnits hn hd hunit)

/-- A quotient that is 1 or more is rounded by a part in `2 ^ 53` at most. -/
theorem magnitude_ofQuotient_bounds (negative : Bool)
    (h : (numerator / denominator : ℚ) < overflowBound)
    (hone : (1 : ℚ) ≤ numerator / denominator) :
    (numerator / denominator : ℚ) * (1 - 1 / 2 ^ 53) ≤
        (ofQuotient negative numerator denominator).magnitude ∧
      (ofQuotient negative numerator denominator).magnitude ≤
        (numerator / denominator : ℚ) * (1 + 1 / 2 ^ 53) := by
  rw [(isFinite_ofQuotient hn hd negative h).2]
  obtain ⟨hup, hdown, -⟩ := roundedUnits_bounds numerator hd
  obtain ⟨hle, hlt⟩ := floorLog2_bounds hn hd
  have hpower : (0 : ℚ) < 2 ^ unitExponent numerator denominator := by positivity
  have hlog : 0 ≤ floorLog2 numerator denominator := by
    by_contra hneg
    have hsmall : (2 : ℚ) ^ (floorLog2 numerator denominator + 1) ≤ 2 ^ (0 : Int) :=
      zpow_le_zpow_right₀ one_le_two (by omega)
    rw [zpow_zero] at hsmall
    linarith
  have hexponent : floorLog2 numerator denominator =
      52 + unitExponent numerator denominator := by
    unfold unitExponent
    omega
  -- So a unit is a part in `2 ^ 52` at most.
  rw [hexponent, zpow_add₀ two_ne_zero, zpow_ofNat (2 : ℚ) 52] at hle
  generalize (2 : ℚ) ^ unitExponent numerator denominator = unit at *
  rw [← sub_le_iff_le_add, le_div_iff₀ hpower] at hup
  rw [div_le_iff₀ hpower] at hdown
  constructor <;> linarith

/-- A quotient that is a double is rounded in the unit of that double. -/
lemma unitExponent_eq_of_canonical {mantissa : Nat} {exponent : Int}
    (canonical : IsCanonical mantissa exponent)
    (h : (numerator / denominator : ℚ) = mantissa * 2 ^ exponent) :
    unitExponent numerator denominator = exponent := by
  obtain ⟨hle, hlt⟩ := floorLog2_bounds hn hd
  obtain ⟨hbits, hlo, -, hnormal⟩ := canonical
  have hpower : (0 : ℚ) < 2 ^ exponent := by positivity
  have hupper : (numerator / denominator : ℚ) < 2 ^ (53 + exponent) := by
    rw [h, zpow_add₀ two_ne_zero]
    exact mul_lt_mul_of_pos_right (by exact_mod_cast hbits) hpower
  have hlog : floorLog2 numerator denominator < 53 + exponent :=
    (zpow_lt_zpow_iff_right₀ one_lt_two).mp (hle.trans_lt hupper)
  unfold unitExponent
  rcases hnormal with hnormal | rfl
  · have hlower : (2 : ℚ) ^ (52 + exponent) ≤ numerator / denominator := by
      rw [h, zpow_add₀ two_ne_zero]
      exact mul_le_mul_of_nonneg_right (by exact_mod_cast hnormal) hpower.le
    have hnext : 52 + exponent < floorLog2 numerator denominator + 1 :=
      (zpow_lt_zpow_iff_right₀ one_lt_two).mp (hlower.trans_lt hlt)
    omega
  · omega

theorem ofQuotient_eq_of_canonical (negative : Bool) {mantissa : Nat} {exponent : Int}
    (canonical : IsCanonical mantissa exponent)
    (h : (numerator / denominator : ℚ) = mantissa * 2 ^ exponent) :
    ofQuotient negative numerator denominator =
      .finite negative mantissa exponent canonical := by
  have hunit := unitExponent_eq_of_canonical hn hd canonical h
  obtain ⟨hup, hdown, -⟩ := roundedUnits_bounds numerator hd
  have hpower : (2 : ℚ) ^ exponent ≠ 0 := by positivity
  -- The quotient is whole in this unit, so half a unit around it holds no other number of units.
  rw [hunit, h, mul_div_cancel_right₀ _ hpower] at hup hdown
  have hrounded : roundedUnits numerator denominator = mantissa := by
    have hupper : (roundedUnits numerator denominator : ℚ) < (mantissa + 1 : Nat) := by
      push_cast
      linarith
    have hlower : (mantissa : ℚ) < (roundedUnits numerator denominator + 1 : Nat) := by
      push_cast
      linarith
    have hupper' := Nat.cast_lt.mp hupper
    have hlower' := Nat.cast_lt.mp hlower
    omega
  rw [ofQuotient_eq_ofScaled negative hn.ne', hunit, hrounded, ofScaled, dif_pos canonical]

end Quotient

lemma isFinite_ofQuotient_and_magnitude_le (negative : Bool) (numerator : Nat) {denominator : Nat}
    (hd : 0 < denominator) (h : (numerator / denominator : ℚ) < overflowBound) :
    (ofQuotient negative numerator denominator).isFinite = true ∧
      (ofQuotient negative numerator denominator).magnitude ≤ 2 * (numerator / denominator) := by
  rcases Nat.eq_zero_or_pos numerator with rfl | hn
  · simp [ofQuotient, zero, isFinite, magnitude]
  · obtain ⟨hfinite, hmagnitude⟩ := isFinite_ofQuotient hn hd negative h
    obtain ⟨-, -, hdouble⟩ := roundedUnits_bounds numerator hd
    have hpower : (0 : ℚ) < 2 ^ unitExponent numerator denominator := by positivity
    refine ⟨hfinite, ?_⟩
    rw [hmagnitude]
    rw [← mul_div_assoc, le_div_iff₀ hpower] at hdouble
    exact hdouble

end Binary64

end DocStore
