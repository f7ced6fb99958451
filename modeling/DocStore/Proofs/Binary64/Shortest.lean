import DocStore.Binary64.Decimal
import DocStore.Proofs.Binary64.Scaled

/-!
# The value of a shortest decimal

The shortest decimal of a double lies above the double by half a unit in the last place at most
(`Binary64.value_shortest_le`). So it is safe to scale, unless the double is one of the three
greatest ones (`Binary64.value_shortest_le_safeBound`).
-/

namespace DocStore

namespace Decimal

/-- The number that a decimal stands for, up to its sign. -/
def value (x : Decimal) : ℚ :=
  x.coefficient * 10 ^ x.exponent

lemma value_stripZeros (coefficient : Nat) (exponent : Int) :
    ((stripZeros coefficient exponent).1 : ℚ) * 10 ^ (stripZeros coefficient exponent).2 =
      coefficient * 10 ^ exponent := by
  fun_induction stripZeros coefficient exponent with
  | case1 coefficient exponent h ih =>
    have hten : coefficient = coefficient / 10 * 10 := by omega
    rw [ih, zpow_add_one₀ (by norm_num)]
    conv_rhs => rw [hten]
    push_cast
    ring
  | case2 => rfl

lemma value_normalize (x : Decimal) : x.normalize.value = x.value := by
  unfold normalize
  split
  · rename_i h
    simp [value, h]
  · exact value_stripZeros x.coefficient x.exponent

end Decimal

namespace Binary64

variable {negative : Bool} {mantissa : Nat} {exponent : Int}

/-- A decimal that is read as a double other than zero lies above it by half a unit at most. -/
lemma value_le_of_ofNormal_eq {canonical : IsCanonical mantissa exponent} {x : Decimal}
    (hpos : mantissa ≠ 0) (h : ofNormal x = .finite negative mantissa exponent canonical) :
    x.value ≤ (mantissa + 1 / 2) * 2 ^ exponent := by
  unfold ofNormal at h
  split at h
  · exact absurd (Binary64.finite.inj h).2.1.symm hpos
  · rename_i hcoefficient
    split at h
    · cases h
    · split at h
      · exact absurd (Binary64.finite.inj h).2.1.symm hpos
      · have hnumerator : (scaleDown 10 (-x.exponent) x.coefficient 1).1 ≠ 0 :=
          Nat.mul_ne_zero hcoefficient (Nat.pow_pos (by decide)).ne'
        have hvalue := cast_scaleDown (by decide : 10 ≠ 0) (-x.exponent) x.coefficient 1
        have hle := le_of_ofQuotient_eq hnumerator
          (scaleDown_snd_pos (by decide) Nat.one_pos _ _) h
        rw [hvalue, zpow_neg, div_inv_eq_mul, Nat.cast_one, div_one] at hle
        exact hle

lemma ofNormal_of_readBackOnGrid {target : Binary64} {numerator denominator : Nat} {x : Decimal}
    (h : readBackOnGrid target negative exponent numerator denominator = some x) :
    ofNormal x = target := by
  unfold readBackOnGrid at h
  simpa using List.find?_some h

lemma value_exactDecimal (negative : Bool) (mantissa : Nat) (exponent : Int) :
    (exactDecimal negative mantissa exponent).value = mantissa * 2 ^ exponent := by
  rw [exactDecimal, Decimal.value_normalize, Decimal.value]
  rcases Int.le_total 0 exponent with h | h
  · obtain ⟨n, rfl⟩ := Int.eq_ofNat_of_zero_le h
    simp
  · obtain ⟨n, hn⟩ := Int.eq_ofNat_of_zero_le (Int.neg_nonneg.mpr h)
    obtain rfl : exponent = -n := by omega
    have hten : (10 : ℚ) ^ n = 5 ^ n * 2 ^ n := by
      rw [← mul_pow]
      norm_num
    simp [hten]
    field_simp

/-- The shortest decimal of a double lies above it by half a unit at most. -/
theorem value_shortest_le (negative : Bool) (mantissa : Nat) (exponent : Int)
    (canonical : IsCanonical mantissa exponent) :
    (shortest negative mantissa exponent canonical).value ≤
      (mantissa + 1 / 2) * 2 ^ exponent := by
  have hpower : (0 : ℚ) < 2 ^ exponent := by positivity
  unfold shortest
  split
  · rename_i hzero
    simp only [Decimal.value, hzero, Nat.cast_zero, zero_mul]
    positivity
  · rename_i hpos
    simp only
    generalize hfound : List.findSome? _ _ = found
    cases found with
    | none =>
      rw [Option.getD_none, value_exactDecimal]
      linarith
    | some x =>
      obtain ⟨n, -, hn⟩ := List.exists_of_findSome?_eq_some hfound
      exact value_le_of_ofNormal_eq hpos (ofNormal_of_readBackOnGrid hn)

/-- The three greatest doubles have the exponent 971 and one of these mantissas. -/
def IsGreatest (mantissa : Nat) (exponent : Int) : Prop :=
  2 ^ 53 - 4 < mantissa ∧ exponent = 971

/-- Apart from the three greatest doubles, shortest decimals are safe to scale. -/
theorem value_shortest_le_safeBound (negative : Bool) (canonical : IsCanonical mantissa exponent)
    (h : ¬IsGreatest mantissa exponent) :
    (shortest negative mantissa exponent canonical).value ≤ safeBound := by
  refine (value_shortest_le negative mantissa exponent canonical).trans ?_
  obtain ⟨hbits, -, hexponent, -⟩ := canonical
  have hpow : Nat.pow 2 53 = 2 ^ 53 := rfl
  have hmantissa : (mantissa : ℚ) + 1 ≤ 2 ^ 53 := by exact_mod_cast hbits
  have hnonneg : (0 : ℚ) ≤ mantissa + 1 / 2 := by positivity
  have hunit : (0 : ℚ) < 2 ^ (970 : Int) := by positivity
  by_cases htop : exponent = 971
  · have hless : mantissa + 4 ≤ 2 ^ 53 := by
      by_contra hgreat
      exact h ⟨by omega, htop⟩
    have hless : (mantissa : ℚ) + 4 ≤ 2 ^ 53 := by exact_mod_cast hless
    rw [htop, safeBound, show (971 : Int) = 970 + 1 from rfl, zpow_add_one₀ two_ne_zero]
    generalize (2 : ℚ) ^ (970 : Int) = unit at *
    nlinarith
  · have hpowers : (2 : ℚ) ^ exponent ≤ 2 ^ (970 : Int) :=
      zpow_le_zpow_right₀ one_le_two (by omega)
    refine (mul_le_mul_of_nonneg_left hpowers hnonneg).trans ?_
    rw [safeBound]
    exact mul_le_mul_of_nonneg_right (by linarith only [hmantissa]) hunit.le

end Binary64

end DocStore
