import DocStore.Proofs.Binary64.Shortest
import DocStore.Proofs.Json.Number
import DocStore.Proofs.ReadBack

/-!
# No double's text overflows

The number that a literal stands for is `NumberLiteral.value`, up to its sign. A literal that has
few digits in front of the point and a value that is safe to scale is read as a finite double
(`NumberLiteral.isSome_toFinite?`). The text of a double is such a literal, so it is read, though
perhaps as a double beside it (`Value.isSome_rereadFloat?`).
-/

namespace DocStore

namespace Json

lemma ofDigitChars_lt {digits : List Char} (h : ∀ c ∈ digits, c.isDigit = true) :
    Nat.ofDigitChars 10 digits 0 < 10 ^ digits.length := by
  induction digits with
  | nil => simp
  | cons c rest ih =>
    have hrest := ih fun d hd => h d (List.mem_cons_of_mem _ hd)
    have hdigit : c.toNat - '0'.toNat ≤ 9 := by
      have hc := h c List.mem_cons_self
      simp only [Char.isDigit, Bool.and_eq_true, decide_eq_true_eq] at hc
      have hle : c.toNat ≤ 57 := hc.2
      have hzero : '0'.toNat = 48 := rfl
      omega
    have hmul := Nat.mul_le_mul_left (10 ^ rest.length) hdigit
    rw [Nat.ofDigitChars_cons, Nat.ofDigitChars_eq_ofDigitChars_zero, List.length_cons,
      Nat.pow_succ, Nat.mul_zero, Nat.zero_add]
    omega

/-- The digits that were appended make 64 bits, and those that were left do not make them more. -/
lemma appendDigits_le (digits : List Char) {start : Nat} (h : start < significandBound) :
    (appendDigits start digits).1 < significandBound ∧
      (appendDigits start digits).1 * 10 ^ (appendDigits start digits).2 ≤
        Nat.ofDigitChars 10 digits start := by
  induction digits generalizing start with
  | nil => simp [appendDigits, h]
  | cons c rest ih =>
    have hnext : 10 * start + digitsValue [c] = 10 * start + (c.toNat - '0'.toNat) := by
      simp [digitsValue, Nat.ofDigitChars_cons]
    simp only [appendDigits, hnext, Nat.ofDigitChars_cons]
    split
    · rename_i hlt
      exact ih hlt
    · refine ⟨h, ?_⟩
      rw [Nat.ofDigitChars_eq_ofDigitChars_zero]
      calc start * 10 ^ (rest.length + 1) = 10 ^ rest.length * (10 * start) := by ring
        _ ≤ 10 ^ rest.length * (10 * start + (c.toNat - '0'.toNat)) :=
          Nat.mul_le_mul_left _ (Nat.le_add_right _ _)
        _ ≤ _ := Nat.le_add_right _ _

namespace NumberLiteral

/-- The number that a literal stands for, up to its sign. -/
def value (n : NumberLiteral) : ℚ :=
  digitsValue (n.whole ++ n.fraction.getD []) *
    10 ^ (n.exponent.getD 0 - ((n.fraction.getD []).length : Int))

/-- A literal with a safe value is read, if it has no more digits in front of its point than fit. -/
lemma isSome_toFinite? {n : NumberLiteral} (hwhole : digitsValue n.whole < significandBound)
    (hsafe : n.value ≤ Binary64.safeBound) : n.toFinite?.isSome = true := by
  have hstart : appendDigits 0 n.whole = (digitsValue n.whole, 0) := appendDigits_eq _ _ hwhole
  obtain ⟨hbits, hle⟩ := appendDigits_le (n.fraction.getD []) hwhole
  have hdigits : digitsValue (n.whole ++ n.fraction.getD []) =
      Nat.ofDigitChars 10 (n.fraction.getD []) (digitsValue n.whole) :=
    Nat.ofDigitChars_append 0
  have hfinite : n.toFloat.isFinite = true := by
    unfold toFloat
    simp only [hstart]
    refine Binary64.isFinite_scaleByTens n.negative hbits (le_trans ?_ hsafe)
    rw [value, hdigits]
    generalize appendDigits (digitsValue n.whole) (n.fraction.getD []) = appended at *
    have hcast : (appended.1 : ℚ) * 10 ^ appended.2 ≤
        Nat.ofDigitChars 10 (n.fraction.getD []) (digitsValue n.whole) := by
      exact_mod_cast hle
    have hten : (10 : ℚ) ≠ 0 := by norm_num
    have hscaled := mul_le_mul_of_nonneg_right hcast
      (zpow_nonneg (by norm_num : (0 : ℚ) ≤ 10)
        (n.exponent.getD 0 - ((n.fraction.getD []).length : Int)))
    rw [mul_assoc, ← zpow_natCast, ← zpow_add₀ hten] at hscaled
    refine le_trans (le_of_eq ?_) hscaled
    congr 2
    push_cast
    ring
  simp [toFinite?, hfinite]

end NumberLiteral

lemma value_positionalLiteral (negative : Bool) (digits : List Char) (leading : Int) :
    (positionalLiteral negative digits leading).value =
      digitsValue digits * 10 ^ (leading + 1 - digits.length) := by
  unfold positionalLiteral
  split
  · have hdigits : digitsValue (['0'] ++ (List.replicate (-leading - 1).toNat '0' ++ digits)) =
        digitsValue digits := by
      simp [digitsValue, Nat.ofDigitChars_append, Nat.ofDigitChars_cons,
        Nat.ofDigitChars_replicate_zero]
    rw [NumberLiteral.value, Option.getD_some, Option.getD_none, hdigits, List.length_append,
      List.length_replicate]
    congr 2
    omega
  · split
    · have hdigits : digitsValue
          (digits ++ List.replicate (leading.toNat + 1 - digits.length) '0' ++ ['0']) =
          digitsValue digits * 10 ^ (leading.toNat + 1 - digits.length + 1) := by
        simp only [digitsValue, Nat.ofDigitChars_append, Nat.ofDigitChars_replicate_zero,
          Nat.ofDigitChars_cons, Nat.ofDigitChars_nil, Nat.sub_self]
        ring
      rw [NumberLiteral.value, Option.getD_some, Option.getD_none, hdigits, Nat.cast_mul,
        Nat.cast_pow, Nat.cast_ofNat, ← zpow_natCast, mul_assoc, ← zpow_add₀ (by norm_num)]
      congr 2
      simp only [List.length_singleton]
      omega
    · rw [NumberLiteral.value, Option.getD_some, Option.getD_none, List.take_append_drop,
        List.length_drop]
      congr 2
      omega

lemma value_scientificLiteral (negative : Bool) {digits : List Char} (leading : Int)
    (hne : digits ≠ []) :
    (scientificLiteral negative digits leading).value =
      digitsValue digits * 10 ^ (leading + 1 - digits.length) := by
  match digits with
  | [] => exact absurd rfl hne
  | [first] => simp [scientificLiteral, NumberLiteral.value]
  | first :: second :: rest =>
    simp only [scientificLiteral, NumberLiteral.value, Option.getD_some, List.singleton_append,
      List.length_cons]
    congr 2
    omega

lemma value_decimalLiteral (x : Decimal) : (decimalLiteral x).value = x.value := by
  have hvalue : (digitsValue (natText x.coefficient) : ℚ) *
      10 ^ (leadingExponent x + 1 - (natText x.coefficient).length) = x.value := by
    rw [digitsValue_natText, Decimal.value, leadingExponent]
    congr 2
    omega
  unfold decimalLiteral
  split
  · rw [value_positionalLiteral, hvalue]
  · rw [value_scientificLiteral _ _ (natText_ne_nil _), hvalue]

lemma length_whole_decimalLiteral_le (x : Decimal) : (decimalLiteral x).whole.length ≤ 16 := by
  unfold decimalLiteral
  split
  · rename_i hrange
    have hlast : leadingExponent x ≤ 15 := hrange.2
    unfold positionalLiteral
    split
    · simp
    · split
      · simp only [List.length_append, List.length_replicate]
        omega
      · simp only [List.length_take]
        omega
  · unfold scientificLiteral
    match natText x.coefficient with
    | [] | [_] | _ :: _ :: _ => simp

/-- A decimal that is safe to scale is read from its text. -/
theorem isSome_toFinite?_decimalLiteral {x : Decimal} (hplain : IsPlain x)
    (hsafe : x.value ≤ Binary64.safeBound) : (decimalLiteral x).toFinite?.isSome = true := by
  refine NumberLiteral.isSome_toFinite? ?_ (by rwa [value_decimalLiteral])
  have hpowers := Nat.pow_le_pow_right (Nat.succ_pos 9) (length_whole_decimalLiteral_le x)
  have hlimit : 10 ^ 16 < significandBound := by decide
  exact (ofDigitChars_lt (decimalLiteral_wellFormed hplain).whole_digits).trans_le
    (hpowers.trans hlimit.le)

end Json

open Json

lemma Binary64.literal?_finite (negative : Bool) (mantissa : Nat) (exponent : Int)
    (canonical : IsCanonical mantissa exponent) :
    (Binary64.finite negative mantissa exponent canonical).literal? =
      some (decimalLiteral (shortest negative mantissa exponent canonical)) := by
  have hsplit := splitNumber_spelling
    (decimalLiteral_wellFormed (isPlain_shortest negative mantissa exponent canonical))
    endsNumber_nil
  rw [List.append_nil, ← decimalText_eq_spelling] at hsplit
  rw [literal?, floatText, hsplit]
  rfl

namespace Value

/-- The texts of the three greatest doubles are safe to read as well. -/
lemma isSome_rereadFloat?_greatest : ∀ negative : Bool, ∀ below < 3,
    ∀ canonical : IsCanonical (2 ^ 53 - 1 - below) 971,
      (rereadFloat? (.finite negative (2 ^ 53 - 1 - below) 971 canonical)).isSome = true := by
  decide +kernel

/-- The text of every double is read: as a double, or as null. -/
theorem isSome_rereadFloat? (x : Binary64) : (rereadFloat? x).isSome = true := by
  cases x with
  | nan | infinity => rfl
  | finite negative mantissa exponent canonical =>
    by_cases hgreatest : Binary64.IsGreatest mantissa exponent
    · obtain ⟨hmantissa, rfl⟩ := hgreatest
      have hbits : mantissa < 2 ^ 53 := canonical.1
      obtain ⟨below, hbelow, rfl⟩ : ∃ below < 3, mantissa = 2 ^ 53 - 1 - below :=
        ⟨2 ^ 53 - 1 - mantissa, by omega, by omega⟩
      exact isSome_rereadFloat?_greatest negative below hbelow canonical
    · rw [rereadFloat?, Binary64.literal?_finite]
      simpa using isSome_toFinite?_decimalLiteral
        (isPlain_shortest negative mantissa exponent canonical)
        (Binary64.value_shortest_le_safeBound negative canonical hgreatest)

end Value

end DocStore
