import DocStore.Json.Number
import Mathlib.Data.List.Basic
import Mathlib.Data.Option.Basic
import Mathlib.Tactic.Lemma

/-!
# Reading number texts

`NumberLiteral.spelling` writes a literal; it is read back as that literal in front of any text that
does not go on with the number (`splitNumber_spelling`). The text of an integer and the text of a
finite double are such spellings, so both are read back as numbers (`intText_eq_spelling`,
`exists_floatText_eq_spelling`).
-/

namespace DocStore.Json

/-- What may follow a number: nothing, or a character that does not go on with it. -/
def EndsNumber (rest : List Char) : Prop :=
  ∀ c ∈ rest.head?, c.isDigit = false ∧ c ≠ '.' ∧ c ≠ 'e' ∧ c ≠ 'E'

lemma endsNumber_nil : EndsNumber [] := by
  simp [EndsNumber]

lemma endsNumber_cons {c : Char} (rest : List Char)
    (h : c.isDigit = false ∧ c ≠ '.' ∧ c ≠ 'e' ∧ c ≠ 'E') : EndsNumber (c :: rest) := by
  simpa [EndsNumber] using h

lemma splitDigits_append {digits rest : List Char} (hd : ∀ c ∈ digits, c.isDigit = true)
    (hr : ∀ c ∈ rest.head?, c.isDigit = false) : splitDigits (digits ++ rest) = (digits, rest) := by
  have htake : rest.takeWhile Char.isDigit = [] ∧ rest.dropWhile Char.isDigit = rest := by
    cases rest with
    | nil => simp
    | cons c more => simp [hr c (by simp)]
  rw [splitDigits, List.takeWhile_append_of_pos hd, List.dropWhile_append_of_pos hd, htake.1,
    htake.2, List.append_nil]

lemma isDigit_of_mem_natText {n : Nat} {c : Char} (h : c ∈ natText n) : c.isDigit = true :=
  Nat.isDigit_of_mem_toDigits (by decide) (by decide) h

lemma natText_ne_nil (n : Nat) : natText n ≠ [] :=
  Nat.toDigits_ne_nil

lemma digitsValue_natText (n : Nat) : digitsValue (natText n) = n :=
  Nat.ofDigitChars_ten_toDigits

lemma digitChar_ne_zero : ∀ d < 10, d ≠ 0 → Nat.digitChar d ≠ '0' := by
  decide

lemma head_natText_ne {n : Nat} (h : 0 < n) : ∀ c ∈ (natText n).head?, c ≠ '0' := by
  induction n using Nat.strongRecOn with
  | _ n ih =>
    unfold natText at ih ⊢
    by_cases hn : n < 10
    · rw [Nat.toDigits_of_lt_base hn]
      simpa using digitChar_ne_zero n hn (by omega)
    · have hhead := ih (n / 10) (by omega) (by omega)
      obtain ⟨first, rest, hdigits⟩ := List.exists_cons_of_ne_nil (natText_ne_nil (n / 10))
      rw [Nat.toDigits_of_base_le (by decide) (by omega)]
      unfold natText at hdigits
      rw [hdigits] at hhead ⊢
      exact hhead

lemma isWholePart_of_head {digits : List Char} (hne : digits ≠ [])
    (h : ∀ c ∈ digits.head?, c ≠ '0') : isWholePart digits = true := by
  match digits with
  | [] => exact absurd rfl hne
  | [_] => rfl
  | c :: _ :: _ => simpa [isWholePart] using h c (by simp)

lemma isWholePart_natText (n : Nat) : isWholePart (natText n) = true := by
  rcases Nat.eq_zero_or_pos n with rfl | h
  · rfl
  · exact isWholePart_of_head (natText_ne_nil n) (head_natText_ne h)

lemma le_ofDigitChars (digits : List Char) (start : Nat) :
    start ≤ Nat.ofDigitChars 10 digits start := by
  rw [Nat.ofDigitChars_eq_ofDigitChars_zero]
  have hpow : start ≤ 10 ^ digits.length * start :=
    Nat.le_mul_of_pos_left start (Nat.pow_pos (by decide))
  omega

lemma appendDigits_eq (digits : List Char) (start : Nat)
    (h : Nat.ofDigitChars 10 digits start < significandBound) :
    appendDigits start digits = (Nat.ofDigitChars 10 digits start, 0) := by
  induction digits generalizing start with
  | nil => rfl
  | cons c rest ih =>
    have hnext : 10 * start + digitsValue [c] = 10 * start + (c.toNat - '0'.toNat) := by
      simp [digitsValue, Nat.ofDigitChars_cons]
    rw [Nat.ofDigitChars_cons] at h ⊢
    have hlt := Nat.lt_of_le_of_lt (le_ofDigitChars rest _) h
    simp only [appendDigits, hnext, if_pos hlt]
    exact ih _ h

def signText (negative : Bool) : List Char :=
  if negative then ['-'] else []

def fractionText : Option (List Char) → List Char
  | none => []
  | some digits => '.' :: digits

def exponentText : Option Int → List Char
  | none => []
  | some exponent => 'e' :: (if exponent < 0 then '-' else '+') :: natText exponent.natAbs

namespace NumberLiteral

/-- The text of a literal. -/
def spelling (n : NumberLiteral) : List Char :=
  signText n.negative ++ n.whole ++ fractionText n.fraction ++ exponentText n.exponent

/-- The whole part and the fraction are digits, and the whole part has no needless zero. -/
structure WellFormed (n : NumberLiteral) : Prop where
  whole_digits : ∀ c ∈ n.whole, c.isDigit = true
  whole_part : isWholePart n.whole = true
  fraction_digits : ∀ digits ∈ n.fraction, digits ≠ [] ∧ ∀ c ∈ digits, c.isDigit = true

end NumberLiteral

lemma splitMinus_signText {s : List Char} (negative : Bool) (h : ∀ c ∈ s.head?, c.isDigit = true) :
    splitMinus (signText negative ++ s) = (negative, s) := by
  cases negative with
  | true => rfl
  | false =>
    cases s with
    | nil => rfl
    | cons c rest =>
      have hc : c ≠ '-' := fun he => by simpa [he] using h c (by simp)
      simp [signText, splitMinus, hc]

lemma splitFraction_fractionText {fraction : Option (List Char)} {rest : List Char}
    (h : ∀ digits ∈ fraction, digits ≠ [] ∧ ∀ c ∈ digits, c.isDigit = true)
    (hr : ∀ c ∈ rest.head?, c.isDigit = false ∧ c ≠ '.') :
    splitFraction (fractionText fraction ++ rest) = some (fraction, rest) := by
  cases fraction with
  | none =>
    cases rest with
    | nil => rfl
    | cons c more => simp [fractionText, splitFraction, (hr c (by simp)).2]
  | some digits =>
    obtain ⟨hne, hdigits⟩ := h digits rfl
    simp only [fractionText, List.cons_append, splitFraction,
      splitDigits_append hdigits fun c hc => (hr c hc).1]

lemma splitExponent_exponentText (exponent : Option Int) {rest : List Char} (hr : EndsNumber rest) :
    splitExponent (exponentText exponent ++ rest) = some (exponent, rest) := by
  cases exponent with
  | none =>
    cases rest with
    | nil => rfl
    | cons c more =>
      have hc := hr c (by simp)
      simp [exponentText, splitExponent, hc.2.2.1, hc.2.2.2]
  | some exponent =>
    have hends : ∀ c ∈ rest.head?, c.isDigit = false := fun c hc => (hr c hc).1
    have hdigits := splitDigits_append
      (fun c hc => isDigit_of_mem_natText (n := exponent.natAbs) hc) hends
    have hne := natText_ne_nil exponent.natAbs
    by_cases hneg : exponent < 0
    · have hsigned : Binary64.signed true exponent.natAbs = exponent := by
        simp only [Binary64.signed, if_true]
        omega
      simp [exponentText, splitExponent, hneg, splitMinus, hdigits, digitsValue_natText, hsigned]
    · have hsigned : Binary64.signed false exponent.natAbs = exponent := by
        simp only [Binary64.signed, Bool.false_eq_true, if_false]
        omega
      simp [exponentText, splitExponent, hneg, hdigits, digitsValue_natText, hsigned]

theorem splitNumber_spelling {n : NumberLiteral} (h : n.WellFormed) {rest : List Char}
    (hr : EndsNumber rest) : splitNumber (n.spelling ++ rest) = some (n, rest) := by
  obtain ⟨negative, whole, fraction, exponent⟩ := n
  obtain ⟨hdigits, hpart, hfraction⟩ := h
  have hexponent : ∀ c ∈ (exponentText exponent ++ rest).head?, c.isDigit = false ∧ c ≠ '.' := by
    cases exponent with
    | none => exact fun c hc => ⟨(hr c hc).1, (hr c hc).2.1⟩
    | some exponent => simp [exponentText]
  have hwhole : ∀ c ∈ (fractionText fraction ++ (exponentText exponent ++ rest)).head?,
      c.isDigit = false := by
    cases fraction with
    | none => exact fun c hc => (hexponent c hc).1
    | some digits => simp [fractionText]
  have hhead : ∀ c ∈ (whole ++ (fractionText fraction ++ (exponentText exponent ++ rest))).head?,
      c.isDigit = true := by
    cases whole with
    | nil => simp [isWholePart] at hpart
    | cons c more => simpa using hdigits c (by simp)
  simp only [NumberLiteral.spelling, List.append_assoc, splitNumber, splitMinus_signText _ hhead,
    splitDigits_append hdigits hwhole, hpart, guard_true,
    splitFraction_fractionText hfraction hexponent, Option.pure_def, Option.bind_eq_bind,
    Option.bind_some, splitExponent_exponentText exponent hr]

/-- The literal that the text of an integer is. -/
def intLiteral (n : Int) : NumberLiteral :=
  ⟨n < 0, natText n.natAbs, none, none⟩

lemma intText_eq_spelling (n : Int) : intText n = (intLiteral n).spelling := by
  by_cases h : n < 0 <;>
    simp [intText, NumberLiteral.spelling, intLiteral, signText, fractionText, exponentText, h]

lemma intLiteral_wellFormed (n : Int) : (intLiteral n).WellFormed where
  whole_digits := fun _ hc => isDigit_of_mem_natText hc
  whole_part := isWholePart_natText n.natAbs
  fraction_digits := by simp [intLiteral]

lemma toInt?_intLiteral {n : Int} (h : n.natAbs < significandBound) :
    (intLiteral n).toInt? = some n := by
  have happend : appendDigits 0 (natText n.natAbs) = (n.natAbs, 0) := by
    have hvalue : Nat.ofDigitChars 10 (natText n.natAbs) 0 = n.natAbs := digitsValue_natText _
    rw [appendDigits_eq _ _ (by rw [hvalue]; exact h), hvalue]
  by_cases hneg : n < 0
  · have hzero : n ≠ 0 := by omega
    have hsigned : Binary64.signed true n.natAbs = n := by
      simp only [Binary64.signed, if_true]
      omega
    simp [NumberLiteral.toInt?, intLiteral, happend, hneg, hzero, hsigned]
  · have hsigned : Binary64.signed false n.natAbs = n := by
      simp only [Binary64.signed, Bool.false_eq_true, if_false]
      omega
    simp [NumberLiteral.toInt?, intLiteral, happend, hneg, hsigned]

/-! ## Doubles -/

/-- A decimal whose coefficient is zero has the exponent zero. -/
def IsPlain (x : Decimal) : Prop :=
  x.coefficient = 0 → x.exponent = 0

lemma stripZeros_ne_zero {coefficient : Nat} (h : coefficient ≠ 0) (exponent : Int) :
    (Decimal.stripZeros coefficient exponent).1 ≠ 0 := by
  induction coefficient using Nat.strongRecOn generalizing exponent with
  | _ coefficient ih =>
    unfold Decimal.stripZeros
    split
    · exact ih (coefficient / 10) (by omega) (by omega) (exponent + 1)
    · exact h

lemma isPlain_normalize (x : Decimal) : IsPlain x.normalize := by
  unfold Decimal.normalize
  split
  · exact fun _ => rfl
  · rename_i h
    exact fun hzero => absurd hzero (stripZeros_ne_zero h x.exponent)

lemma isPlain_of_readBackOnGrid {target : Binary64} {negative : Bool} {exponent : Int}
    {numerator denominator : Nat} {x : Decimal}
    (h : Binary64.readBackOnGrid target negative exponent numerator denominator = some x) :
    IsPlain x := by
  have hmem := List.mem_of_find?_eq_some h
  obtain ⟨n, -, rfl⟩ := List.mem_map.mp hmem
  exact isPlain_normalize _

lemma isPlain_shortest (negative : Bool) (mantissa : Nat) (exponent : Int)
    (canonical : IsCanonical mantissa exponent) :
    IsPlain (Binary64.shortest negative mantissa exponent canonical) := by
  unfold Binary64.shortest
  split
  · exact fun _ => rfl
  · simp only
    generalize hfound : List.findSome? _ _ = found
    cases found with
    | none => exact isPlain_normalize _
    | some x =>
      obtain ⟨n, -, hn⟩ := List.exists_of_findSome?_eq_some hfound
      exact isPlain_of_readBackOnGrid hn

lemma toInt?_eq_none {n : NumberLiteral} (h : n.fraction ≠ none ∨ n.exponent ≠ none) :
    n.toInt? = none := by
  unfold NumberLiteral.toInt?
  split
  · rename_i hfraction hexponent _
    exact absurd h (by simp [hfraction, hexponent])
  · rfl

/-- The literal that digits with a point are when the first one stands for `10 ^ leading`. -/
def positionalLiteral (negative : Bool) (digits : List Char) (leading : Int) : NumberLiteral :=
  if leading < 0 then
    ⟨negative, ['0'], some (List.replicate (-leading - 1).toNat '0' ++ digits), none⟩
  else if digits.length ≤ leading.toNat + 1 then
    ⟨negative, digits ++ List.replicate (leading.toNat + 1 - digits.length) '0', some ['0'], none⟩
  else
    ⟨negative, digits.take (leading.toNat + 1), some (digits.drop (leading.toNat + 1)), none⟩

/-- The literal that digits with an exponent are. -/
def scientificLiteral (negative : Bool) (digits : List Char) (leading : Int) : NumberLiteral :=
  match digits with
  | first :: second :: rest => ⟨negative, [first], some (second :: rest), some leading⟩
  | digits => ⟨negative, digits, none, some leading⟩

def leadingExponent (x : Decimal) : Int :=
  ((natText x.coefficient).length : Int) - 1 + x.exponent

/-- The literal that the text of a decimal is. -/
def decimalLiteral (x : Decimal) : NumberLiteral :=
  if positionalRange.1 ≤ leadingExponent x ∧ leadingExponent x ≤ positionalRange.2 then
    positionalLiteral x.negative (natText x.coefficient) (leadingExponent x)
  else scientificLiteral x.negative (natText x.coefficient) (leadingExponent x)

lemma spelling_positionalLiteral (negative : Bool) (digits : List Char) (leading : Int) :
    (positionalLiteral negative digits leading).spelling =
      signText negative ++ positional digits leading := by
  by_cases hneg : leading < 0
  · simp [positionalLiteral, positional, hneg, NumberLiteral.spelling, fractionText, exponentText]
  · by_cases hlen : digits.length ≤ leading.toNat + 1 <;>
      simp [positionalLiteral, positional, hneg, hlen, NumberLiteral.spelling, fractionText,
        exponentText]

lemma spelling_scientificLiteral (negative : Bool) (digits : List Char) (leading : Int) :
    (scientificLiteral negative digits leading).spelling =
      signText negative ++ scientific digits leading := by
  match digits with
  | [] | [_] | _ :: _ :: _ =>
    simp [scientificLiteral, scientific, NumberLiteral.spelling, fractionText, exponentText]

lemma decimalText_eq_spelling (x : Decimal) : decimalText x = (decimalLiteral x).spelling := by
  have htext : decimalText x = signText x.negative ++
      (if positionalRange.1 ≤ leadingExponent x ∧ leadingExponent x ≤ positionalRange.2 then
        positional (natText x.coefficient) (leadingExponent x)
      else scientific (natText x.coefficient) (leadingExponent x)) := rfl
  rw [htext, decimalLiteral]
  split
  · rw [spelling_positionalLiteral]
  · rw [spelling_scientificLiteral]

lemma forall_mem_zeros (n : Nat) : ∀ c ∈ List.replicate n '0', c.isDigit = true := by
  intro c hc
  rw [List.eq_of_mem_replicate hc]
  rfl

lemma positionalLiteral_wellFormed (negative : Bool) {digits : List Char} {leading : Int}
    (hdigits : ∀ c ∈ digits, c.isDigit = true) (hne : digits ≠ [])
    (hhead : (∀ c ∈ digits.head?, c ≠ '0') ∨ (digits.length = 1 ∧ leading = 0)) :
    (positionalLiteral negative digits leading).WellFormed := by
  unfold positionalLiteral
  split
  · refine ⟨by simp, rfl, ?_⟩
    rintro _ ⟨⟩
    refine ⟨by simp [hne], fun c hc => ?_⟩
    exact (List.mem_append.mp hc).elim (forall_mem_zeros _ c) (hdigits c)
  · split
    · refine ⟨fun c hc => ?_, ?_, ?_⟩
      · exact (List.mem_append.mp hc).elim (hdigits c) (forall_mem_zeros _ c)
      · rcases hhead with hhead | ⟨hone, rfl⟩
        · refine isWholePart_of_head (by simp [hne]) ?_
          obtain ⟨first, rest, rfl⟩ := List.exists_cons_of_ne_nil hne
          simpa using hhead
        · obtain ⟨first, rfl⟩ := List.length_eq_one_iff.mp hone
          rfl
      · rintro _ ⟨⟩
        simp
    · rename_i hlen
      refine ⟨fun c hc => hdigits c (List.mem_of_mem_take hc), ?_, ?_⟩
      · obtain ⟨first, rest, rfl⟩ := List.exists_cons_of_ne_nil hne
        rcases hhead with hhead | ⟨hone, rfl⟩
        · exact isWholePart_of_head (by simp) (by simpa using hhead)
        · simp only [List.length_cons, Int.toNat_zero] at hlen hone
          omega
      · rintro _ ⟨⟩
        refine ⟨?_, fun c hc => hdigits c (List.mem_of_mem_drop hc)⟩
        rw [Ne, List.drop_eq_nil_iff]
        omega

lemma scientificLiteral_wellFormed (negative : Bool) {digits : List Char} (leading : Int)
    (hdigits : ∀ c ∈ digits, c.isDigit = true) (hne : digits ≠ []) :
    (scientificLiteral negative digits leading).WellFormed := by
  match digits with
  | [] => exact absurd rfl hne
  | [first] => exact ⟨hdigits, rfl, by simp [scientificLiteral]⟩
  | first :: second :: rest =>
    refine ⟨?_, rfl, ?_⟩
    · simpa [scientificLiteral] using hdigits first (by simp)
    · rintro _ ⟨⟩
      exact ⟨by simp, fun c hc => hdigits c (List.mem_cons_of_mem _ hc)⟩

lemma toInt?_decimalLiteral (x : Decimal) : (decimalLiteral x).toInt? = none := by
  refine toInt?_eq_none ?_
  unfold decimalLiteral
  split
  · left
    unfold positionalLiteral
    split
    · simp
    · split <;> simp
  · right
    unfold scientificLiteral
    split <;> simp

lemma decimalLiteral_wellFormed {x : Decimal} (hplain : IsPlain x) :
    (decimalLiteral x).WellFormed := by
  have hdigits : ∀ c ∈ natText x.coefficient, c.isDigit = true :=
    fun c hc => isDigit_of_mem_natText hc
  have hne := natText_ne_nil x.coefficient
  have hhead : (∀ c ∈ (natText x.coefficient).head?, c ≠ '0') ∨
      ((natText x.coefficient).length = 1 ∧ leadingExponent x = 0) := by
    rcases Nat.eq_zero_or_pos x.coefficient with hzero | hpos
    · have hone : (natText x.coefficient).length = 1 := by
        rw [hzero]
        rfl
      exact .inr ⟨hone, by simp [leadingExponent, hone, hplain hzero]⟩
    · exact .inl (head_natText_ne hpos)
  unfold decimalLiteral
  split
  · exact positionalLiteral_wellFormed x.negative hdigits hne hhead
  · exact scientificLiteral_wellFormed x.negative _ hdigits hne

/-- The text of a finite double is the spelling of a literal that is no integer. -/
theorem exists_floatText_eq_spelling {x : Binary64} (h : x.isFinite = true) :
    ∃ n : NumberLiteral, n.WellFormed ∧ n.toInt? = none ∧ floatText x = n.spelling := by
  cases x with
  | nan => simp [Binary64.isFinite] at h
  | infinity negative => simp [Binary64.isFinite] at h
  | finite negative mantissa exponent canonical =>
    let decimal := Binary64.shortest negative mantissa exponent canonical
    have hplain : IsPlain decimal := isPlain_shortest negative mantissa exponent canonical
    exact ⟨decimalLiteral decimal, decimalLiteral_wellFormed hplain, toInt?_decimalLiteral decimal,
      decimalText_eq_spelling decimal⟩

end DocStore.Json
