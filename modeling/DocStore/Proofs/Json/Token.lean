import DocStore.Json.Token
import DocStore.Proofs.Json.Number
import DocStore.Proofs.Json.Quoted
import Mathlib.Data.Option.Basic
import Mathlib.Tactic.Lemma

/-!
# Reading tokens

`Spells s tokens` says that a text consists of these tokens and of blanks. Every token takes a
character (`Token.length_lt_of_split`), so the scanner finds the tokens that a text spells
(`Spells.scan_eq`).
-/

namespace DocStore.Json

lemma length_lt_of_splitQuoted {s body rest : List Char} (h : splitQuoted s = some (body, rest)) :
    rest.length < s.length := by
  fun_induction splitQuoted s generalizing body rest with
  | case1 => simp at h
  | case2 more =>
    simp only [Option.some.injEq, Prod.mk.injEq] at h
    simp [← h.2]
  | case3 c more ih =>
    obtain ⟨⟨inner, after⟩, hinner, heq⟩ := Option.map_eq_some_iff.mp h
    cases heq
    have := ih hinner
    simp only [List.length_cons]
    omega
  | case4 => simp at h
  | case5 c more _ _ _ ih =>
    obtain ⟨⟨inner, after⟩, hinner, heq⟩ := Option.map_eq_some_iff.mp h
    cases heq
    have := ih hinner
    simp only [List.length_cons]
    omega

lemma length_splitDigits (s : List Char) :
    (splitDigits s).1.length + (splitDigits s).2.length = s.length := by
  rw [splitDigits, ← List.length_append, List.takeWhile_append_dropWhile]

lemma length_splitMinus_le (s : List Char) : (splitMinus s).2.length ≤ s.length := by
  unfold splitMinus
  split <;> simp

lemma length_le_of_splitFraction {s rest : List Char} {fraction : Option (List Char)}
    (h : splitFraction s = some (fraction, rest)) : rest.length ≤ s.length := by
  unfold splitFraction at h
  split at h
  · rename_i more
    have hlen := length_splitDigits more
    split at h
    · simp at h
    · rename_i hdigits
      cases h
      rw [hdigits] at hlen
      simp only [List.length_cons] at hlen ⊢
      omega
  · cases h
    exact Nat.le_refl _

lemma length_le_of_splitExponent {s rest : List Char} {exponent : Option Int}
    (h : splitExponent s = some (exponent, rest)) : rest.length ≤ s.length := by
  unfold splitExponent at h
  split at h
  · rename_i c more
    split at h
    · split at h
      rename_i negative signless hsign
      have hsigned : signless.length ≤ more.length := by
        split at hsign
        · cases hsign
          simp
        · have := length_splitMinus_le more
          rwa [hsign] at this
      have hlen := length_splitDigits signless
      split at h
      · simp at h
      · rename_i hdigits
        cases h
        rw [hdigits] at hlen
        simp only [List.length_cons] at hlen ⊢
        omega
    · cases h
      exact Nat.le_refl _
  · cases h
    exact Nat.le_refl _

lemma length_lt_of_splitNumber {s rest : List Char} {n : NumberLiteral}
    (h : splitNumber s = some (n, rest)) : rest.length < s.length := by
  unfold splitNumber at h
  have hminus := length_splitMinus_le s
  have hdigits := length_splitDigits (splitMinus s).2
  simp only [bind, Option.bind_eq_some_iff, Option.guard_eq_some'] at h
  obtain ⟨-, hwhole, ⟨fraction, s₁⟩, hfraction, ⟨exponent, s₂⟩, hexponent, heq⟩ := h
  cases heq
  have hfirst : 0 < (splitDigits (splitMinus s).2).1.length := by
    refine List.length_pos_iff.mpr fun hnil => ?_
    simp [hnil, isWholePart] at hwhole
  have hle₁ := length_le_of_splitFraction hfraction
  have hle₂ := length_le_of_splitExponent hexponent
  dsimp only at hle₁ hle₂ ⊢
  omega

namespace Token

theorem length_lt_of_split {s rest : List Char} {token : Token}
    (h : split s = some (token, rest)) : rest.length < s.length := by
  unfold split at h
  split at h
  case h_1 => simp at h
  case h_8 more =>
    simp only [splitString, bind, Option.bind_eq_some_iff] at h
    obtain ⟨⟨body, after⟩, hquoted, pieces, -, heq⟩ := h
    cases heq
    have := length_lt_of_splitQuoted hquoted
    simp only [List.length_cons]
    omega
  case h_12 =>
    obtain ⟨⟨n, after⟩, hnumber, heq⟩ := Option.map_eq_some_iff.mp h
    cases heq
    exact length_lt_of_splitNumber hnumber
  all_goals
    cases h
    simp only [List.length_cons]
    omega

end Token

/-- A text that consists of these tokens, with blanks around them. -/
inductive Spells : List Char → List Token → Prop
  | blank {s : List Char} (h : s.dropWhile isBlank = []) : Spells s []
  | token {s rest : List Char} {token : Token} {more : List Token}
      (h : Token.split (s.dropWhile isBlank) = some (token, rest)) (hm : Spells rest more) :
      Spells s (token :: more)

namespace Spells

variable {s : List Char} {tokens : List Token}

lemma length_le (h : Spells s tokens) : tokens.length ≤ s.length := by
  induction h with
  | blank => simp
  | @token s rest token more h _ ih =>
    have hlt := Token.length_lt_of_split h
    have hle := (List.dropWhile_sublist isBlank (l := s)).length_le
    simp only [List.length_cons]
    omega

lemma scanWithin_eq (h : Spells s tokens) (bound : Nat) (hb : tokens.length < bound) :
    Token.scanWithin bound s = some tokens := by
  induction h generalizing bound with
  | blank h =>
    obtain ⟨bound, rfl⟩ := Nat.exists_eq_add_one_of_ne_zero (by omega : bound ≠ 0)
    simp [Token.scanWithin, h]
  | @token s rest token more h _ ih =>
    obtain ⟨bound, rfl⟩ := Nat.exists_eq_add_one_of_ne_zero (by omega : bound ≠ 0)
    simp only [List.length_cons] at hb
    unfold Token.scanWithin
    split
    · rename_i hnil
      simp [hnil, Token.split] at h
    · simp [h, ih bound (by omega)]

theorem scan_eq (h : Spells s tokens) : Token.scan s = some tokens :=
  h.scanWithin_eq _ (Nat.lt_succ_of_le h.length_le)

lemma append_blanks {blanks : List Char} (hblanks : ∀ c ∈ blanks, isBlank c = true)
    (h : Spells s tokens) : Spells (blanks ++ s) tokens := by
  have hdrop : (blanks ++ s).dropWhile isBlank = s.dropWhile isBlank :=
    List.dropWhile_append_of_pos hblanks
  cases h with
  | blank h => exact .blank (hdrop ▸ h)
  | token h hm => exact .token (hdrop ▸ h) hm

end Spells

lemma spells_cons {c : Char} {rest : List Char} {token : Token} {more : List Token}
    (hblank : isBlank c = false) (h : Token.split (c :: rest) = some (token, rest))
    (hm : Spells rest more) : Spells (c :: rest) (token :: more) :=
  .token (by rwa [List.dropWhile_cons_of_neg (by simp [hblank])]) hm

lemma spells_quote (s : String) {rest : List Char} {more : List Token} (hm : Spells rest more) :
    Spells (quote s ++ rest) (.string (some s) :: more) := by
  refine .token ?_ hm
  have hquote : quote s ++ rest = '"' :: (s.toList.flatMap escape ++ '"' :: rest) := by
    simp [quote]
  rw [hquote, List.dropWhile_cons_of_neg (by decide)]
  exact splitString_escape s rest

lemma isDigit_head_spelling {n : NumberLiteral} (h : n.WellFormed) (rest : List Char) :
    ∃ c more, n.spelling ++ rest = c :: more ∧ (c.isDigit = true ∨ c = '-') := by
  obtain ⟨negative, whole, fraction, exponent⟩ := n
  cases negative with
  | true => exact ⟨'-', _, rfl, .inr rfl⟩
  | false =>
    cases whole with
    | nil => exact absurd h.whole_part (by simp [isWholePart])
    | cons c more => exact ⟨c, _, rfl, .inl (h.whole_digits c (by simp))⟩

lemma spells_spelling {n : NumberLiteral} (h : n.WellFormed) {rest : List Char}
    {more : List Token} (hr : EndsNumber rest) (hm : Spells rest more) :
    Spells (n.spelling ++ rest) (.number n :: more) := by
  have hnumber := splitNumber_spelling h hr
  obtain ⟨c, tail, hcons, hc⟩ := isDigit_head_spelling h rest
  have hne : c ≠ '{' ∧ c ≠ '}' ∧ c ≠ '[' ∧ c ≠ ']' ∧ c ≠ ':' ∧ c ≠ ',' ∧ c ≠ '"' ∧ c ≠ 'n' ∧
      c ≠ 't' ∧ c ≠ 'f' ∧ c ≠ ' ' ∧ c ≠ '\t' ∧ c ≠ '\n' ∧ c ≠ '\r' := by
    refine ⟨?_, ?_, ?_, ?_, ?_, ?_, ?_, ?_, ?_, ?_, ?_, ?_, ?_, ?_⟩ <;>
      rintro rfl <;> simp [Char.isDigit] at hc
  refine .token ?_ hm
  rw [hcons] at hnumber ⊢
  have hblank : isBlank c = false := by simp [isBlank, hne]
  rw [List.dropWhile_cons_of_neg (by simp [hblank])]
  simp [Token.split, hne, hnumber]

end DocStore.Json
