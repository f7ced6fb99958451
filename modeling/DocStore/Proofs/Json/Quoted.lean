import DocStore.Json.Token
import Mathlib.Data.List.Basic
import Mathlib.Tactic.Lemma

/-!
# Reading quoted strings

A string is read back from its written form, whatever follows it (`splitString_escape`). A character
is written in one of three ways (`escape_cases`): behind a backslash, by its code, or as it is.
-/

namespace DocStore.Json

lemma hexNumber?_digits : ∀ n < 32,
    hexNumber? ['0', '0', Nat.digitChar (n / 16), Nat.digitChar (n % 16)] = some n := by
  decide

lemma escape_cases (c : Char) :
    (∃ letter, escape c = ['\\', letter] ∧ letterEscape? letter = some c) ∨
    (isControl c = true ∧ escape c =
      ['\\', 'u', '0', '0', Nat.digitChar (c.toNat / 16), Nat.digitChar (c.toNat % 16)]) ∨
    (escape c = [c] ∧ c ≠ '"' ∧ c ≠ '\\' ∧ isControl c = false) := by
  unfold escape
  split
  · exact .inl ⟨'"', rfl, rfl⟩
  · exact .inl ⟨'\\', rfl, rfl⟩
  · exact .inl ⟨'b', rfl, rfl⟩
  · exact .inl ⟨'t', rfl, rfl⟩
  · exact .inl ⟨'n', rfl, rfl⟩
  · exact .inl ⟨'f', rfl, rfl⟩
  · exact .inl ⟨'r', rfl, rfl⟩
  · rename_i hquote hslash _ _ _ _ _
    cases hcontrol : isControl c with
    | true => exact .inr (.inl ⟨rfl, by simp⟩)
    | false => exact .inr (.inr ⟨by simp, hquote, hslash, rfl⟩)

/-- The piece that a written character is read as. -/
def pieceOf (c : Char) : Piece :=
  match escape c with
  | '\\' :: 'u' :: _ => .unit c.toNat
  | _ => .char c

lemma splitQuoted_backslash (c : Char) (rest : List Char) :
    splitQuoted ('\\' :: c :: rest) =
      (splitQuoted rest).map fun (body, rest) => ('\\' :: c :: body, rest) := by
  rw [splitQuoted]

lemma splitQuoted_plain {c : Char} (hquote : c ≠ '"') (hslash : c ≠ '\\')
    (hcontrol : isControl c = false) (rest : List Char) :
    splitQuoted (c :: rest) = (splitQuoted rest).map fun (body, rest) => (c :: body, rest) := by
  cases rest <;> simp [splitQuoted, hslash, hcontrol]

lemma splitQuoted_escape (c : Char) (rest : List Char) :
    splitQuoted (escape c ++ rest) =
      (splitQuoted rest).map fun (body, rest) => (escape c ++ body, rest) := by
  rcases escape_cases c with ⟨letter, hescape, -⟩ | ⟨hcontrol, hescape⟩ |
    ⟨hescape, hquote, hslash, hcontrol⟩
  · rw [hescape]
    exact splitQuoted_backslash letter rest
  · have hlt : c.toNat < 32 := by simpa [isControl] using hcontrol
    have hplain : ∀ d < 16, Nat.digitChar d ≠ '"' ∧ Nat.digitChar d ≠ '\\' ∧
        isControl (Nat.digitChar d) = false := by decide
    obtain ⟨hquote₁, hslash₁, hcontrol₁⟩ := hplain (c.toNat / 16) (by omega)
    obtain ⟨hquote₂, hslash₂, hcontrol₂⟩ := hplain (c.toNat % 16) (by omega)
    rw [hescape]
    simp only [List.cons_append, List.nil_append, splitQuoted_backslash,
      splitQuoted_plain (c := '0') (by decide) (by decide) (by decide),
      splitQuoted_plain hquote₁ hslash₁ hcontrol₁, splitQuoted_plain hquote₂ hslash₂ hcontrol₂,
      Option.map_map]
    rfl
  · rw [hescape]
    exact splitQuoted_plain hquote hslash hcontrol rest

lemma splitQuoted_flatMap_escape (s rest : List Char) :
    splitQuoted (s.flatMap escape ++ '"' :: rest) = some (s.flatMap escape, rest) := by
  induction s with
  | nil => rfl
  | cons c more ih =>
    rw [List.flatMap_cons, List.append_assoc, splitQuoted_escape, ih]
    rfl

lemma pieces?_escape (c : Char) (rest : List Char) :
    pieces? (escape c ++ rest) = (pieces? rest).map (pieceOf c :: ·) := by
  rcases escape_cases c with ⟨letter, hescape, hletter⟩ | ⟨hcontrol, hescape⟩ |
    ⟨hescape, hquote, hslash, hcontrol⟩
  · have hu : letter ≠ 'u' := by
      rintro rfl
      simp [letterEscape?] at hletter
    have hpiece : pieceOf c = .char c := by
      simp [pieceOf, hescape, hu]
    rw [hescape, hpiece, List.cons_append, List.cons_append, List.nil_append, pieces?]
    · rw [hletter]
      cases pieces? rest <;> rfl
    · intro a b c d more h
      exact absurd h hu
  · have hlt : c.toNat < 32 := by simpa [isControl] using hcontrol
    have hpiece : pieceOf c = .unit c.toNat := by
      simp [pieceOf, hescape]
    rw [hescape, hpiece]
    simp only [List.cons_append, List.nil_append, pieces?, hexNumber?_digits c.toNat hlt]
    cases pieces? rest <;> rfl
  · have hpiece : pieceOf c = .char c := by
      simp [pieceOf, hescape]
    rw [hescape, hpiece]
    simp [pieces?, hslash]

lemma joinPieces_pieceOf (c : Char) (more : List Piece) :
    joinPieces (pieceOf c :: more) = (joinPieces more).map (c :: ·) := by
  rcases escape_cases c with ⟨letter, hescape, hletter⟩ | ⟨hcontrol, hescape⟩ |
    ⟨hescape, hquote, hslash, hcontrol⟩
  · have hu : letter ≠ 'u' := by
      rintro rfl
      simp [letterEscape?] at hletter
    simp [pieceOf, hescape, hu, joinPieces]
  · have hlt : c.toNat < 32 := by simpa [isControl] using hcontrol
    have hhigh : isHighSurrogate c.toNat = false := by
      simp [isHighSurrogate]
      omega
    have hlow : isLowSurrogate c.toNat = false := by
      simp [isLowSurrogate]
      omega
    simp only [pieceOf, hescape]
    rw [joinPieces.eq_def]
    simp [hhigh, hlow]
  · simp [pieceOf, hescape, joinPieces]

lemma pieces?_flatMap_escape (s : List Char) :
    pieces? (s.flatMap escape) = some (s.map pieceOf) := by
  induction s with
  | nil => rfl
  | cons c more ih =>
    rw [List.flatMap_cons, pieces?_escape, ih]
    rfl

lemma joinPieces_map_pieceOf (s : List Char) : joinPieces (s.map pieceOf) = some s := by
  induction s with
  | nil => rfl
  | cons c more ih =>
    rw [List.map_cons, joinPieces_pieceOf, ih]
    rfl

theorem splitString_escape (s : String) (rest : List Char) :
    Token.splitString (s.toList.flatMap escape ++ '"' :: rest) =
      some (.string (some s), rest) := by
  simp [Token.splitString, splitQuoted_flatMap_escape, pieces?_flatMap_escape,
    joinPieces_map_pieceOf]

end DocStore.Json
