import DocStore.Toml.Quoted
import Mathlib.Data.List.Basic
import Mathlib.Tactic.Lemma

/-!
# Reading TOML strings

A string is read back from its written form (`Quoted.split_write`), unless a quotation mark follows
it. One lemma for each of the four forms says that the text between its marks is read back; in the
forms on several lines the quotation marks in a row are counted.
-/

namespace DocStore.Toml.Quoted

lemma codeEscape?_control : ∀ n < 32,
    codeEscape? ['0', '0', (Nat.digitChar (n / 16)).toUpper, (Nat.digitChar (n % 16)).toUpper] =
      some (Char.ofNat n) := by
  decide

lemma escape?_cases (c : Char) :
    (∃ letter, escape? c = some ['\\', letter] ∧ letterEscape? letter = some c) ∨
    (∃ x y, escape? c = some ['\\', 'u', '0', '0', x, y] ∧
      codeEscape? ['0', '0', x, y] = some c) ∨
    (escape? c = none ∧ c ≠ '\\' ∧ isControl c = false) := by
  unfold escape?
  split
  · exact .inl ⟨'b', rfl, rfl⟩
  · exact .inl ⟨'t', rfl, rfl⟩
  · exact .inl ⟨'f', rfl, rfl⟩
  · exact .inl ⟨'r', rfl, rfl⟩
  · exact .inl ⟨'\\', rfl, rfl⟩
  · rename_i hslash
    cases hcontrol : isControl c with
    | false => exact .inr (.inr ⟨by simp, hslash, rfl⟩)
    | true =>
      refine .inr (.inl ⟨_, _, by rw [if_pos rfl], ?_⟩)
      have hcode : c.toNat < 32 ∨ c.toNat = 127 := by simpa [isControl] using hcontrol
      rcases hcode with hlt | heq
      · rw [codeEscape?_control c.toNat hlt, Char.ofNat_toNat]
      · rw [heq, ← Char.ofNat_toNat c, heq]
        decide

lemma isPlain_of_not_isControl {c : Char} (h : isControl c = false) : isPlain c = true := by
  simp [isPlain, h]

lemma ne_of_letterEscape? {letter c : Char} (h : letterEscape? letter = some c) :
    letter ≠ 'u' ∧ letter ≠ 'U' ∧ isBlank letter = false ∧ letter ≠ '\n' ∧ letter ≠ '\r' := by
  refine ⟨?_, ?_, ?_, ?_, ?_⟩
  · rintro rfl
    cases h
  · rintro rfl
    cases h
  · by_contra hblank
    have hcases : letter = ' ' ∨ letter = '\t' := by
      simpa [isBlank, -not_or, imp_iff_not_or] using hblank
    rcases hcases with rfl | rfl <;> cases h
  · rintro rfl
    cases h
  · rintro rfl
    cases h

lemma splitBasic_letter {letter c : Char} (h : letterEscape? letter = some c)
    (rest : List Char) : splitBasic ('\\' :: letter :: rest) = consChar c (splitBasic rest) := by
  obtain ⟨hu, hU, -⟩ := ne_of_letterEscape? h
  rw [splitBasic]
  · rw [h, Option.bind_some]
  · exact fun _ _ _ _ _ heq => absurd heq hu
  · exact fun _ _ _ _ _ _ _ _ _ heq => absurd heq hU

lemma splitBasic_escape {c : Char} (hquote : c ≠ '"') (rest : List Char) :
    splitBasic ((escape? c).getD [c] ++ rest) = consChar c (splitBasic rest) := by
  rcases escape?_cases c with ⟨letter, hescape, hletter⟩ | ⟨x, y, hescape, hcode⟩ |
    ⟨hescape, hslash, hcontrol⟩
  · rw [hescape]
    exact splitBasic_letter hletter rest
  · rw [hescape]
    simp only [Option.getD_some, List.cons_append, List.nil_append]
    rw [splitBasic, hcode, Option.bind_some]
  · rw [hescape]
    simp only [Option.getD_none, List.cons_append, List.nil_append]
    rw [splitBasic, if_pos ⟨hslash, isPlain_of_not_isControl hcontrol⟩]
    · exact hquote
    · exact fun _ _ _ _ _ heq => absurd heq hslash
    · exact fun _ _ _ _ _ _ _ _ _ heq => absurd heq hslash
    · exact fun _ _ heq => absurd heq hslash

lemma splitBasic_basicBody (s rest : List Char) :
    splitBasic (basicBody s ++ '"' :: rest) = some (s, rest) := by
  induction s with
  | nil => rfl
  | cons c more ih =>
    by_cases hnewline : c = '\n'
    · subst hnewline
      have hletter : letterEscape? 'n' = some '\n' := rfl
      rw [basicBody, List.cons_append, List.cons_append, splitBasic_letter hletter, ih]
      rfl
    · by_cases hquote : c = '"'
      · subst hquote
        have hletter : letterEscape? '"' = some '"' := rfl
        rw [basicBody, List.cons_append, List.cons_append, splitBasic_letter hletter, ih]
        rfl
      · rw [basicBody, List.append_assoc, splitBasic_escape hquote, ih]
        · rfl
        · exact hnewline
        · exact hquote

lemma splitLiteral_append {s : List Char} (h : ∀ c ∈ s, isPlain c = true ∧ c ≠ '\'')
    (rest : List Char) : splitLiteral (s ++ '\'' :: rest) = some (s, rest) := by
  induction s with
  | nil => rfl
  | cons c more ih =>
    obtain ⟨⟨hplain, hquote⟩, hmore⟩ := List.forall_mem_cons.mp h
    rw [List.cons_append, splitLiteral, if_pos hplain, ih hmore]
    · rfl
    · exact hquote

/-- What a reader of strings on several lines does with their mark. Three in a row close a string,
and up to two more in front of them belong to it. A mark that does not close is a character. -/
structure ReadsMarks (mark : Char) (read : List Char → Option (List Char × List Char)) :
    Prop where
  closing : ∀ run ≤ 2, ∀ rest : List Char, rest.head? ≠ some mark →
    read (List.replicate run mark ++ mark :: mark :: mark :: rest) =
      some (List.replicate run mark, rest)
  single : ∀ s : List Char, (∀ more, s ≠ mark :: mark :: more) →
    read (mark :: s) = consChar mark (read s)

/-- Up to two marks in front of another character belong to the string. -/
lemma ReadsMarks.inside {mark : Char} {read : List Char → Option (List Char × List Char)}
    (h : ReadsMarks mark read) {run : Nat} (hrun : run ≤ 2) {c : Char} (hc : c ≠ mark)
    {rest s after : List Char} (hread : read (c :: rest) = some (s, after)) :
    read (List.replicate run mark ++ c :: rest) = some (List.replicate run mark ++ s, after) := by
  have hone : read (mark :: c :: rest) = some (mark :: s, after) := by
    rw [h.single _ (by simp [hc]), hread]
    rfl
  match run with
  | 0 => exact hread
  | 1 => exact hone
  | 2 =>
    have htwo : read (mark :: mark :: c :: rest) = some (mark :: mark :: s, after) := by
      rw [h.single _ (by simp [hc]), hone]
      rfl
    exact htwo

lemma readsMarks_basic : ReadsMarks '"' (splitMultilineBasic false) where
  closing := by
    intro run hrun rest hrest
    have hone : ∀ more, rest = '"' :: more → False := by
      rintro more rfl
      exact hrest rfl
    match run with
    | 0 =>
      simp only [List.replicate, List.nil_append]
      rw [splitMultilineBasic]
      · exact fun more => hone _
      · exact hone
    | 1 =>
      simp only [List.replicate, List.cons_append, List.nil_append]
      rw [splitMultilineBasic]
      exact hone
    | 2 => rfl
  single := by
    intro s hs
    rw [splitMultilineBasic]
    · simp [isPlain, isControl]
    all_goals simp_all

lemma readsMarks_literal : ReadsMarks '\'' splitMultilineLiteral where
  closing := by
    intro run hrun rest hrest
    have hone : ∀ more, rest = '\'' :: more → False := by
      rintro more rfl
      exact hrest rfl
    match run with
    | 0 =>
      simp only [List.replicate, List.nil_append]
      rw [splitMultilineLiteral]
      · exact fun more => hone _
      · exact hone
    | 1 =>
      simp only [List.replicate, List.cons_append, List.nil_append]
      rw [splitMultilineLiteral]
      exact hone
    | 2 => rfl
  single := by
    intro s hs
    rw [splitMultilineLiteral]
    · simp [isPlain, isControl]
    all_goals simp_all

lemma splitNewline?_cons {c : Char} (hnewline : c ≠ '\n') (hreturn : c ≠ '\r')
    (rest : List Char) : splitNewline? (c :: rest) = none := by
  rw [splitNewline?]
  · exact fun _ heq => hnewline (List.cons.inj heq).1
  · exact fun _ heq => hreturn (List.cons.inj heq).1

lemma endsLine_letter {letter c : Char} (h : letterEscape? letter = some c) (rest : List Char) :
    endsLine (letter :: rest) = false := by
  obtain ⟨-, -, hblank, hnewline, hreturn⟩ := ne_of_letterEscape? h
  rw [endsLine, List.dropWhile_cons_of_neg (by simp [hblank]),
    splitNewline?_cons hnewline hreturn]
  rfl

lemma splitMultilineBasic_letter {letter c : Char} (h : letterEscape? letter = some c)
    (rest : List Char) :
    splitMultilineBasic false ('\\' :: letter :: rest) =
      consChar c (splitMultilineBasic false rest) := by
  obtain ⟨hu, hU, -⟩ := ne_of_letterEscape? h
  rw [splitMultilineBasic]
  · rw [endsLine_letter h, if_neg Bool.false_ne_true, h, Option.bind_some]
  · exact fun _ _ _ _ _ heq => absurd heq hu
  · exact fun _ _ _ _ _ _ _ _ _ heq => absurd heq hU

/-- The written form of a character that is no quotation mark, on several lines. -/
def multilineChar (c : Char) : List Char :=
  if c = '\n' then ['\n'] else (escape? c).getD [c]

lemma multilineBasicBody_cons {c : Char} (hquote : c ≠ '"') (run : Nat) (s : List Char) :
    multilineBasicBody run (c :: s) = multilineChar c ++ multilineBasicBody 0 s := by
  by_cases hnewline : c = '\n'
  · subst hnewline
    rfl
  · rw [multilineBasicBody, multilineChar, if_neg hnewline]
    · exact hnewline
    · exact hquote

lemma exists_multilineChar_eq_cons {c : Char} (hquote : c ≠ '"') :
    ∃ first more, multilineChar c = first :: more ∧ first ≠ '"' ∧
      (c ≠ '\n' → first ≠ '\n' ∧ first ≠ '\r') := by
  by_cases hnewline : c = '\n'
  · exact ⟨'\n', [], if_pos hnewline, by decide, fun hne => absurd hnewline hne⟩
  · rw [multilineChar, if_neg hnewline]
    rcases escape?_cases c with ⟨letter, hescape, -⟩ | ⟨x, y, hescape, -⟩ |
      ⟨hescape, -, hcontrol⟩
    · exact ⟨'\\', [letter], by rw [hescape]; rfl, by decide, fun _ => by decide⟩
    · exact ⟨'\\', ['u', '0', '0', x, y], by rw [hescape]; rfl, by decide, fun _ => by decide⟩
    · refine ⟨c, [], by rw [hescape]; rfl, hquote, fun _ => ⟨hnewline, ?_⟩⟩
      rintro rfl
      cases hcontrol

lemma splitMultilineBasic_multilineChar {c : Char} (hquote : c ≠ '"') (rest : List Char) :
    splitMultilineBasic false (multilineChar c ++ rest) =
      consChar c (splitMultilineBasic false rest) := by
  by_cases hnewline : c = '\n'
  · subst hnewline
    rw [multilineChar, if_pos rfl, List.cons_append, List.nil_append, splitMultilineBasic]
    · simp
    all_goals simp
  · rw [multilineChar, if_neg hnewline]
    rcases escape?_cases c with ⟨letter, hescape, hletter⟩ | ⟨x, y, hescape, hcode⟩ |
      ⟨hescape, hslash, hcontrol⟩
    · rw [hescape]
      exact splitMultilineBasic_letter hletter rest
    · rw [hescape]
      simp only [Option.getD_some, List.cons_append, List.nil_append]
      rw [splitMultilineBasic, hcode, Option.bind_some]
    · have hreturn : c ≠ '\r' := by
        rintro rfl
        cases hcontrol
      rw [hescape]
      simp only [Option.getD_none, List.cons_append, List.nil_append]
      rw [splitMultilineBasic]
      · simp [hslash, isPlain_of_not_isControl hcontrol]
      all_goals simp [hquote, hslash, hreturn]

/-- What is written of a string after `run` quotation marks is read back together with them. -/
lemma splitMultilineBasic_body (s : List Char) (run : Nat) (hrun : run ≤ 2) {rest : List Char}
    (hrest : rest.head? ≠ some '"') :
    splitMultilineBasic false (List.replicate run '"' ++
        (multilineBasicBody run s ++ '"' :: '"' :: '"' :: rest)) =
      some (List.replicate run '"' ++ s, rest) := by
  induction s generalizing run with
  | nil =>
    rw [multilineBasicBody, List.nil_append, List.append_nil]
    exact readsMarks_basic.closing run hrun rest hrest
  | cons c more ih =>
    by_cases hquote : c = '"'
    · subst hquote
      rw [multilineBasicBody]
      split
      · -- One more mark joins those in front of it.
        rename_i hlt
        have hmarks := ih (run + 1) (by omega)
        simpa [List.replicate_succ'] using hmarks
      · have hletter : letterEscape? '"' = some '"' := rfl
        have hmore := ih 0 (by omega)
        simp only [List.replicate_zero, List.nil_append] at hmore
        have hescape := splitMultilineBasic_letter hletter
          (multilineBasicBody 0 more ++ '"' :: '"' :: '"' :: rest)
        rw [hmore] at hescape
        exact readsMarks_basic.inside hrun (by decide) hescape
    · obtain ⟨first, others, hfirst, hne, -⟩ := exists_multilineChar_eq_cons hquote
      have hmore := ih 0 (by omega)
      simp only [List.replicate_zero, List.nil_append] at hmore
      have hchar := splitMultilineBasic_multilineChar hquote
        (multilineBasicBody 0 more ++ '"' :: '"' :: '"' :: rest)
      rw [hmore, hfirst] at hchar
      rw [multilineBasicBody_cons hquote, hfirst, List.append_assoc]
      exact readsMarks_basic.inside hrun hne hchar

lemma hasTriple_of_append {mark : Char} {s more : List Char}
    (h : hasTriple mark (s ++ more) = false) : hasTriple mark more = false := by
  induction s with
  | nil => exact h
  | cons c rest ih =>
    rw [List.cons_append, hasTriple, Bool.or_eq_false_iff] at h
    exact ih h.2

lemma splitMultilineLiteral_append {s : List Char} (hplain : ∀ c ∈ s, c = '\n' ∨ isPlain c = true)
    (run : Nat) (hrun : run ≤ 2)
    (htriple : hasTriple '\'' (List.replicate run '\'' ++ s) = false) {rest : List Char}
    (hrest : rest.head? ≠ some '\'') :
    splitMultilineLiteral (List.replicate run '\'' ++ (s ++ '\'' :: '\'' :: '\'' :: rest)) =
      some (List.replicate run '\'' ++ s, rest) := by
  induction s generalizing run with
  | nil =>
    rw [List.nil_append, List.append_nil]
    exact readsMarks_literal.closing run hrun rest hrest
  | cons c more ih =>
    obtain ⟨hc, hmore⟩ := List.forall_mem_cons.mp hplain
    by_cases hquote : c = '\''
    · subst hquote
      have hlt : run ≠ 2 := by
        rintro rfl
        simp [hasTriple] at htriple
      have hmarks := ih hmore (run + 1) (by omega)
        (by simpa [List.replicate_succ'] using htriple)
      simpa [List.replicate_succ'] using hmarks
    · have hreturn : c ≠ '\r' := by
        rintro rfl
        rcases hc with h | h <;> cases h
      have hread := ih hmore 0 (by omega)
        (hasTriple_of_append (s := List.replicate run '\'' ++ [c]) (by simpa using htriple))
      simp only [List.replicate_zero, List.nil_append] at hread
      refine readsMarks_literal.inside hrun hquote ?_
      rw [splitMultilineLiteral]
      · rw [if_pos hc]
        exact congrArg (consChar c) hread
      all_goals simp [hquote, hreturn]

/-! ## Forms -/

/-- Whether a string has control characters other than tabs and line breaks. -/
def hasControl (s : List Char) : Bool :=
  s.any fun c => isControl c && c != '\t' && c != '\n'

lemma isPlain_of_hasControl_eq_false {s : List Char} (h : hasControl s = false) {c : Char}
    (hc : c ∈ s) (hnewline : c ≠ '\n') : isPlain c = true := by
  have hcontrol := List.any_eq_false.mp h c hc
  by_cases htab : c = '\t' <;> simp_all [isPlain]

lemma form_cases (s : List Char) :
    form s = .basic ∨ form s = .multilineBasic ∨
    (form s = .literal ∧ hasControl s = false ∧ '\'' ∉ s ∧ '\n' ∉ s) ∨
    (form s = .multilineLiteral ∧ hasControl s = false ∧ hasTriple '\'' s = false) := by
  have hany : (s.any fun c => isControl c && c != '\t' && c != '\n') = hasControl s := rfl
  simp only [form, hany]
  split
  · exact .inl rfl
  · split
    · rename_i hliteral
      simp only [Bool.and_eq_true, Bool.not_eq_true', List.contains_eq_mem,
        decide_eq_false_iff_not] at hliteral
      obtain ⟨⟨hcontrol, hquote⟩, hnewline⟩ := hliteral
      exact .inr (.inr (.inl ⟨rfl, hcontrol, hquote, hnewline⟩))
    · split
      · exact .inr (.inl rfl)
      · split
        · rename_i hliteral
          obtain ⟨hcontrol, htriple⟩ := Bool.and_eq_true_iff.mp hliteral
          simp only [Bool.not_eq_true'] at hcontrol htriple
          exact .inr (.inr (.inr ⟨rfl, hcontrol, htriple⟩))
        · split
          · exact .inr (.inl rfl)
          · exact .inl rfl

lemma head?_basicBody_ne (s : List Char) : (basicBody s).head? ≠ some '"' := by
  cases s with
  | nil => simp [basicBody]
  | cons c more =>
    by_cases hnewline : c = '\n'
    · subst hnewline
      simp [basicBody]
    · by_cases hquote : c = '"'
      · subst hquote
        simp [basicBody]
      · obtain ⟨first, others, hfirst, hne, -⟩ := exists_multilineChar_eq_cons hquote
        rw [multilineChar, if_neg hnewline] at hfirst
        rw [basicBody, hfirst]
        · simpa using hne
        · exact hnewline
        · exact hquote

lemma split_eq_splitLine {mark : Char} {body rest : List Char} (hbody : body.head? ≠ some mark)
    (hrest : rest.head? ≠ some mark) :
    split (mark :: (body ++ mark :: rest)) = splitLine (mark :: (body ++ mark :: rest)) := by
  have hmarks : ∀ more, body ++ mark :: rest ≠ mark :: mark :: more := by
    intro more heq
    cases body with
    | nil => exact hrest (by rw [(List.cons.inj heq).2, List.head?_cons])
    | cons c body => exact hbody (by rw [(List.cons.inj heq).1, List.head?_cons])
  rw [split]
  · intro more heq
    obtain ⟨rfl, hmore⟩ := List.cons.inj heq
    exact hmarks more hmore
  · intro more heq
    obtain ⟨rfl, hmore⟩ := List.cons.inj heq
    exact hmarks more hmore

lemma dropNewline_leadingNewline {s body : List Char}
    (h : '\n' ∉ s → splitNewline? body = none) : dropNewline (leadingNewline s ++ body) = body := by
  by_cases hnewline : '\n' ∈ s
  · simp [leadingNewline, hnewline, dropNewline, splitNewline?]
  · simp [leadingNewline, hnewline, dropNewline, h hnewline]

variable {s rest : List Char}

lemma split_write_basic (hform : form s = .basic) (hrest : rest.head? ≠ some '"') :
    split (write s ++ rest) = some (s, rest) := by
  rw [write, hform]
  simp only [List.cons_append, List.append_assoc, List.nil_append]
  rw [split_eq_splitLine (head?_basicBody_ne s) hrest, splitLine, splitBasic_basicBody]

lemma split_write_literal (hform : form s = .literal) (hcontrol : hasControl s = false)
    (hmark : '\'' ∉ s) (hnewline : '\n' ∉ s) (hrest : rest.head? ≠ some '\'') :
    split (write s ++ rest) = some (s, rest) := by
  have hplain : ∀ c ∈ s, isPlain c = true ∧ c ≠ '\'' := fun c hc =>
    ⟨isPlain_of_hasControl_eq_false hcontrol hc (ne_of_mem_of_not_mem hc hnewline),
      ne_of_mem_of_not_mem hc hmark⟩
  have hhead : s.head? ≠ some '\'' := fun h => hmark (List.mem_of_head? h)
  rw [write, hform]
  simp only [List.cons_append, List.append_assoc, List.nil_append]
  rw [split_eq_splitLine hhead hrest, splitLine, splitLiteral_append hplain]

lemma split_write_multilineBasic (hform : form s = .multilineBasic)
    (hrest : rest.head? ≠ some '"') : split (write s ++ rest) = some (s, rest) := by
  rw [write, hform]
  simp only [List.cons_append, List.append_assoc, List.nil_append]
  rw [split, dropNewline_leadingNewline]
  · exact splitMultilineBasic_body s 0 (Nat.zero_le 2) hrest
  · intro hnewline
    cases s with
    | nil => rfl
    | cons c more =>
      by_cases hc : c = '"'
      · subst hc
        rfl
      · obtain ⟨first, others, hfirst, -, hbreak⟩ := exists_multilineChar_eq_cons hc
        obtain ⟨hn, hr⟩ := hbreak (List.ne_of_not_mem_cons hnewline).symm
        rw [multilineBasicBody_cons hc, hfirst]
        exact splitNewline?_cons hn hr _

lemma split_write_multilineLiteral (hform : form s = .multilineLiteral)
    (hcontrol : hasControl s = false) (htriple : hasTriple '\'' s = false)
    (hrest : rest.head? ≠ some '\'') : split (write s ++ rest) = some (s, rest) := by
  have hplain : ∀ c ∈ s, c = '\n' ∨ isPlain c = true := fun c hc =>
    or_iff_not_imp_left.mpr (isPlain_of_hasControl_eq_false hcontrol hc)
  rw [write, hform]
  simp only [List.cons_append, List.append_assoc, List.nil_append]
  rw [split, dropNewline_leadingNewline]
  · exact splitMultilineLiteral_append hplain 0 (Nat.zero_le 2) htriple hrest
  · intro hnewline
    cases s with
    | nil => rfl
    | cons c more =>
      have hn : c ≠ '\n' := (List.ne_of_not_mem_cons hnewline).symm
      refine splitNewline?_cons hn ?_ _
      rintro rfl
      exact absurd ((hplain '\r' List.mem_cons_self).resolve_left hn) (by decide)

/-- A string is read back from its written form when no quotation mark follows it. -/
theorem split_write (s : List Char) {rest : List Char} (hquote : rest.head? ≠ some '"')
    (hapostrophe : rest.head? ≠ some '\'') : split (write s ++ rest) = some (s, rest) := by
  rcases form_cases s with hform | hform | ⟨hform, hcontrol, hmark, hnewline⟩ |
    ⟨hform, hcontrol, htriple⟩
  · exact split_write_basic hform hquote
  · exact split_write_multilineBasic hform hquote
  · exact split_write_literal hform hcontrol hmark hnewline hapostrophe
  · exact split_write_multilineLiteral hform hcontrol htriple hapostrophe

/-- Two marks in a row stand at the end of a multi-line string as they are. -/
example : write "'\n\"\"".toList = "\"\"\"\n'\n\"\"\"\"\"".toList := by decide

end DocStore.Toml.Quoted
