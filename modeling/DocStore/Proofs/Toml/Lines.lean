import DocStore.Proofs.Toml.Quoted
import DocStore.Toml.Table

/-!
# Reading lines

A text of lines `key = value` with different keys is read as the table of these keys and values, in
the order of the lines (`Table.ofText?_lines`). A `Line` keeps the text of its value beside the
value; it is `Legible` when the reader gets the value from the text and stops at the end of the
line.
-/

namespace DocStore

lemma Fields.put_of_forall_ne {α : Type} {key : String} (value : α) {fields : Fields α}
    (h : ∀ member ∈ fields, key ≠ member.1) :
    Fields.get? key fields = none ∧
      Fields.put key value fields = fields ++ [(key, value)] := by
  induction fields with
  | nil => exact ⟨rfl, rfl⟩
  | cons member rest ih =>
    obtain ⟨name, old⟩ := member
    obtain ⟨hname, hrest⟩ := List.forall_mem_cons.mp h
    obtain ⟨hget, hput⟩ := ih hrest
    rw [Fields.get?, Fields.put, if_neg hname, if_neg hname, hput]
    exact ⟨hget, rfl⟩

namespace Toml

/-- A key that is written without quotation marks. -/
def IsBareKey (key : String) : Prop :=
  key.toList ≠ [] ∧ ∀ c ∈ key.toList, isBareKeyChar c = true

-- By the characters of the key: an instance that is found may go through all characters there are.
instance : DecidablePred IsBareKey :=
  fun key => @instDecidableAnd _ _ inferInstance (List.decidableBAll _ key.toList)

lemma ne_of_isBareKeyChar {c : Char} (h : isBareKeyChar c = true) :
    isBlank c = false ∧ c ≠ '#' ∧ c ≠ '[' ∧ c ≠ '"' ∧ c ≠ '\'' ∧ c ≠ '\n' ∧ c ≠ '\r' ∧
      c ≠ Statement.byteOrderMark := by
  refine ⟨?_, ?_, ?_, ?_, ?_, ?_, ?_, ?_⟩
  · by_contra hblank
    have hcases : c = ' ' ∨ c = '\t' := by
      simpa [isBlank, -not_or, imp_iff_not_or] using hblank
    rcases hcases with rfl | rfl <;> exact absurd h (by decide)
  all_goals
    rintro rfl
    exact absurd h (by decide)

lemma exists_toList_eq_cons {key : String} (h : IsBareKey key) :
    ∃ c more, key.toList = c :: more ∧ isBareKeyChar c = true := by
  obtain ⟨c, more, hkey⟩ := List.exists_cons_of_ne_nil h.1
  exact ⟨c, more, hkey, h.2 c (by simp [hkey])⟩

lemma dropBlanks_cons {c : Char} (h : isBlank c = false) (rest : List Char) :
    dropBlanks (c :: rest) = c :: rest :=
  List.dropWhile_cons_of_neg (by simp [h])

lemma splitKeyPart_bare {key : String} (h : IsBareKey key) (rest : List Char) :
    splitKeyPart (key.toList ++ ' ' :: rest) = some (key, ' ' :: rest) := by
  have hblank : isBareKeyChar ' ' = false := by decide
  have htake : (key.toList ++ ' ' :: rest).takeWhile isBareKeyChar = key.toList := by
    rw [List.takeWhile_append_of_pos h.2, List.takeWhile_cons_of_neg (by simp [hblank]),
      List.append_nil]
  have hdrop : (key.toList ++ ' ' :: rest).dropWhile isBareKeyChar = ' ' :: rest := by
    rw [List.dropWhile_append_of_pos h.2, List.dropWhile_cons_of_neg (by simp [hblank])]
  obtain ⟨c, more, hkey, hc⟩ := exists_toList_eq_cons h
  obtain ⟨-, -, -, hquote, hapostrophe, -⟩ := ne_of_isBareKeyChar hc
  unfold splitKeyPart
  rw [htake, hdrop]
  split
  · rename_i heq
    rw [hkey] at heq
    exact absurd (List.cons.inj heq).1 hquote
  · rename_i heq
    rw [hkey] at heq
    exact absurd (List.cons.inj heq).1 hapostrophe
  · split
    · rename_i hnil
      exact absurd hnil h.1
    · rw [String.ofList_toList]

lemma splitKey_bare {key : String} (h : IsBareKey key) (rest : List Char) :
    splitKey (key.toList ++ ' ' :: '=' :: rest) = some (⟨[], key⟩, '=' :: rest) := by
  obtain ⟨c, more, hkey, hc⟩ := exists_toList_eq_cons h
  have hparts : splitKeyParts nestingLimit (key.toList ++ ' ' :: '=' :: rest) =
      some ([key], '=' :: rest) := by
    have hstart : dropBlanks (key.toList ++ ' ' :: '=' :: rest) =
        key.toList ++ ' ' :: '=' :: rest := by
      rw [hkey, List.cons_append]
      exact dropBlanks_cons (ne_of_isBareKeyChar hc).1 _
    rw [nestingLimit, splitKeyParts, hstart, splitKeyPart_bare h]
    rfl
  rw [splitKey, hparts]
  rfl

/-- The text of a value, up to the end of its line. -/
def WritesValue (text : List Char) (value : Value) : Prop :=
  ∀ rest, splitValue nestingLimit (dropBlanks (' ' :: (text ++ '\n' :: rest))) =
    some (.scalar value, '\n' :: rest)

lemma Quoted.exists_write_eq_cons (s : List Char) :
    ∃ mark more, write s = mark :: more ∧ (mark = '"' ∨ mark = '\'') := by
  unfold write
  split
  · exact ⟨'"', _, rfl, .inl rfl⟩
  · exact ⟨'\'', _, rfl, .inr rfl⟩
  · exact ⟨'"', _, rfl, .inl rfl⟩
  · exact ⟨'\'', _, rfl, .inr rfl⟩

lemma writesValue_string (s : List Char) :
    WritesValue (Quoted.write s) (.string (String.ofList s)) := by
  intro rest
  have hread : Quoted.split (Quoted.write s ++ '\n' :: rest) = some (s, '\n' :: rest) :=
    Quoted.split_write s (by simp) (by simp)
  obtain ⟨mark, more, hwrite, hmark⟩ := Quoted.exists_write_eq_cons s
  rw [hwrite, List.cons_append] at hread ⊢
  rcases hmark with rfl | rfl
  · change (splitScalar _).map _ = _
    rw [splitScalar, hread]
    rfl
  · change (splitScalar _).map _ = _
    rw [splitScalar, hread]
    rfl

lemma writesValue_bool (b : Bool) :
    WritesValue (if b then "true" else "false").toList (.bool b) := by
  intro rest
  cases b <;> rfl

/-- A line `key = value` with the text of its value. -/
structure Line where
  key : String
  text : List Char
  value : Value

namespace Line

def written (line : Line) : List Char :=
  line.key.toList ++ [' ', '=', ' '] ++ line.text ++ ['\n']

def statement (line : Line) : Statement :=
  .assign ⟨[], line.key⟩ (.scalar line.value)

/-- The key needs no quotation marks, and the text is read as the value. -/
structure Legible (line : Line) : Prop where
  key : IsBareKey line.key
  text : WritesValue line.text line.value

variable {line : Line}

lemma Legible.exists_written_eq_cons (h : line.Legible) :
    ∃ c more, line.written = c :: more ∧ isBareKeyChar c = true := by
  obtain ⟨c, more, hkey, hc⟩ := exists_toList_eq_cons h.key
  exact ⟨c, _, by rw [written, hkey]; rfl, hc⟩

lemma Legible.split (h : line.Legible) (rest : List Char) :
    Statement.split (line.written ++ rest) = some (line.statement, '\n' :: rest) := by
  have hassign : splitAssign (line.written ++ rest) = some (line.statement, '\n' :: rest) := by
    have htext : line.written ++ rest =
        line.key.toList ++ ' ' :: '=' :: ' ' :: (line.text ++ '\n' :: rest) := by
      simp [written]
    rw [htext, splitAssign, splitKey_bare h.key]
    change (splitValue nestingLimit (dropBlanks (' ' :: (line.text ++ '\n' :: rest)))).map _ = _
    rw [h.text rest]
    rfl
  obtain ⟨c, more, hwritten, hc⟩ := h.exists_written_eq_cons
  rw [← hassign, hwritten, List.cons_append, Statement.split]
  intro others heq
  exact (ne_of_isBareKeyChar hc).2.2.1 (List.cons.inj heq).1

lemma Legible.dropGaps (h : line.Legible) (rest : List Char) :
    dropGaps (line.written ++ rest) = line.written ++ rest := by
  obtain ⟨c, more, hwritten, hc⟩ := h.exists_written_eq_cons
  obtain ⟨hblank, hcomment, -, -, -, hnewline, hreturn, -⟩ := ne_of_isBareKeyChar hc
  have hdrop : dropComment (dropBlanks (c :: (more ++ rest))) = c :: (more ++ rest) := by
    rw [dropBlanks_cons hblank, dropComment]
    exact fun _ heq => hcomment (List.cons.inj heq).1
  rw [hwritten, List.cons_append, Toml.dropGaps, dropGap, hdrop]
  simp only [Quoted.splitNewline?_cons hnewline hreturn]

end Line

namespace Statement

open Line (written)

lemma allWithin_lines {lines : List Line} (h : ∀ line ∈ lines, line.Legible) (bound : Nat)
    (hbound : lines.length < bound) :
    allWithin bound (lines.flatMap written) = some (lines.map Line.statement) := by
  induction lines generalizing bound with
  | nil =>
    obtain ⟨bound, rfl⟩ := Nat.exists_eq_add_one_of_ne_zero (by omega : bound ≠ 0)
    rfl
  | cons line rest ih =>
    obtain ⟨bound, rfl⟩ := Nat.exists_eq_add_one_of_ne_zero (by omega : bound ≠ 0)
    obtain ⟨hline, hrest⟩ := List.forall_mem_cons.mp h
    have hmore := ih hrest bound (by simpa using hbound)
    have hend : dropLineEnd? ('\n' :: rest.flatMap written) = some (rest.flatMap written) := rfl
    rw [List.flatMap_cons, allWithin, hline.dropGaps]
    split
    · rename_i hnil
      obtain ⟨c, more, hwritten, -⟩ := hline.exists_written_eq_cons
      rw [hwritten] at hnil
      cases hnil
    · simp [hline.split, hend, hmore]

lemma length_le_of_legible {lines : List Line} (h : ∀ line ∈ lines, line.Legible) :
    lines.length ≤ (lines.flatMap written).length := by
  induction lines with
  | nil => exact Nat.le_refl _
  | cons line rest ih =>
    obtain ⟨hline, hrest⟩ := List.forall_mem_cons.mp h
    obtain ⟨c, more, hwritten, -⟩ := hline.exists_written_eq_cons
    have hle := ih hrest
    rw [List.flatMap_cons, hwritten]
    simp only [List.length_cons, List.length_append]
    omega

theorem all_lines {lines : List Line} (h : ∀ line ∈ lines, line.Legible) :
    all (lines.flatMap written) = some (lines.map Line.statement) := by
  cases lines with
  | nil => rfl
  | cons line rest =>
    have hlength := length_le_of_legible h
    have hread := allWithin_lines h _ (Nat.lt_succ_of_le hlength)
    obtain ⟨c, more, hwritten, hc⟩ := (h line List.mem_cons_self).exists_written_eq_cons
    obtain ⟨-, -, -, -, -, -, -, hmark⟩ := ne_of_isBareKeyChar hc
    rw [List.flatMap_cons, hwritten, List.cons_append] at hread ⊢
    rw [all, if_neg hmark]
    exact hread

end Statement

def Line.assignment (line : Line) : Key × Value :=
  (⟨[], line.key⟩, line.value)

lemma Section.ofStatements?_lines (lines : List Line) :
    Section.ofStatements? (lines.map Line.statement) = some (lines.map Line.assignment, []) := by
  induction lines with
  | nil => rfl
  | cons line rest ih =>
    rw [List.map_cons, Line.statement, Section.ofStatements?, ih, Written.toValue?]
    rfl

def Line.member (line : Line) : String × Node :=
  (line.key, .value line.value)

lemma Node.assignAll_lines {lines : List Line} (members : List (String × Node))
    (h : (members.map (·.1) ++ lines.map Line.key).Nodup) :
    Node.assignAll (lines.map Line.assignment) members =
      some (members ++ lines.map Line.member) := by
  induction lines generalizing members with
  | nil => simp [Node.assignAll]
  | cons line rest ih =>
    have hnew : ∀ member ∈ members, line.key ≠ member.1 := by
      rintro member hm heq
      have hdisjoint := (List.nodup_append.mp h).2.2
      exact hdisjoint _ (List.mem_map_of_mem hm) _ List.mem_cons_self heq.symm
    obtain ⟨hget, hput⟩ := Fields.put_of_forall_ne (Node.value line.value) hnew
    have hassign : Node.assign line.key (.value line.value) [] members =
        some (members ++ [line.member]) := by
      rw [Node.assign, hget, hput]
      rfl
    have hrest := ih (members ++ [line.member]) (by simpa [Line.member] using h)
    rw [List.map_cons, Node.assignAll, List.foldlM_cons]
    change (Node.assign line.key (.value line.value) [] members).bind _ = _
    rw [hassign]
    change Node.assignAll _ _ = _
    rw [hrest]
    simp

lemma Node.toMembers_lines (lines : List Line) :
    Node.toMembers (lines.map Line.member) = lines.map fun line => (line.key, line.value) := by
  induction lines with
  | nil => rfl
  | cons line rest ih =>
    rw [List.map_cons, Line.member, Node.toMembers, ih]
    rfl

theorem Table.ofText?_lines {lines : List Line} (h : ∀ line ∈ lines, line.Legible)
    (hkeys : (lines.map Line.key).Nodup) :
    Table.ofText? (String.ofList (lines.flatMap Line.written)) =
      some (lines.map fun line => (line.key, line.value)) := by
  have hassign := Node.assignAll_lines [] hkeys
  rw [Table.ofText?, String.toList_ofList, Statement.all_lines h, Option.bind_some,
    Table.ofStatements?, Section.ofStatements?_lines]
  simp [hassign, Node.toMembers_lines]

end Toml

end DocStore
