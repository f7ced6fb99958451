import DocStore.Toml.Scalar

/-!
# TOML statements

The lines of a TOML text: assignments and headers. Arrays may span lines and end in a comma, inline
tables may not. Arrays and inline tables are nested at most `nestingLimit` deep, and a key has at
most as many parts.
-/

namespace DocStore.Toml

/-- The parts of a key between its dots, the last one apart. -/
structure Key where
  path : List String
  name : String
  deriving DecidableEq

/-- A value as it is written. The members of an inline table keep their keys. -/
inductive Written where
  | scalar (value : Value)
  | array (items : List Written)
  | inline (members : List (Key × Written))

/-- A line that is not blank. -/
inductive Statement where
  /-- `key = value` -/
  | assign (key : Key) (value : Written)
  /-- `[key]` -/
  | header (key : Key)
  /-- `[[key]]` -/
  | arrayHeader (key : Key)

/-- How deep arrays and inline tables may be nested, and how many parts a key may have. -/
def nestingLimit : Nat := 79

/-! ## Blanks -/

def dropBlanks (s : List Char) : List Char :=
  s.dropWhile isBlank

def dropComment : List Char → List Char
  | '#' :: rest => rest.dropWhile isPlain
  | s => s

/-- What follows the end of a line: blanks, a comment, and a line break or the end of the text. -/
def dropLineEnd? (s : List Char) : Option (List Char) :=
  match dropComment (dropBlanks s) with
  | [] => some []
  | s => splitNewline? s

/-- What follows blanks, comments and line breaks. `bound` limits their number. -/
def dropGap : Nat → List Char → List Char
  | 0, s => s
  | bound + 1, s =>
    match dropComment (dropBlanks s) with
    | [] => []
    | s =>
      match splitNewline? s with
      | some rest => dropGap bound rest
      | none => s

/-- What follows all blanks, comments and line breaks at the start of a text. -/
def dropGaps (s : List Char) : List Char :=
  dropGap (s.length + 1) s

/-! ## Keys -/

/-- A character of a key without quotation marks. -/
def isBareKeyChar (c : Char) : Bool :=
  c.isAlphanum || c == '-' || c == '_'

def splitKeyPart (s : List Char) : Option (String × List Char) :=
  match s with
  | '"' :: _ | '\'' :: _ =>
    (Quoted.splitLine s).map fun (part, rest) => (String.ofList part, rest)
  | _ =>
    match s.takeWhile isBareKeyChar with
    | [] => none
    | part => some (String.ofList part, s.dropWhile isBareKeyChar)

/-- The parts of a key, at most `bound` of them, and what follows with its blanks left out. -/
def splitKeyParts : Nat → List Char → Option (List String × List Char)
  | 0, _ => none
  | bound + 1, s =>
    match splitKeyPart (dropBlanks s) with
    | none => none
    | some (part, rest) =>
      match dropBlanks rest with
      | '.' :: rest =>
        (splitKeyParts bound rest).map fun (parts, rest) => (part :: parts, rest)
      | rest => some ([part], rest)

/-- A key, and what follows it with its blanks left out. -/
def splitKey (s : List Char) : Option (Key × List Char) :=
  match splitKeyParts nestingLimit s with
  | some (first :: more, rest) =>
    let parts := first :: more
    some (⟨parts.dropLast, parts.getLast (by simp [parts])⟩, rest)
  | _ => none

/-! ## Values -/

/-- The items of an array and what follows its end, read with `value`. -/
def splitItems (value : List Char → Option (Written × List Char)) :
    Nat → List Char → Option (List Written × List Char)
  | 0, _ => none
  | bound + 1, s =>
    match dropGaps s with
    | ']' :: rest => some ([], rest)
    | s =>
      match value s with
      | none => none
      | some (item, rest) =>
        match dropGaps rest with
        | ']' :: rest => some ([item], rest)
        | ',' :: rest =>
          (splitItems value bound rest).map fun (items, rest) => (item :: items, rest)
        | _ => none

/-- A member of an inline table, and what follows it with its blanks left out. -/
def splitMember (value : List Char → Option (Written × List Char)) (s : List Char) :
    Option ((Key × Written) × List Char) :=
  match splitKey s with
  | some (key, '=' :: rest) =>
    (value (dropBlanks rest)).map fun (item, rest) => ((key, item), dropBlanks rest)
  | _ => none

/-- The members of an inline table and what follows its end, read with `value`. -/
def splitMembers (value : List Char → Option (Written × List Char)) :
    Nat → List Char → Option (List (Key × Written) × List Char)
  | 0, _ => none
  | bound + 1, s =>
    match splitMember value s with
    | some (member, '}' :: rest) => some ([member], rest)
    | some (member, ',' :: rest) =>
      (splitMembers value bound rest).map fun (members, rest) => (member :: members, rest)
    | _ => none

/-- A value with at most `depth` nested arrays and inline tables. -/
def splitValue : Nat → List Char → Option (Written × List Char)
  | 0, s =>
    match s with
    | '[' :: _ | '{' :: _ => none
    | s => (splitScalar s).map fun (value, rest) => (.scalar value, rest)
  | depth + 1, s =>
    match s with
    | '[' :: rest =>
      (splitItems (splitValue depth) (rest.length + 1) rest).map fun (items, rest) =>
        (.array items, rest)
    | '{' :: rest =>
      match dropBlanks rest with
      | '}' :: rest => some (.inline [], rest)
      | rest =>
        (splitMembers (splitValue depth) (rest.length + 1) rest).map fun (members, rest) =>
          (.inline members, rest)
    | s => (splitScalar s).map fun (value, rest) => (.scalar value, rest)

/-! ## Lines -/

/-- The header between brackets whose opening was read. -/
def splitHeader : List Char → Option (Statement × List Char)
  | '[' :: rest =>
    match splitKey rest with
    | some (key, ']' :: ']' :: rest) => some (.arrayHeader key, rest)
    | _ => none
  | rest =>
    match splitKey rest with
    | some (key, ']' :: rest) => some (.header key, rest)
    | _ => none

def splitAssign (s : List Char) : Option (Statement × List Char) :=
  match splitKey s with
  | some (key, '=' :: rest) =>
    (splitValue nestingLimit (dropBlanks rest)).map fun (value, rest) => (.assign key value, rest)
  | _ => none

namespace Statement

/-- The statement at the start of a text. -/
def split : List Char → Option (Statement × List Char)
  | '[' :: rest => splitHeader rest
  | s => splitAssign s

/-- The statements of a text, at most `bound` of them. -/
def allWithin : Nat → List Char → Option (List Statement)
  | 0, _ => none
  | bound + 1, s =>
    match dropGaps s with
    | [] => some []
    | s => do
      let (statement, rest) ← split s
      let rest ← dropLineEnd? rest
      let more ← allWithin bound rest
      return statement :: more

/-- The mark of byte order that a text may start with. -/
def byteOrderMark : Char := '\uFEFF'

/-- The statements of a text. Every statement takes a character, so the bound is never met. -/
def all (s : List Char) : Option (List Statement) :=
  match s with
  | c :: rest =>
    if c = byteOrderMark then allWithin (rest.length + 1) rest
    else allWithin (s.length + 1) s
  | [] => some []

end Statement

end DocStore.Toml
