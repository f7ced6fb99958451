import DocStore.Json.Quoted

/-!
# TOML strings

A string has four written forms: basic with escapes or literal without, each on one line or on
several. `Quoted.write` takes the first form that needs no escape but the tab, else a basic one.
`Quoted.split` reads all four.
-/

namespace DocStore.Toml

def isBlank (c : Char) : Bool :=
  c == ' ' || c == '\t'

/-- A control character, the tab and line breaks included. -/
def isControl (c : Char) : Bool :=
  c.toNat < 0x20 || c.toNat == 0x7F

/-- A character that a comment or a literal string may hold. -/
def isPlain (c : Char) : Bool :=
  c == '\t' || !isControl c

/-- What follows a line break at the start of a text. -/
def splitNewline? : List Char → Option (List Char)
  | '\n' :: rest => some rest
  | '\r' :: '\n' :: rest => some rest
  | _ => none

/-- A text without the line break that it starts with. -/
def dropNewline (s : List Char) : List Char :=
  (splitNewline? s).getD s

namespace Quoted

/-! ## Writing -/

/-- The escape of a character of a basic string that needs one. -/
def escape? (c : Char) : Option (List Char) :=
  match c with
  | '\x08' => some ['\\', 'b']
  | '\t' => some ['\\', 't']
  | '\x0c' => some ['\\', 'f']
  | '\r' => some ['\\', 'r']
  | '\\' => some ['\\', '\\']
  | c =>
    if isControl c then
      some ['\\', 'u', '0', '0', (Nat.digitChar (c.toNat / 16)).toUpper,
        (Nat.digitChar (c.toNat % 16)).toUpper]
    else none

/-- The text of a basic string on one line, between its marks. -/
def basicBody : List Char → List Char
  | [] => []
  | '\n' :: rest => '\\' :: 'n' :: basicBody rest
  | '"' :: rest => '\\' :: '"' :: basicBody rest
  | c :: rest => (escape? c).getD [c] ++ basicBody rest

/-- The text of a basic string on several lines, between its marks. `run` counts the quotation
marks just written; a third one in a row is escaped. -/
def multilineBasicBody (run : Nat) : List Char → List Char
  | [] => []
  | '\n' :: rest => '\n' :: multilineBasicBody 0 rest
  | '"' :: rest =>
    if run < 2 then '"' :: multilineBasicBody (run + 1) rest
    else '\\' :: '"' :: multilineBasicBody 0 rest
  | c :: rest => (escape? c).getD [c] ++ multilineBasicBody 0 rest

/-- Whether a character stands three times in a row. -/
def hasTriple (c : Char) : List Char → Bool
  | a :: rest =>
    (a == c && rest.head? == some c && rest.tail.head? == some c) || hasTriple c rest
  | [] => false

/-- The written forms of a string. -/
inductive Form where
  | basic
  | literal
  | multilineBasic
  | multilineLiteral
  deriving DecidableEq

/-- The form in which a string is written: the first of basic, literal, multi-line basic and
multi-line literal that can hold it without escapes other than the tab's. -/
def form (s : List Char) : Form :=
  let newline := s.contains '\n'
  let control := s.any fun c => isControl c && c != '\t' && c != '\n'
  let backslash := s.contains '\\'
  if !control && !backslash && !s.contains '"' && !newline then .basic
  else if !control && !s.contains '\'' && !newline then .literal
  else if !control && !backslash && !hasTriple '"' s then .multilineBasic
  else if !control && !hasTriple '\'' s then .multilineLiteral
  else if newline then .multilineBasic
  else .basic

/-- The line break that a multi-line form starts with when its string has one. -/
def leadingNewline (s : List Char) : List Char :=
  if s.contains '\n' then ['\n'] else []

def write (s : List Char) : List Char :=
  match form s with
  | .basic => '"' :: basicBody s ++ ['"']
  | .literal => '\'' :: s ++ ['\'']
  | .multilineBasic =>
    ['"', '"', '"'] ++ leadingNewline s ++ multilineBasicBody 0 s ++ ['"', '"', '"']
  | .multilineLiteral => ['\'', '\'', '\''] ++ leadingNewline s ++ s ++ ['\'', '\'', '\'']

/-! ## Reading -/

/-- The character that a one-letter escape stands for. -/
def letterEscape? : Char → Option Char
  | 'b' => some '\x08'
  | 't' => some '\t'
  | 'n' => some '\n'
  | 'f' => some '\x0c'
  | 'r' => some '\r'
  | '"' => some '"'
  | '\\' => some '\\'
  | _ => none

/-- The character whose code hexadecimal digits spell. -/
def codeEscape? (digits : List Char) : Option Char :=
  (Json.hexNumber? digits).bind fun code =>
    if code.isValidChar then some (Char.ofNat code) else none

/-- Puts a character in front of a string that was read. -/
def consChar (c : Char) (read : Option (List Char × List Char)) : Option (List Char × List Char) :=
  read.map fun (s, rest) => (c :: s, rest)

/-- The rest of a basic string on one line, and what follows it. -/
def splitBasic : List Char → Option (List Char × List Char)
  | [] => none
  | '"' :: rest => some ([], rest)
  | '\\' :: 'u' :: a :: b :: c :: d :: rest =>
    (codeEscape? [a, b, c, d]).bind (consChar · (splitBasic rest))
  | '\\' :: 'U' :: a :: b :: c :: d :: e :: f :: g :: h :: rest =>
    (codeEscape? [a, b, c, d, e, f, g, h]).bind (consChar · (splitBasic rest))
  | '\\' :: c :: rest => (letterEscape? c).bind (consChar · (splitBasic rest))
  | c :: rest => if c ≠ '\\' ∧ isPlain c then consChar c (splitBasic rest) else none

/-- The rest of a literal string on one line, and what follows it. -/
def splitLiteral : List Char → Option (List Char × List Char)
  | [] => none
  | '\'' :: rest => some ([], rest)
  | c :: rest => if isPlain c then consChar c (splitLiteral rest) else none

/-- Whether a backslash in front of this text hides the end of its line. -/
def endsLine (s : List Char) : Bool :=
  (splitNewline? (s.dropWhile isBlank)).isSome

/-- The rest of a basic string on several lines, and what follows it. Up to two quotation marks may
stand in front of the closing ones. A backslash at the end of a line takes away the blanks and line
breaks up to the next character; `skipping` says that they are being taken away. -/
def splitMultilineBasic (skipping : Bool) : List Char → Option (List Char × List Char)
  | [] => none
  | '"' :: '"' :: '"' :: '"' :: '"' :: rest => some (['"', '"'], rest)
  | '"' :: '"' :: '"' :: '"' :: rest => some (['"'], rest)
  | '"' :: '"' :: '"' :: rest => some ([], rest)
  | '\r' :: '\n' :: rest =>
    if skipping then splitMultilineBasic true rest
    else consChar '\n' (splitMultilineBasic false rest)
  | '\\' :: 'u' :: a :: b :: c :: d :: rest =>
    (codeEscape? [a, b, c, d]).bind (consChar · (splitMultilineBasic false rest))
  | '\\' :: 'U' :: a :: b :: c :: d :: e :: f :: g :: h :: rest =>
    (codeEscape? [a, b, c, d, e, f, g, h]).bind (consChar · (splitMultilineBasic false rest))
  | '\\' :: c :: rest =>
    if endsLine (c :: rest) then splitMultilineBasic true (c :: rest)
    else (letterEscape? c).bind (consChar · (splitMultilineBasic false rest))
  | c :: rest =>
    if c = '\\' then none
    else if skipping ∧ (c = '\n' ∨ isBlank c) then splitMultilineBasic true rest
    else if c = '\n' ∨ isPlain c then consChar c (splitMultilineBasic false rest)
    else none

/-- The rest of a literal string on several lines, and what follows it. -/
def splitMultilineLiteral : List Char → Option (List Char × List Char)
  | [] => none
  | '\'' :: '\'' :: '\'' :: '\'' :: '\'' :: rest => some (['\'', '\''], rest)
  | '\'' :: '\'' :: '\'' :: '\'' :: rest => some (['\''], rest)
  | '\'' :: '\'' :: '\'' :: rest => some ([], rest)
  | '\r' :: '\n' :: rest => consChar '\n' (splitMultilineLiteral rest)
  | c :: rest =>
    if c = '\n' ∨ isPlain c then consChar c (splitMultilineLiteral rest) else none

/-- The string on one line at the start of a text, and the rest. -/
def splitLine : List Char → Option (List Char × List Char)
  | '"' :: rest => splitBasic rest
  | '\'' :: rest => splitLiteral rest
  | _ => none

/-- The string in any form at the start of a text, and the rest. -/
def split : List Char → Option (List Char × List Char)
  | '"' :: '"' :: '"' :: rest => splitMultilineBasic false (dropNewline rest)
  | '\'' :: '\'' :: '\'' :: rest => splitMultilineLiteral (dropNewline rest)
  | s => splitLine s

end Quoted

end DocStore.Toml
