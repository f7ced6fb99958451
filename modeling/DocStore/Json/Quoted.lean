/-!
# Quoted strings

Strings between quotation marks. `escape` writes a character; `pieces?` and `joinPieces` read the
text between the marks. Half a surrogate pair is a well-formed escape that stands for no character,
so a text that holds one has pieces and no string.
-/

namespace DocStore.Json

def hexDigit? (c : Char) : Option Nat :=
  if '0' ≤ c ∧ c ≤ '9' then some (c.toNat - '0'.toNat)
  else if 'a' ≤ c ∧ c ≤ 'f' then some (c.toNat - 'a'.toNat + 10)
  else if 'A' ≤ c ∧ c ≤ 'F' then some (c.toNat - 'A'.toNat + 10)
  else none

def hexNumber? (digits : List Char) : Option Nat :=
  digits.foldlM (fun n c => (hexDigit? c).map (16 * n + ·)) 0

/-- A character that must be escaped by its code. -/
def isControl (c : Char) : Bool :=
  c.toNat < 0x20

/-- The written form of a character of a string. -/
def escape (c : Char) : List Char :=
  match c with
  | '"' => ['\\', '"']
  | '\\' => ['\\', '\\']
  | '\x08' => ['\\', 'b']
  | '\t' => ['\\', 't']
  | '\n' => ['\\', 'n']
  | '\x0c' => ['\\', 'f']
  | '\r' => ['\\', 'r']
  | c =>
    if isControl c then
      ['\\', 'u', '0', '0', Nat.digitChar (c.toNat / 16), Nat.digitChar (c.toNat % 16)]
    else [c]

def quote (s : String) : List Char :=
  '"' :: s.toList.flatMap escape ++ ['"']

/-- The character that a one-letter escape stands for. -/
def letterEscape? : Char → Option Char
  | '"' => some '"'
  | '\\' => some '\\'
  | '/' => some '/'
  | 'b' => some '\x08'
  | 'f' => some '\x0c'
  | 'n' => some '\n'
  | 'r' => some '\r'
  | 't' => some '\t'
  | _ => none

/-- The text up to the closing quotation mark, and what follows the mark. -/
def splitQuoted : List Char → Option (List Char × List Char)
  | [] => none
  | '"' :: rest => some ([], rest)
  | '\\' :: c :: rest => (splitQuoted rest).map fun (body, rest) => ('\\' :: c :: body, rest)
  | c :: rest =>
    if isControl c then none
    else (splitQuoted rest).map fun (body, rest) => (c :: body, rest)

/-- A piece of a quoted text: a character, or a UTF-16 unit that was given by its code. -/
inductive Piece where
  | char (c : Char)
  | unit (code : Nat)

/-- The pieces of the text between quotation marks; `none` when an escape is malformed. -/
def pieces? : List Char → Option (List Piece)
  | [] => some []
  | '\\' :: 'u' :: a :: b :: c :: d :: rest =>
    match hexNumber? [a, b, c, d], pieces? rest with
    | some code, some more => some (.unit code :: more)
    | _, _ => none
  | '\\' :: c :: rest =>
    match letterEscape? c, pieces? rest with
    | some c, some more => some (.char c :: more)
    | _, _ => none
  | ['\\'] => none
  | c :: rest => (pieces? rest).map (.char c :: ·)

def isHighSurrogate (code : Nat) : Bool :=
  0xD800 ≤ code && code < 0xDC00

def isLowSurrogate (code : Nat) : Bool :=
  0xDC00 ≤ code && code < 0xE000

/-- The characters of some pieces, surrogate pairs joined; `none` when one half stands alone. -/
def joinPieces : List Piece → Option (List Char)
  | [] => some []
  | .char c :: rest => (joinPieces rest).map (c :: ·)
  | .unit code :: rest =>
    if isHighSurrogate code then
      match rest with
      | .unit low :: rest =>
        if isLowSurrogate low then
          let joined := 0x10000 + (code - 0xD800) * 0x400 + (low - 0xDC00)
          (joinPieces rest).map (Char.ofNat joined :: ·)
        else none
      | _ => none
    else if isLowSurrogate code then none
    else (joinPieces rest).map (Char.ofNat code :: ·)

end DocStore.Json
