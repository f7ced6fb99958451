import DocStore.Json.Number
import DocStore.Json.Quoted

/-!
# Tokens

The tokens of a JSON text: marks, words, numbers and strings, with blanks between them.
-/

namespace DocStore.Json

/-- A token. A string token has no text when it holds half a surrogate pair. -/
inductive Token where
  | openBrace
  | closeBrace
  | openBracket
  | closeBracket
  | colon
  | comma
  | null
  | bool (b : Bool)
  | number (n : NumberLiteral)
  | string (text : Option String)
  deriving DecidableEq

/-- The characters that may stand between tokens. -/
def isBlank (c : Char) : Bool :=
  c == ' ' || c == '\t' || c == '\n' || c == '\r'

namespace Token

/-- The string token whose opening mark was read. -/
def splitString (s : List Char) : Option (Token × List Char) := do
  let (body, rest) ← splitQuoted s
  let pieces ← pieces? body
  return (.string ((joinPieces pieces).map String.ofList), rest)

/-- The token at the start of a text, and the rest. -/
def split : List Char → Option (Token × List Char)
  | [] => none
  | '{' :: rest => some (.openBrace, rest)
  | '}' :: rest => some (.closeBrace, rest)
  | '[' :: rest => some (.openBracket, rest)
  | ']' :: rest => some (.closeBracket, rest)
  | ':' :: rest => some (.colon, rest)
  | ',' :: rest => some (.comma, rest)
  | '"' :: rest => splitString rest
  | 'n' :: 'u' :: 'l' :: 'l' :: rest => some (.null, rest)
  | 't' :: 'r' :: 'u' :: 'e' :: rest => some (.bool true, rest)
  | 'f' :: 'a' :: 'l' :: 's' :: 'e' :: rest => some (.bool false, rest)
  | s => (splitNumber s).map fun (n, rest) => (.number n, rest)

/-- The tokens of a text, at most `bound` of them. -/
def scanWithin : Nat → List Char → Option (List Token)
  | 0, _ => none
  | bound + 1, s =>
    match s.dropWhile isBlank with
    | [] => some []
    | s => do
      let (token, rest) ← split s
      let more ← scanWithin bound rest
      return token :: more

/-- The tokens of a text. Every token takes a character, so the bound is never met. -/
def scan (s : List Char) : Option (List Token) :=
  scanWithin (s.length + 1) s

end Token

end DocStore.Json
