import DocStore.Toml.Quoted
import DocStore.Toml.Value

/-!
# TOML scalars

Strings, booleans, integers, floats and date-times at the start of a text. Digits may be grouped by
single underscores. An integer must fit 64 bits, and a float must not exceed the greatest double.
-/

namespace DocStore.Toml

/-! ## Digits -/

/-- The digits after the first one, underscores between them left out. -/
def groupedTail (isDigit : Char → Bool) : List Char → Split (List Char)
  | '_' :: c :: rest =>
    if isDigit c then (groupedTail isDigit rest).map fun (digits, rest) => (c :: digits, rest)
    else none
  | c :: rest =>
    if isDigit c then (groupedTail isDigit rest).map fun (digits, rest) => (c :: digits, rest)
    else if c = '_' then none
    else some ([], c :: rest)
  | [] => some ([], [])

def splitGrouped (isDigit : Char → Bool) : List Char → Split (List Char)
  | c :: rest =>
    if isDigit c then (groupedTail isDigit rest).map fun (digits, rest) => (c :: digits, rest)
    else none
  | [] => none

/-- A sign, if there is one; `true` is minus. -/
def splitSign : List Char → Bool × List Char
  | '+' :: rest => (false, rest)
  | '-' :: rest => (true, rest)
  | s => (false, s)

/-- The digits of a decimal integer: a zero stands alone. -/
def splitDecimal : List Char → Split (List Char)
  | '0' :: rest => some (['0'], rest)
  | s => splitGrouped Char.isDigit s

/-! ## Integers -/

def isHexDigit (c : Char) : Bool :=
  (Json.hexDigit? c).isSome

def isOctalDigit (c : Char) : Bool :=
  '0' ≤ c && c ≤ '7'

def isBinaryDigit (c : Char) : Bool :=
  c == '0' || c == '1'

def valueInBase (base : Nat) (digits : List Char) : Nat :=
  digits.foldl (fun n c => base * n + (Json.hexDigit? c).getD 0) 0

/-- A 64-bit integer; `none` when the number does not fit. -/
def fit? (n : Int) : Option Value :=
  if Int64.minValue.toInt ≤ n ∧ n ≤ Int64.maxValue.toInt then some (.integer (Int64.ofInt n))
  else none

/-- The integer of a base whose prefix was read. -/
def splitInBase (base : Nat) (isDigit : Char → Bool) (s : List Char) :
    Option (Value × List Char) := do
  let (digits, rest) ← splitGrouped isDigit s
  let value ← fit? (valueInBase base digits)
  return (value, rest)

def splitInteger : List Char → Option (Value × List Char)
  | '0' :: 'x' :: rest => splitInBase 16 isHexDigit rest
  | '0' :: 'o' :: rest => splitInBase 8 isOctalDigit rest
  | '0' :: 'b' :: rest => splitInBase 2 isBinaryDigit rest
  | s => do
    let (negative, s) := splitSign s
    let (digits, rest) ← splitDecimal s
    let value ← fit? (Binary64.signed negative (valueInBase 10 digits))
    return (value, rest)

/-! ## Floats -/

def splitFraction : List Char → Split (Option (List Char))
  | '.' :: rest => (splitGrouped Char.isDigit rest).map fun (digits, rest) => (some digits, rest)
  | s => some (none, s)

def splitExponent : List Char → Split (Option Int)
  | c :: rest =>
    if c = 'e' ∨ c = 'E' then
      let (negative, rest) := splitSign rest
      (splitGrouped Char.isDigit rest).map fun (digits, rest) =>
        (some (Binary64.signed negative (valueInBase 10 digits)), rest)
    else some (none, c :: rest)
  | [] => some (none, [])

/-- A float written with digits; it has a fraction or an exponent. -/
def splitDigitFloat (s : List Char) : Option (Value × List Char) := do
  let (negative, s) := splitSign s
  let (whole, s) ← splitDecimal s
  let (fraction, s) ← splitFraction s
  let (exponent, s) ← splitExponent s
  guard (fraction.isSome || exponent.isSome)
  let digits := fraction.getD []
  let x := Binary64.ofDecimal
    ⟨negative, valueInBase 10 (whole ++ digits), exponent.getD 0 - digits.length⟩
  guard (x ≠ .infinity false)
  return (.float x, s)

def splitSpecialFloat (s : List Char) : Split Value :=
  match splitSign s with
  | (negative, 'i' :: 'n' :: 'f' :: rest) => some (.float (.infinity negative), rest)
  | (_, 'n' :: 'a' :: 'n' :: rest) => some (.float .nan, rest)
  | _ => none

def splitFloat (s : List Char) : Split Value :=
  splitDigitFloat s <|> splitSpecialFloat s

/-! ## Scalars -/

/-- A number or a date-time, which start with a digit or a sign. -/
def splitNumeric (s : List Char) : Split Value :=
  let dateTime := (DateTime.split .document s).map fun (t, rest) => (Value.dateTime t, rest)
  dateTime <|> splitFloat s <|> splitInteger s

def splitScalar (s : List Char) : Split Value :=
  match s with
  | 't' :: 'r' :: 'u' :: 'e' :: rest => some (.bool true, rest)
  | 'f' :: 'a' :: 'l' :: 's' :: 'e' :: rest => some (.bool false, rest)
  | '"' :: _ | '\'' :: _ =>
    (Quoted.split s).map fun (text, rest) => (.string (String.ofList text), rest)
  | _ => splitNumeric s

end DocStore.Toml
