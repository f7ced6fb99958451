import DocStore.Binary64.Decimal

/-!
# Number text

The decimal text of a number. A number is read as a `NumberLiteral`, which keeps its digits; it is
an integer (`NumberLiteral.toInt?`) or a double (`NumberLiteral.toFloat`). The double is made from
as many digits as 64 bits hold and a power of ten, so it need not be the nearest one. A finite
double is written with its shortest digits: positional with a fraction when its leading digit stands
for `10 ^ -5` up to `10 ^ 15`, otherwise with an exponent.
-/

namespace DocStore.Json

/-- A number as it was written: the digits in front of the point and behind it, and the exponent. -/
structure NumberLiteral where
  negative : Bool
  whole : List Char
  fraction : Option (List Char)
  exponent : Option Int
  deriving DecidableEq

/-- The digits at the start of a text, and the rest. -/
def splitDigits (s : List Char) : List Char × List Char :=
  (s.takeWhile Char.isDigit, s.dropWhile Char.isDigit)

def digitsValue (digits : List Char) : Nat :=
  Nat.ofDigitChars 10 digits 0

/-- A minus sign at the start of a text, and the rest. -/
def splitMinus : List Char → Bool × List Char
  | '-' :: rest => (true, rest)
  | s => (false, s)

/-- The digits after a point, when there is one; a point must have digits after it. -/
def splitFraction : List Char → Option (Option (List Char) × List Char)
  | '.' :: rest =>
    match splitDigits rest with
    | ([], _) => none
    | (digits, rest) => some (some digits, rest)
  | s => some (none, s)

/-- The exponent after a letter `e`, when there is one; the letter must have digits after it. -/
def splitExponent : List Char → Option (Option Int × List Char)
  | c :: rest =>
    if c = 'e' ∨ c = 'E' then
      let (negative, rest) := match rest with
        | '+' :: rest => (false, rest)
        | s => splitMinus s
      match splitDigits rest with
      | ([], _) => none
      | (digits, rest) => some (some (Binary64.signed negative (digitsValue digits)), rest)
    else some (none, c :: rest)
  | [] => some (none, [])

/-- The whole part of a number: digits without a needless zero in front. -/
def isWholePart : List Char → Bool
  | [] => false
  | [_] => true
  | c :: _ => c != '0'

/-- The number at the start of a text, and the rest. -/
def splitNumber (s : List Char) : Option (NumberLiteral × List Char) := do
  let (negative, s) := splitMinus s
  let (whole, s) := splitDigits s
  guard (isWholePart whole)
  let (fraction, s) ← splitFraction s
  let (exponent, s) ← splitExponent s
  return (⟨negative, whole, fraction, exponent⟩, s)

/-- What a significand stays below. -/
def significandBound : Nat := Nat.pow 2 64

/-- Appends digits to a significand as long as it stays below the bound, and counts those left. -/
def appendDigits (significand : Nat) : List Char → Nat × Nat
  | [] => (significand, 0)
  | digit :: rest =>
    let next := 10 * significand + digitsValue [digit]
    if next < significandBound then appendDigits next rest
    else (significand, rest.length + 1)

namespace NumberLiteral

/-- The integer that was written as one. Minus zero is none, nor is one with too many digits. -/
def toInt? (n : NumberLiteral) : Option Int :=
  match n.fraction, n.exponent, appendDigits 0 n.whole with
  | none, none, (magnitude, 0) =>
    if n.negative ∧ magnitude = 0 then none else some (Binary64.signed n.negative magnitude)
  | _, _, _ => none

/-- The double that was written. Each digit left in front of the point stands for a power of ten;
one that is left behind the point does not count. -/
def toFloat (n : NumberLiteral) : Binary64 :=
  let (whole, omitted) := appendDigits 0 n.whole
  let fraction := n.fraction.getD []
  let (significand, ignored) := appendDigits whole fraction
  let places : Int := (fraction.length : Int) - ignored
  (Binary64.ofQuotient n.negative significand 1).scaleByTens
    (omitted - places + n.exponent.getD 0)

/-- The double that was written; `none` when it overflows. -/
def toFinite? (n : NumberLiteral) : Option Binary64 :=
  if n.toFloat.isFinite then some n.toFloat else none

end NumberLiteral

def natText (n : Nat) : List Char :=
  Nat.toDigits 10 n

def intText (n : Int) : List Char :=
  (if n < 0 then ['-'] else []) ++ natText n.natAbs

/-- Digits with a decimal point such that the first one stands for `10 ^ leading`. -/
def positional (digits : List Char) (leading : Int) : List Char :=
  if leading < 0 then '0' :: '.' :: List.replicate (-leading - 1).toNat '0' ++ digits
  else
    let whole := leading.toNat + 1
    if digits.length ≤ whole then
      digits ++ List.replicate (whole - digits.length) '0' ++ ['.', '0']
    else digits.take whole ++ '.' :: digits.drop whole

/-- Digits with a point after the first one, when there are more, and a signed exponent. -/
def scientific (digits : List Char) (leading : Int) : List Char :=
  let sign := if leading < 0 then '-' else '+'
  let mantissa := match digits with
    | first :: second :: rest => first :: '.' :: second :: rest
    | digits => digits
  mantissa ++ 'e' :: sign :: natText leading.natAbs

/-- The least and greatest exponent of a leading digit that is written positionally. -/
def positionalRange : Int × Int := (-5, 15)

/-- The text of a decimal as a number with fraction or exponent. -/
def decimalText (x : Decimal) : List Char :=
  let digits := natText x.coefficient
  let leading := (digits.length : Int) - 1 + x.exponent
  (if x.negative then ['-'] else []) ++
    (if positionalRange.1 ≤ leading ∧ leading ≤ positionalRange.2 then positional digits leading
     else scientific digits leading)

/-- The text of a double. There is no text for infinities and NaN; they are written as `null`. -/
def floatText : Binary64 → List Char
  | .finite negative mantissa exponent canonical =>
    decimalText (Binary64.shortest negative mantissa exponent canonical)
  | _ => "null".toList

end DocStore.Json
