import DocStore.Binary64.Basic

/-!
# Decimal numbers

Reading a decimal gives the nearest double (`Binary64.ofDecimal`). Writing a double gives a decimal
with the fewest digits that reads back as it (`Binary64.shortest`); of two such decimals the nearer
one is taken, and of two equally near ones the one with an even last digit.

A double times a power of ten (`Binary64.scaleByTens`) is made by a multiplication or divisions with
doubles that stand for powers of ten. Every step rounds, so the result can lie beside the double
nearest to the exact product.
-/

namespace DocStore

/-- The decimal `coefficient * 10 ^ exponent`, negated when `negative`. -/
structure Decimal where
  negative : Bool
  coefficient : Nat
  exponent : Int
  deriving DecidableEq

namespace Decimal

/-- Moves the trailing zeros of a coefficient into the exponent. -/
def stripZeros (coefficient : Nat) (exponent : Int) : Nat × Int :=
  if coefficient ≠ 0 ∧ coefficient % 10 = 0 then stripZeros (coefficient / 10) (exponent + 1)
  else (coefficient, exponent)
termination_by coefficient
decreasing_by omega

/-- The form of a decimal whose coefficient has no trailing zero; zero has exponent 0. -/
def normalize (x : Decimal) : Decimal :=
  if x.coefficient = 0 then ⟨x.negative, 0, 0⟩
  else
    let stripped := stripZeros x.coefficient x.exponent
    ⟨x.negative, stripped.1, stripped.2⟩

end Decimal

namespace Binary64

/-- The double nearest to a decimal without trailing zeros. Exponents far outside the range of
doubles are decided without computing the power: a coefficient of `n` bits is below `10 ^ n`. -/
def ofNormal (x : Decimal) : Binary64 :=
  if x.coefficient = 0 then zero x.negative
  else if 400 < x.exponent then .infinity x.negative
  else if x.exponent + x.coefficient.log2 < -400 then zero x.negative
  else
    let scaled := scaleDown 10 (-x.exponent) x.coefficient 1
    ofQuotient x.negative scaled.1 scaled.2

def ofDecimal (x : Decimal) : Binary64 :=
  ofNormal x.normalize

/-- The exponent of the greatest power of ten that a positive quotient reaches. -/
def floorLog10 (numerator denominator : Nat) : Int :=
  if denominator ≤ numerator then
    ((Nat.toDigits 10 (numerator / denominator)).length : Int) - 1
  else
    let length := (Nat.toDigits 10 (denominator / numerator)).length
    if denominator ≤ numerator * Nat.pow 10 (length - 1) then 1 - (length : Int)
    else -(length : Int)

/-- The decimal among the two neighbours of a magnitude on the grid of multiples of `10 ^ exponent`
that reads back as `target`, the nearer one first. -/
def readBackOnGrid (target : Binary64) (negative : Bool) (exponent : Int)
    (numerator denominator : Nat) : Option Decimal :=
  let scaled := scaleDown 10 exponent numerator denominator
  let below := scaled.1 / scaled.2
  let nearest := roundHalfEven scaled.1 scaled.2
  let farther := if nearest = below then below + 1 else below
  ([nearest, farther].map fun n => Decimal.normalize ⟨negative, n, exponent⟩).find? fun x =>
    ofNormal x = target

/-- The decimal that equals a magnitude `mantissa * 2 ^ exponent`. -/
def exactDecimal (negative : Bool) (mantissa : Nat) (exponent : Int) : Decimal :=
  Decimal.normalize
    ⟨negative, mantissa * Nat.pow 2 exponent.toNat * Nat.pow 5 (-exponent).toNat, min exponent 0⟩

/-- The decimal of a finite double with the fewest digits that reads back as it. Seventeen digits
are always enough. -/
def shortest (negative : Bool) (mantissa : Nat) (exponent : Int)
    (canonical : IsCanonical mantissa exponent) : Decimal :=
  if mantissa = 0 then ⟨negative, 0, 0⟩
  else
    let magnitude := scaleDown 2 (-exponent) mantissa 1
    let leading := floorLog10 magnitude.1 magnitude.2
    let target := Binary64.finite negative mantissa exponent canonical
    let found := (List.range 17).findSome? fun (n : Nat) =>
      readBackOnGrid target negative (leading - n) magnitude.1 magnitude.2
    found.getD (exactDecimal negative mantissa exponent)

/-- The exponent of the greatest power of ten among the doubles. -/
def tenExponentLimit : Nat := 308

def tenPower (exponent : Nat) : Binary64 :=
  ofQuotient false (Nat.pow 10 exponent) 1

def isNegative : Binary64 → Bool
  | .nan => false
  | .infinity negative | .finite negative .. => negative

def isZero (x : Binary64) : Bool :=
  x.numEq (zero false)

/-- A double times a power of ten. A power beyond all doubles makes everything but zero infinite. -/
def multiplyByTens (x : Binary64) (exponent : Nat) : Binary64 :=
  if exponent ≤ tenExponentLimit then x.mul (tenPower exponent)
  else if x.isZero then x
  else .infinity x.isNegative

/-- A double divided by a power of ten. By a power beyond all doubles it is divided in several
steps, until nothing is left of it. -/
def divideByTens (x : Binary64) (exponent : Nat) : Binary64 :=
  if exponent ≤ tenExponentLimit then x.div (tenPower exponent)
  else if x.isZero then x
  else divideByTens (x.div (tenPower tenExponentLimit)) (exponent - tenExponentLimit)
termination_by exponent
decreasing_by simp only [tenExponentLimit] at *; omega

/-- A double times a power of ten with any exponent. -/
def scaleByTens (x : Binary64) (exponent : Int) : Binary64 :=
  if 0 ≤ exponent then x.multiplyByTens exponent.toNat else x.divideByTens (-exponent).toNat

end Binary64

end DocStore
