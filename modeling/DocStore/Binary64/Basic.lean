/-!
# Double-precision numbers

A double is a sign, a mantissa and a power of two, or an infinity, or not a number. Every result
is the exact one rounded once, by `Binary64.ofQuotient`: to the nearest double, a tie to the even
mantissa, too large a magnitude to infinity.
-/

namespace DocStore

/-- The one way to write a magnitude as mantissa times power of two: 53 bits, or fewer at the
least exponent. -/
def IsCanonical (mantissa : Nat) (exponent : Int) : Prop :=
  mantissa < Nat.pow 2 53 ∧ -1074 ≤ exponent ∧ exponent ≤ 971 ∧
    (Nat.pow 2 52 ≤ mantissa ∨ exponent = -1074)

instance (mantissa : Nat) (exponent : Int) : Decidable (IsCanonical mantissa exponent) :=
  inferInstanceAs (Decidable (_ ∧ _ ∧ _ ∧ (_ ∨ _)))

/-- A double. `finite` stands for `mantissa * 2 ^ exponent`, negated when `negative`. -/
inductive Binary64 where
  | nan
  | infinity (negative : Bool)
  | finite (negative : Bool) (mantissa : Nat) (exponent : Int)
      (canonical : IsCanonical mantissa exponent)
  deriving DecidableEq

/-- The quotient rounded to the nearest integer, a half to the even one. -/
def roundHalfEven (numerator denominator : Nat) : Nat :=
  let quotient := numerator / denominator
  let twice := 2 * (numerator % denominator)
  if twice < denominator then quotient
  else if denominator < twice then quotient + 1
  else quotient + quotient % 2

/-- The quotient divided by `base ^ exponent`, as a quotient of naturals again. -/
def scaleDown (base : Nat) (exponent : Int) (numerator denominator : Nat) : Nat × Nat :=
  (numerator * base.pow (-exponent).toNat, denominator * base.pow exponent.toNat)

/-- The exponent of the greatest power of two that a positive quotient reaches. -/
def floorLog2 (numerator denominator : Nat) : Int :=
  let guess : Int := (numerator.log2 : Int) - denominator.log2
  let scaled := scaleDown 2 guess numerator denominator
  if scaled.2 ≤ scaled.1 then guess else guess - 1

namespace Binary64

/-- The zero of a sign. -/
def zero (negative : Bool) : Binary64 :=
  .finite negative 0 (-1074) (by decide)

/-- The double of a mantissa that rounding produced: one carry out of 53 bits is absorbed, a
magnitude beyond the greatest double is infinite. -/
def ofScaled (negative : Bool) (mantissa : Nat) (exponent : Int) : Binary64 :=
  if h : IsCanonical mantissa exponent then .finite negative mantissa exponent h
  else if h : mantissa = Nat.pow 2 53 ∧ IsCanonical (Nat.pow 2 52) (exponent + 1) then
    .finite negative (Nat.pow 2 52) (exponent + 1) h.2
  else .infinity negative

/-- The double nearest to a quotient of naturals, with a sign. -/
def ofQuotient (negative : Bool) (numerator denominator : Nat) : Binary64 :=
  if numerator = 0 then zero negative
  else
    let exponent := max (-1074) (floorLog2 numerator denominator - 52)
    let scaled := scaleDown 2 exponent numerator denominator
    ofScaled negative (roundHalfEven scaled.1 scaled.2) exponent

def ofInt (n : Int) : Binary64 :=
  ofQuotient (n < 0) n.natAbs 1

def isNaN : Binary64 → Bool
  | .nan => true
  | _ => false

def isFinite : Binary64 → Bool
  | .finite .. => true
  | _ => false

/-- Numeric equality: the two zeros are equal, and NaN equals nothing. -/
def numEq : Binary64 → Binary64 → Bool
  | .infinity s, .infinity t => s == t
  | .finite s m e _, .finite t n f _ => (m == 0 && n == 0) || (s == t && m == n && e == f)
  | _, _ => false

/-- A natural with a sign. -/
def signed (negative : Bool) (n : Nat) : Int :=
  if negative then -(n : Int) else n

/-- The sum, exact and then rounded. Two zeros of one sign keep it; any other exact zero is
positive. -/
def add : Binary64 → Binary64 → Binary64
  | .nan, _ => .nan
  | _, .nan => .nan
  | .infinity s, .infinity t => if s = t then .infinity s else .nan
  | .infinity s, .finite .. => .infinity s
  | .finite .., .infinity t => .infinity t
  | .finite s m e _, .finite t n f _ =>
    let unit := min e f
    let sum :=
      signed s (m * Nat.pow 2 (e - unit).toNat) + signed t (n * Nat.pow 2 (f - unit).toNat)
    if sum = 0 then zero (s && t)
    else
      let scaled := scaleDown 2 (-unit) sum.natAbs 1
      ofQuotient (sum < 0) scaled.1 scaled.2

def mul : Binary64 → Binary64 → Binary64
  | .nan, _ => .nan
  | _, .nan => .nan
  | .infinity s, .infinity t => .infinity (s ^^ t)
  | .infinity s, .finite t n _ _ => if n = 0 then .nan else .infinity (s ^^ t)
  | .finite s m _ _, .infinity t => if m = 0 then .nan else .infinity (s ^^ t)
  | .finite s m e _, .finite t n f _ =>
    let scaled := scaleDown 2 (-(e + f)) (m * n) 1
    ofQuotient (s ^^ t) scaled.1 scaled.2

def div : Binary64 → Binary64 → Binary64
  | .nan, _ => .nan
  | _, .nan => .nan
  | .infinity _, .infinity _ => .nan
  | .infinity s, .finite t .. => .infinity (s ^^ t)
  | .finite s .., .infinity t => zero (s ^^ t)
  | .finite s m e _, .finite t n f _ =>
    if n = 0 then (if m = 0 then .nan else .infinity (s ^^ t))
    else
      let scaled := scaleDown 2 (f - e) m n
      ofQuotient (s ^^ t) scaled.1 scaled.2

theorem numEq_comm (x y : Binary64) : x.numEq y = y.numEq x := by
  cases x <;> cases y <;> simp [numEq, Bool.beq_comm, Bool.and_comm]

theorem numEq_self_iff (x : Binary64) : x.numEq x = true ↔ x.isNaN = false := by
  cases x <;> simp [numEq, isNaN]

end Binary64

end DocStore
