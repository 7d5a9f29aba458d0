import EntitySchema.Number.Decimal

/-!
Numbers of the double format, in exact arithmetic: a fraction is rounded to the nearest number of
the format, and of two equally near ones to that with the even mantissa.
-/

namespace EntitySchema.Number

/-- A finite number of the double format: `mantissa * 2 ^ exponent` and a sign. The mantissa is
below `2 ^ 53`, and it is below `2 ^ 52` only for the least exponent. -/
structure Binary64 where
  negative : Bool
  mantissa : Nat
  exponent : Int
  deriving DecidableEq, Repr, Inhabited

namespace Binary64

def minExponent : Int := -1074

def maxExponent : Int := 971

def zero (negative : Bool) : Binary64 := ⟨negative, 0, minExponent⟩

def isZero (x : Binary64) : Bool := x.mantissa == 0

/-- The nearest whole number to `a / b`, a half going to the even neighbour. -/
def roundDiv (a b : Nat) : Nat :=
  let q := a / b
  let r := a % b
  if 2 * r < b then q
  else if b < 2 * r then q + 1
  else q + q % 2

/-- The fraction `a / (b * 2 ^ e)`. -/
def scaled (a b : Nat) (e : Int) : Nat × Nat :=
  if 0 ≤ e then (a, b * Nat.pow 2 e.toNat) else (a * Nat.pow 2 (-e).toNat, b)

/-- The exponent with which the fraction `a / b` has a mantissa of the full width, or the least
exponent of the format. -/
def exponentOf (a b : Nat) : Int :=
  let guess : Int := (Nat.log2 a : Int) - Nat.log2 b - 52
  let (n, d) := scaled a b guess
  max (if n < d * Nat.pow 2 52 then guess - 1 else guess) minExponent

/-- The number nearest to the fraction `a / b`, unless it is beyond the largest one. -/
def ofRatio? (negative : Bool) (a b : Nat) : Option Binary64 :=
  if a = 0 then some (zero negative)
  else
    let e := exponentOf a b
    let (n, d) := scaled a b e
    let m := roundDiv n d
    let (m, e) := if m = Nat.pow 2 53 then (Nat.pow 2 52, e + 1) else (m, e)
    if e > maxExponent then none else some ⟨negative, m, e⟩

/-- The number without its sign, as a fraction. -/
def ratio (x : Binary64) : Nat × Nat :=
  scaled x.mantissa 1 (-x.exponent)

def times? (x y : Binary64) : Option Binary64 :=
  let (a, b) := x.ratio
  let (c, d) := y.ratio
  ofRatio? (x.negative != y.negative) (a * c) (b * d)

/-- The quotient by a number other than zero. -/
def over? (x y : Binary64) : Option Binary64 :=
  let (a, b) := x.ratio
  let (c, d) := y.ratio
  ofRatio? (x.negative != y.negative) (a * d) (b * c)

/-- The number nearest to `digits * 10 ^ exponent`, unless it is beyond the largest one. Exponents
far outside the range are told by the number of digits alone. -/
def ofDecimal? (negative : Bool) (digits : Nat) (exponent : Int) : Option Binary64 :=
  let magnitude := (decimal digits).length + exponent
  if digits = 0 ∨ magnitude < -330 then some (zero negative)
  else if magnitude > 310 then none
  else if 0 ≤ exponent then ofRatio? negative (digits * Nat.pow 10 exponent.toNat) 1
  else ofRatio? negative digits (Nat.pow 10 (-exponent).toNat)

end Binary64

end EntitySchema.Number
