import EntitySchema.Number.Binary64

/-!
The fewest decimal digits that read back as a given number of the double format; of several with
that many digits, the nearest to the number.
-/

namespace EntitySchema.Number

/-- Decimal digits without zeros at the end, and the power of ten that the last one counts. Zero is
the digit `0`. -/
structure DecimalDigits where
  digits : List Char
  exponent : Int
  deriving DecidableEq, Repr, Inhabited

namespace DecimalDigits

/-- The digits of `n * 10 ^ exponent`. -/
def ofNat (n : Nat) (exponent : Int) : DecimalDigits :=
  if n = 0 then ⟨['0'], 0⟩
  else
    let digits := (decimal n).toList
    let zeros := (digits.reverse.takeWhile (· == '0')).length
    ⟨digits.take (digits.length - zeros), exponent + zeros⟩

/-- The power of ten that the first digit counts. -/
def leading (x : DecimalDigits) : Int :=
  x.exponent + x.digits.length - 1

def zeros (n : Nat) : List Char := List.replicate n '0'

/-- The digits with a point at its place, or without one for a whole number. -/
def positional (x : DecimalDigits) : List Char :=
  if 0 ≤ x.exponent then x.digits ++ zeros x.exponent.toNat
  else if 0 ≤ x.leading then
    let whole := (x.leading + 1).toNat
    x.digits.take whole ++ '.' :: x.digits.drop whole
  else '0' :: '.' :: zeros (-x.leading - 1).toNat ++ x.digits

end DecimalDigits

namespace Binary64

/-- The fractions that read back as a number, between two fractions with one denominator. -/
structure Interval where
  low : Nat
  middle : Nat
  high : Nat
  denominator : Nat
  /-- The ends read back as the number too. -/
  closed : Bool
  deriving DecidableEq, Repr

/-- The fractions that are nearer to a number than to its neighbours. Below a power of two the
neighbour is half as far away. -/
def interval (x : Binary64) : Interval :=
  let below := if x.mantissa = Nat.pow 2 52 ∧ x.exponent > minExponent then 1 else 2
  let e := x.exponent - 2
  let (unit, denominator) := scaled 1 1 (-e)
  { low := (4 * x.mantissa - below) * unit
    middle := 4 * x.mantissa * unit
    high := (4 * x.mantissa + 2) * unit
    denominator
    closed := x.mantissa % 2 == 0 }

/-- The power of ten that the first digit of the fraction `a / b` counts. -/
def leadingPower (a b : Nat) : Int :=
  if b ≤ a then (decimal (a / b)).length - 1
  else
    let n := (decimal (b / a)).length - 1
    if b ≤ a * Nat.pow 10 n then -(n : Int) else -(n : Int) - 1

namespace Interval

/-- The multiple of `10 ^ k` nearest to the middle, if one lies in the interval. -/
def multiple? (i : Interval) (k : Int) : Option Nat :=
  let unit := if 0 ≤ k then 1 else Nat.pow 10 (-k).toNat
  let step := if 0 ≤ k then i.denominator * Nat.pow 10 k.toNat else i.denominator
  let inside (n : Nat) : Bool :=
    if i.closed then i.low * unit ≤ n * step && n * step ≤ i.high * unit
    else i.low * unit < n * step && n * step < i.high * unit
  let n := i.middle * unit / step
  let rest := i.middle * unit % step
  match inside n, inside (n + 1) with
  | true, true =>
    some (if 2 * rest < step ∨ (2 * rest = step ∧ n % 2 = 0) then n else n + 1)
  | true, false => some n
  | false, true => some (n + 1)
  | false, false => none

end Interval

/-- The shortest digits of a number, without its sign. Seventeen digits always suffice. -/
def shortest (x : Binary64) : DecimalDigits :=
  if x.isZero then .ofNat 0 0
  else
    let i := x.interval
    let top := leadingPower i.middle i.denominator
    let found := (List.range 17).findSome? (fun (n : Nat) =>
      (i.multiple? (top - n)).map (fun digits => DecimalDigits.ofNat digits (top - n)))
    found.getD (.ofNat (i.middle / i.denominator) 0)

end Binary64

end EntitySchema.Number
