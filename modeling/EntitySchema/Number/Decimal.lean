/-!
Whole numbers in decimal notation, written and read. Numbers of the schema language fit 64 bits, so
reading refuses what lies beyond.
-/

namespace EntitySchema.Number

/-- The decimal digits of a number, without leading zeros. -/
def decimal (n : Nat) : String :=
  String.ofList (Nat.toDigits 10 n)

/-- A whole number in decimal notation, with a minus sign if it is negative. -/
def signedDecimal : Int → String
  | .ofNat n => decimal n
  | .negSucc n => "-" ++ decimal (n + 1)

/-- The number that a list of digits stands for. -/
def ofDigits (cs : List Char) : Nat :=
  cs.foldl (fun n c => 10 * n + (c.toNat - '0'.toNat)) 0

/-- The number written as one or more digits. -/
def ofDigits? (cs : List Char) : Option Nat :=
  if !cs.isEmpty && cs.all Char.isDigit then some (ofDigits cs) else none

/-- The largest number of 64 bits. -/
def maxUnsigned : Nat := 18446744073709551615

/-- The largest number of 64 bits of which one is the sign. -/
def maxSigned : Int := 9223372036854775807

/-- The smallest number of 64 bits of which one is the sign. -/
def minSigned : Int := -9223372036854775808

/-- Reads digits with an optional plus sign. -/
def readUnsigned (s : String) : Option Nat :=
  let digits := match s.toList with
    | '+' :: rest => rest
    | cs => cs
  match ofDigits? digits with
  | some n => if n ≤ maxUnsigned then some n else none
  | none => none

/-- Reads digits with an optional sign. -/
def readSigned (s : String) : Option Int :=
  let number : Option Int := match s.toList with
    | '+' :: rest => (ofDigits? rest).map Int.ofNat
    | '-' :: rest => (ofDigits? rest).map (fun n => -Int.ofNat n)
    | cs => (ofDigits? cs).map Int.ofNat
  match number with
  | some i => if minSigned ≤ i ∧ i ≤ maxSigned then some i else none
  | none => none

end EntitySchema.Number
