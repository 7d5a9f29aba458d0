/-!
Hexadecimal digits, and characters that are written with them.
-/

namespace EntitySchema.Text

/-- The value of a hexadecimal digit in any case of letters. -/
def hexValue? (c : Char) : Option Nat :=
  if c.isDigit then some (c.toNat - '0'.toNat)
  else if 'a' ≤ c ∧ c ≤ 'f' then some (c.toNat - 'a'.toNat + 10)
  else if 'A' ≤ c ∧ c ≤ 'F' then some (c.toNat - 'A'.toNat + 10)
  else none

/-- Four hexadecimal digits at the start of a text. -/
def hexUnit? : List Char → Option (Nat × List Char)
  | a :: b :: c :: d :: rest => do
    let a ← hexValue? a
    let b ← hexValue? b
    let c ← hexValue? c
    let d ← hexValue? d
    some (((a * 16 + b) * 16 + c) * 16 + d, rest)
  | _ => none

/-- The character that follows `\u`. One beyond four digits is written as a pair of units, and half
a pair is no character. -/
def unicodeEscape? (cs : List Char) : Option (Char × List Char) := do
  let (high, cs) ← hexUnit? cs
  if 0xD800 ≤ high ∧ high < 0xDC00 then
    match cs with
    | '\\' :: 'u' :: cs => do
      let (low, cs) ← hexUnit? cs
      if 0xDC00 ≤ low ∧ low < 0xE000 then
        some (Char.ofNat (0x10000 + (high - 0xD800) * 0x400 + (low - 0xDC00)), cs)
      else none
    | _ => none
  else if 0xDC00 ≤ high ∧ high < 0xE000 then none
  else some (Char.ofNat high, cs)

/-- The number that hexadecimal digits stand for. -/
def ofHexDigits? (cs : List Char) : Option Nat :=
  (cs.mapM hexValue?).map (fun values => values.foldl (fun n v => n * 16 + v) 0)

/-- The character of a number. -/
def charOf? (code : Nat) : Option Char :=
  if code.isValidChar then some (Char.ofNat code) else none

/-- A character written with this many hexadecimal digits. -/
def hexChar? (n : Nat) (cs : List Char) : Option (Char × List Char) :=
  if (cs.take n).length = n then do
    let code ← ofHexDigits? (cs.take n)
    let c ← charOf? code
    some (c, cs.drop n)
  else none

end EntitySchema.Text
