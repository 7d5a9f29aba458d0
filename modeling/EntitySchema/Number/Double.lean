import EntitySchema.Number.Shortest

/-!
The values of the double format, with infinities and without a number, as they are read and written
by hand.
-/

namespace EntitySchema.Number

inductive Double where
  | finite (x : Binary64)
  | infinite (negative : Bool)
  | notANumber
  deriving DecidableEq, Repr, Inhabited

namespace Double

/-- The value nearest to `digits * 10 ^ exponent`. -/
def ofDecimal (negative : Bool) (digits : Nat) (exponent : Int) : Double :=
  match Binary64.ofDecimal? negative digits exponent with
  | some x => finite x
  | none => infinite negative

def isZero : Double → Bool
  | finite x => x.isZero
  | _ => false

/-- The shortest digits that read back, never with a power of ten. -/
def render : Double → String
  | finite x => (if x.negative then "-" else "") ++ String.ofList x.shortest.positional
  | infinite negative => if negative then "-inf" else "inf"
  | notANumber => "NaN"

/-- A sign at the start of a text: whether it is a minus, and the rest. -/
def sign : List Char → Bool × List Char
  | '+' :: rest => (false, rest)
  | '-' :: rest => (true, rest)
  | cs => (false, cs)

/-- Digits after a point at the start of a text. -/
def fraction : List Char → List Char × List Char
  | '.' :: rest => rest.span Char.isDigit
  | cs => ([], cs)

/-- The power of ten that ends a text. -/
def power? : List Char → Option Int
  | [] => some 0
  | c :: rest =>
    if c == 'e' || c == 'E' then
      let (negative, digits) := sign rest
      if digits.isEmpty || !digits.all Char.isDigit then none
      else
        let n : Int := ofDigits digits
        some (if negative then -n else n)
    else none

/-- Reads a number: digits with an optional point and an optional power of ten, or one of the words
`inf`, `infinity` and `nan` in any case of letters. -/
def read? (text : String) : Option Double :=
  let (negative, cs) := sign text.toList
  let word := String.ofList (cs.map Char.toLower)
  if word == "inf" || word == "infinity" then some (infinite negative)
  else if word == "nan" then some notANumber
  else
    let (whole, cs) := cs.span Char.isDigit
    let (decimals, cs) := fraction cs
    if whole.isEmpty && decimals.isEmpty then none
    else (power? cs).map (fun power =>
      ofDecimal negative (ofDigits (whole ++ decimals)) (power - decimals.length))

end Double

end EntitySchema.Number
