import EntitySchema.Json.Value
import EntitySchema.Text.Hexadecimal

/-!
Reading JSON text. Only strict JSON is read: no comments, no commas at the end of a list, and no
nesting of `maxDepth` levels or more.
-/

namespace EntitySchema

open Number Text

namespace JsonValue

/-- Nesting of this many arrays and objects is not read any more. -/
def maxDepth : Nat := 128

def isSpace (c : Char) : Bool :=
  c == ' ' || c == '\n' || c == '\t' || c == '\r'

def skipSpace (cs : List Char) : List Char := cs.dropWhile isSpace

/-! ## Numbers -/

/-- Appends digits to a number as long as it stays within 64 bits; the rest of the digits is
returned. -/
def appendDigits (n : Nat) : List Char → Nat × List Char
  | [] => (n, [])
  | c :: rest =>
    let m := n * 10 + (c.toNat - '0'.toNat)
    if m > maxUnsigned then (n, c :: rest) else appendDigits m rest

/-- The number nearest to a power of ten of the table, which ends at `10 ^ 308`. -/
def powerOfTen (n : Nat) : Binary64 :=
  (Binary64.ofRatio? false (Nat.pow 10 n) 1).getD (.zero false)

/-- `x * 10 ^ exponent`, computed in the double format by one multiplication or by divisions with
the powers of ten of the table. -/
def scaleByTen (x : Binary64) (exponent : Int) : Option Binary64 :=
  if x.isZero then some x
  else if 0 ≤ exponent then
    if exponent ≤ 308 then x.times? (powerOfTen exponent.toNat) else none
  else if -308 ≤ exponent then x.over? (powerOfTen (-exponent).toNat)
  else (x.over? (powerOfTen 308)).bind (fun y => scaleByTen y (exponent + 308))
termination_by exponent.natAbs
decreasing_by omega

/-- The digits of a number as they are written. -/
structure Numeral where
  negative : Bool
  whole : List Char
  fraction : Option (List Char)
  /-- The power of ten that the number is multiplied by, and whether it is negative. -/
  power : Option (Bool × List Char)
  deriving DecidableEq, Repr

namespace Numeral

/-- The power of ten beyond which it is not computed with. -/
def maxPower : Nat := 2147483647

/-- The value of a numeral in the double format. It is computed from as many digits as fit into 64
bits, so the last bit need not be that of the nearest number. -/
def toDouble? (n : Numeral) : Option Binary64 :=
  let (significand, dropped) := appendDigits 0 n.whole
  let fraction := n.fraction.getD []
  let (significand, unread) := appendDigits significand fraction
  let exponent : Int := dropped.length - (fraction.length - unread.length : Nat)
  let magnitude :=
    match n.power with
    | none => scaled significand exponent
    | some (negative, digits) =>
      let power := ofDigits digits
      if power > maxPower then
        if negative || significand == 0 then some (.zero false) else none
      else scaled significand (if negative then exponent - power else exponent + power)
  magnitude.map (fun x => { x with negative := n.negative })
where
  scaled (significand : Nat) (exponent : Int) : Option Binary64 :=
    (Binary64.ofRatio? false significand 1).bind (scaleByTen · exponent)

/-- The value of a numeral. A whole number that fits into 64 bits stays one; a negative zero does
not. -/
def toValue? (n : Numeral) : Option JsonValue :=
  let whole := ofDigits n.whole
  match n.fraction, n.power with
  | none, none =>
    if n.negative then
      if 0 < whole ∧ minSigned ≤ -(whole : Int) then some (.integer (-(whole : Int)))
      else n.toDouble?.map .double
    else if whole ≤ maxUnsigned then some (.integer whole)
    else n.toDouble?.map .double
  | _, _ => n.toDouble?.map .double

/-- Digits at the start of a text, at least one. -/
def digits? (cs : List Char) : Option (List Char × List Char) :=
  match cs.span Char.isDigit with
  | ([], _) => none
  | (digits, rest) => some (digits, rest)

/-- The digits before the point: a zero stands alone. -/
def whole? : List Char → Option (List Char × List Char)
  | '0' :: rest =>
    match rest with
    | c :: _ => if c.isDigit then none else some (['0'], rest)
    | [] => some (['0'], [])
  | cs => digits? cs

def fraction? : List Char → Option (Option (List Char) × List Char)
  | '.' :: rest => (digits? rest).map (fun (digits, rest) => (some digits, rest))
  | cs => some (none, cs)

def power? : List Char → Option (Option (Bool × List Char) × List Char)
  | c :: rest =>
    if c == 'e' || c == 'E' then
      let (negative, rest) :=
        match rest with
        | '+' :: rest => (false, rest)
        | '-' :: rest => (true, rest)
        | rest => (false, rest)
      (digits? rest).map (fun (digits, rest) => (some (negative, digits), rest))
    else some (none, c :: rest)
  | [] => some (none, [])

/-- A numeral at the start of a text. -/
def read? (cs : List Char) : Option (Numeral × List Char) := do
  let (negative, cs) :=
    match cs with
    | '-' :: rest => (true, rest)
    | cs => (false, cs)
  let (whole, cs) ← whole? cs
  let (fraction, cs) ← fraction? cs
  let (power, cs) ← power? cs
  some (⟨negative, whole, fraction, power⟩, cs)

end Numeral

/-! ## Strings -/

/-- The character that follows a backslash. -/
def escape? : List Char → Option (Char × List Char)
  | '"' :: cs => some ('"', cs)
  | '\\' :: cs => some ('\\', cs)
  | '/' :: cs => some ('/', cs)
  | 'b' :: cs => some ('\x08', cs)
  | 'f' :: cs => some ('\x0c', cs)
  | 'n' :: cs => some ('\n', cs)
  | 'r' :: cs => some ('\r', cs)
  | 't' :: cs => some ('\t', cs)
  | 'u' :: cs => unicodeEscape? cs
  | _ => none

/-- The characters up to the closing quote. `fuel` is at least the length of the text. -/
def stringBody? : Nat → List Char → Option (List Char × List Char)
  | 0, _ => none
  | _ + 1, [] => none
  | fuel + 1, c :: cs =>
    if c == '"' then some ([], cs)
    else if c == '\\' then do
      let (c, cs) ← escape? cs
      let (body, cs) ← stringBody? fuel cs
      some (c :: body, cs)
    else if c.toNat < 0x20 then none
    else do
      let (body, cs) ← stringBody? fuel cs
      some (c :: body, cs)

/-- A string after its opening quote. -/
def string? (cs : List Char) : Option (String × List Char) :=
  (stringBody? cs.length cs).map (fun (body, cs) => (String.ofList body, cs))

/-! ## Values -/

/-- A word at the start of a text. -/
def word? (word : String) (value : JsonValue) (cs : List Char) : Option (JsonValue × List Char) :=
  let w := word.toList
  if cs.take w.length = w then some (value, cs.drop w.length) else none

/-- The items of an array, at least one, up to the closing bracket. `fuel` bounds their number. -/
def items? (value? : List Char → Option (JsonValue × List Char)) :
    Nat → List Char → Option (List JsonValue × List Char)
  | 0, _ => none
  | fuel + 1, cs => do
    let (v, cs) ← value? cs
    match skipSpace cs with
    | ']' :: cs => some ([v], cs)
    | ',' :: cs => do
      let (rest, cs) ← items? value? fuel cs
      some (v :: rest, cs)
    | _ => none

/-- The fields of an object, at least one, up to the closing brace. `fuel` bounds their number. -/
def fields? (value? : List Char → Option (JsonValue × List Char)) :
    Nat → List Char → Option (List (String × JsonValue) × List Char)
  | 0, _ => none
  | fuel + 1, cs =>
    match skipSpace cs with
    | '"' :: cs => do
      let (key, cs) ← string? cs
      match skipSpace cs with
      | ':' :: cs => do
        let (v, cs) ← value? cs
        match skipSpace cs with
        | '\x7d' :: cs => some ([(key, v)], cs)
        | ',' :: cs => do
          let (rest, cs) ← fields? value? fuel cs
          some ((key, v) :: rest, cs)
        | _ => none
      | _ => none
    | _ => none

/-- A value at the start of a text, with less than `depth` levels in it. `number` gives the values
of its numerals. -/
def value? (number : Numeral → Option JsonValue) : Nat → List Char → Option (JsonValue × List Char)
  | 0, _ => none
  | depth + 1, cs =>
    match skipSpace cs with
    | [] => none
    | '[' :: cs =>
      if depth = 0 then none
      else
        match skipSpace cs with
        | ']' :: cs => some (.array [], cs)
        | cs =>
          (items? (value? number depth) cs.length cs).map (fun (items, cs) => (.array items, cs))
    | '\x7b' :: cs =>
      if depth = 0 then none
      else
        match skipSpace cs with
        | '\x7d' :: cs => some (.object [], cs)
        | cs =>
          (fields? (value? number depth) cs.length cs).map
            (fun (fields, cs) => (.object (sortFields fields), cs))
    | '"' :: cs => (string? cs).map (fun (s, cs) => (.string s, cs))
    | 'n' :: cs => word? "ull" .null cs
    | 't' :: cs => word? "rue" (.bool true) cs
    | 'f' :: cs => word? "alse" (.bool false) cs
    | cs => do
      let (n, cs) ← Numeral.read? cs
      let v ← number n
      some (v, cs)

/-- Reads a text that holds one value and nothing else. -/
def readWith? (number : Numeral → Option JsonValue) (depth : Nat) (text : String) :
    Option JsonValue := do
  let (v, cs) ← value? number depth text.toList
  if (skipSpace cs).isEmpty then some v else none

def read? (text : String) : Option JsonValue := readWith? Numeral.toValue? maxDepth text

end JsonValue

end EntitySchema
