import EntitySchema.Json.Value
import EntitySchema.Number.Shortest

/-!
JSON values as text, each item and field on a line of its own and two blanks further in than what
holds it.
-/

namespace EntitySchema

open Number

namespace JsonValue

/-- The text of a number: positional with at least one decimal between `0.00001` and `10 ^ 16`, and
with a power of ten otherwise. -/
def renderDouble (x : Binary64) : String :=
  let d := x.shortest
  let sign := if x.negative then "-" else ""
  let body :=
    if -5 ≤ d.leading ∧ d.leading < 16 then
      d.positional ++ (if 0 ≤ d.exponent then ['.', '0'] else [])
    else
      let power := if 0 ≤ d.leading then '+' :: (decimal d.leading.toNat).toList
        else '-' :: (decimal (-d.leading).toNat).toList
      match d.digits with
      | first :: [] => first :: 'e' :: power
      | first :: rest => first :: '.' :: rest ++ 'e' :: power
      | [] => []
  sign ++ String.ofList body

/-- The digit of a value below sixteen. -/
def hexDigit (n : Nat) : Char :=
  if n < 10 then Char.ofNat ('0'.toNat + n) else Char.ofNat ('a'.toNat + n - 10)

/-- A character inside a string. Quotes, backslashes and control characters are escaped. -/
def escapeChar (c : Char) : List Char :=
  match c with
  | '"' => ['\\', '"']
  | '\\' => ['\\', '\\']
  | '\n' => ['\\', 'n']
  | '\r' => ['\\', 'r']
  | '\t' => ['\\', 't']
  | '\x08' => ['\\', 'b']
  | '\x0c' => ['\\', 'f']
  | c =>
    if c.toNat < 0x20 then
      ['\\', 'u', '0', '0', hexDigit (c.toNat / 16), hexDigit (c.toNat % 16)]
    else [c]

def renderString (s : String) : String :=
  String.ofList ('"' :: s.toList.flatMap escapeChar ++ ['"'])

/-- The start of a line `depth` levels in. -/
def newLine (depth : Nat) : String :=
  String.ofList ('\n' :: List.replicate (2 * depth) ' ')

/-- Parts between brackets, each on its own line; nothing stands between the brackets if there is no
part. -/
def bracket (opening closing : String) (depth : Nat) (parts : List String) : String :=
  match parts with
  | [] => opening ++ closing
  | parts =>
    opening ++ ",".intercalate (parts.map (newLine (depth + 1) ++ ·)) ++ newLine depth ++ closing

mutual

/-- The text of a value that stands `depth` levels in. -/
def renderAt (depth : Nat) : JsonValue → String
  | null => "null"
  | bool true => "true"
  | bool false => "false"
  | integer n => signedDecimal n
  | double x => renderDouble x
  | string s => renderString s
  | array items => bracket "[" "]" depth (renderItems (depth + 1) items)
  | object fields => bracket "\x7b" "\x7d" depth (renderFields (depth + 1) fields)

def renderItems (depth : Nat) : List JsonValue → List String
  | [] => []
  | v :: rest => renderAt depth v :: renderItems depth rest

def renderFields (depth : Nat) : List (String × JsonValue) → List String
  | [] => []
  | (key, v) :: rest => (renderString key ++ ": " ++ renderAt depth v) :: renderFields depth rest

end

def render (v : JsonValue) : String := renderAt 0 v

end JsonValue

end EntitySchema
