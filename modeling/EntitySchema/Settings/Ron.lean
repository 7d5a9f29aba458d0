import EntitySchema.Settings.Value
import EntitySchema.Text.Hexadecimal

/-!
Settings written in RON. A struct and a map are tables, a list and a tuple are
lists, and a character is a text.
-/

namespace EntitySchema

open Number Text

namespace Ron

/-! ## Gaps -/

def isSpace (c : Char) : Bool :=
  c == ' ' || c == '\t' || c == '\n' || c == '\r' || c == '\x0b' || c == '\x0c' ||
    c == '\u0085' || c == '\u200e' || c == '\u200f' || c == '\u2028' || c == '\u2029'

/-- The text after the end of a comment in stars, which may hold others. -/
def afterComment? : Nat → List Char → Option (List Char)
  | _, [] => none
  | 0, '*' :: '/' :: rest => some rest
  | depth + 1, '*' :: '/' :: rest => afterComment? depth rest
  | depth, '/' :: '*' :: rest => afterComment? (depth + 1) rest
  | depth, _ :: rest => afterComment? depth rest

/-- The text after spaces and comments. `fuel` bounds their number. -/
def skipGaps : Nat → List Char → List Char
  | 0, cs => cs
  | fuel + 1, '/' :: '/' :: rest => skipGaps fuel (rest.dropWhile (· != '\n'))
  | fuel + 1, '/' :: '*' :: rest =>
    match afterComment? 0 rest with
    | some rest => skipGaps fuel rest
    | none => '/' :: '*' :: rest
  | fuel + 1, c :: rest => if isSpace c then skipGaps fuel rest else c :: rest
  | _ + 1, [] => []

def skipGap (cs : List Char) : List Char := skipGaps cs.length cs

/-! ## Strings and characters -/

/-- The character that follows a backslash. -/
def escape? : List Char → Option (Char × List Char)
  | '"' :: cs => some ('"', cs)
  | '\'' :: cs => some ('\'', cs)
  | '\\' :: cs => some ('\\', cs)
  | 'n' :: cs => some ('\n', cs)
  | 'r' :: cs => some ('\r', cs)
  | 't' :: cs => some ('\t', cs)
  | '0' :: cs => some ('\x00', cs)
  | 'x' :: cs => hexChar? 2 cs
  | 'u' :: '\x7b' :: cs => do
    let (digits, rest) := cs.span (· != '\x7d')
    let code ← ofHexDigits? digits
    let c ← charOf? code
    if digits.isEmpty || digits.length > 6 || rest.isEmpty then none else some (c, rest.drop 1)
  | _ => none

/-- The characters up to the closing quote. `fuel` is at least the length of the text. -/
def stringBody? : Nat → List Char → Option (List Char × List Char)
  | 0, _ => none
  | _ + 1, [] => none
  | _ + 1, '"' :: cs => some ([], cs)
  | fuel + 1, '\\' :: cs => do
    let (c, cs) ← escape? cs
    let (body, cs) ← stringBody? fuel cs
    some (c :: body, cs)
  | fuel + 1, c :: cs => do
    let (body, cs) ← stringBody? fuel cs
    some (c :: body, cs)

/-- The characters up to a quote with this many signs after it, which are taken as they are. -/
def rawBody? (signs : Nat) : List Char → Option (List Char × List Char)
  | [] => none
  | c :: cs =>
    if c == '"' && cs.take signs == List.replicate signs '#' then some ([], cs.drop signs)
    else (rawBody? signs cs).map (fun (body, rest) => (c :: body, rest))

/-- A string whose characters are taken as they are, after its letter. -/
def rawString? (cs : List Char) : Option (List Char × List Char) :=
  let (signs, rest) := cs.span (· == '#')
  match rest with
  | '"' :: rest => rawBody? signs.length rest
  | _ => none

/-- A character after its opening quote. -/
def char? : List Char → Option (Char × List Char)
  | '\\' :: cs => do
    let (c, cs) ← escape? cs
    match cs with
    | '\'' :: cs => some (c, cs)
    | _ => none
  | c :: '\'' :: cs => some (c, cs)
  | _ => none

/-! ## Names and numbers -/

def startsName (c : Char) : Bool := c.isAlpha || c == '_'

def continuesName (c : Char) : Bool := c.isAlphanum || c == '_'

/-- A name at the start of a text. -/
def name? (cs : List Char) : Option (String × List Char) :=
  let cs :=
    match cs with
    | 'r' :: '#' :: c :: rest => if startsName c then c :: rest else cs
    | cs => cs
  match cs with
  | c :: _ =>
    if startsName c then
      let (name, rest) := cs.span continuesName
      some (String.ofList name, rest)
    else none
  | [] => none

def isNumberChar (c : Char) : Bool :=
  c.isAlphanum || c == '_' || c == '.' || c == '+' || c == '-'

/-- A number beyond the signed ones is the nearest double. -/
def ofInteger (n : Int) : SettingValue :=
  if minSigned ≤ n ∧ n ≤ maxSigned then .integer n
  else .double (Double.ofDecimal (n < 0) n.natAbs 0)

/-- The number that digits of a base stand for. -/
def ofBase? (base : Nat) (cs : List Char) : Option Nat := do
  let values ← cs.mapM hexValue?
  if values.isEmpty || values.any (· ≥ base) then none
  else some (values.foldl (fun n v => n * base + v) 0)

/-- A number after its sign. -/
def unsigned? (cs : List Char) : Option Nat :=
  match cs with
  | '0' :: 'x' :: rest => ofBase? 16 rest
  | '0' :: 'b' :: rest => ofBase? 2 rest
  | '0' :: 'o' :: rest => ofBase? 8 rest
  | cs => ofBase? 10 cs

/-- A number at the start of a text. Underscores between its digits do not count. -/
def number? (cs : List Char) : Option (SettingValue × List Char) := do
  let (word, rest) := cs.span isNumberChar
  let digits := word.filter (· != '_')
  let (negative, bare) := Double.sign digits
  match bare with
  | c :: _ =>
    if c.isDigit || c == '.' || c == 'i' || c == 'N' then
      match unsigned? bare with
      | some n => some (ofInteger (if negative then -(n : Int) else n), rest)
      | none => do
        let x ← Double.read? (String.ofList digits)
        some (.double x, rest)
    else none
  | [] => none

/-! ## Values -/

/-- The items up to a closing mark. `fuel` bounds their number. -/
def items? (value? : List Char → Option (SettingValue × List Char)) (closing : Char) :
    Nat → List Char → Option (List SettingValue × List Char)
  | 0, _ => none
  | fuel + 1, cs =>
    match skipGap cs with
    | [] => none
    | c :: rest =>
      if c == closing then some ([], rest)
      else do
        let (v, cs) ← value? (c :: rest)
        match skipGap cs with
        | ',' :: cs => do
          let (others, cs) ← items? value? closing fuel cs
          some (v :: others, cs)
        | c :: cs => if c == closing then some ([v], cs) else none
        | [] => none

/-- The fields up to a closing mark, whose keys are read by `key?`. `fuel` bounds their number. -/
def fields? (key? : List Char → Option (String × List Char))
    (value? : List Char → Option (SettingValue × List Char)) (closing : Char) :
    Nat → List Char → Option (SettingValue.Fields × List Char)
  | 0, _ => none
  | fuel + 1, cs =>
    match skipGap cs with
    | [] => none
    | c :: rest =>
      if c == closing then some ([], rest)
      else do
        let (key, cs) ← key? (c :: rest)
        match skipGap cs with
        | ':' :: cs => do
          let (v, cs) ← value? cs
          match skipGap cs with
          | ',' :: cs => do
            let (others, cs) ← fields? key? value? closing fuel cs
            some ((key, v) :: others, cs)
          | c :: cs => if c == closing then some ([(key, v)], cs) else none
          | [] => none
        | _ => none

/-- The key of a map, which has to be a text. -/
def mapKey? (value? : List Char → Option (SettingValue × List Char)) (cs : List Char) :
    Option (String × List Char) :=
  match value? cs with
  | some (.text key, cs) => some (key, cs)
  | _ => none

/-- Whether a name and a colon start a text. -/
def startsField (cs : List Char) : Bool :=
  match name? (skipGap cs) with
  | some (_, cs) => (skipGap cs).head? == some ':'
  | none => false

/-- A struct or a tuple, after its opening parenthesis. Without anything in it, it is unset. -/
def group? (value? : List Char → Option (SettingValue × List Char)) (cs : List Char) :
    Option (SettingValue × List Char) :=
  match skipGap cs with
  | ')' :: cs => some (.unset, cs)
  | cs =>
    if startsField cs then
      (fields? name? value? ')' (cs.length + 1) cs).map
        (fun (fields, cs) => (.table (SettingValue.lastOfEach fields), cs))
    else (items? value? ')' (cs.length + 1) cs).map (fun (items, cs) => (.list items, cs))

/-- The value that stands for itself or nothing, after its name. -/
def some? (value? : List Char → Option (SettingValue × List Char)) (cs : List Char) :
    Option (SettingValue × List Char) :=
  match skipGap cs with
  | '(' :: cs => do
    let (v, cs) ← value? cs
    match skipGap cs with
    | ',' :: cs =>
      match skipGap cs with
      | ')' :: cs => some (v, cs)
      | _ => none
    | ')' :: cs => some (v, cs)
    | _ => none
  | _ => none

/-- What a name starts: a word with a meaning, or else the name of a struct or tuple. -/
def named? (value? : List Char → Option (SettingValue × List Char)) (name : String)
    (cs : List Char) : Option (SettingValue × List Char) :=
  match name with
  | "true" => some (.bool true, cs)
  | "false" => some (.bool false, cs)
  | "None" => some (.unset, cs)
  | "Some" => some? value? cs
  | "inf" => some (.double (.infinite false), cs)
  | "NaN" => some (.double .notANumber, cs)
  | _ =>
    match skipGap cs with
    | '(' :: cs => group? value? cs
    | cs => some (.unset, cs)

/-- A value at the start of a text, with less than `depth` levels in it. -/
def value? : Nat → List Char → Option (SettingValue × List Char)
  | 0, _ => none
  | depth + 1, cs =>
    match skipGap cs with
    | '(' :: cs => group? (value? depth) cs
    | '[' :: cs =>
      (items? (value? depth) ']' (cs.length + 1) cs).map (fun (items, cs) => (.list items, cs))
    | '\x7b' :: cs =>
      (fields? (mapKey? (value? depth)) (value? depth) '\x7d' (cs.length + 1) cs).map
        (fun (fields, cs) => (.table (SettingValue.lastOfEach fields), cs))
    | '"' :: cs =>
      (stringBody? (cs.length + 1) cs).map (fun (s, cs) => (.text (String.ofList s), cs))
    | '\'' :: cs => (char? cs).map (fun (c, cs) => (.text (String.ofList [c]), cs))
    | cs =>
      match cs.head? == some 'r', rawString? (cs.drop 1) with
      | true, some (s, cs) => some (.text (String.ofList s), cs)
      | _, _ =>
        match name? cs with
        | some (name, cs) => named? (value? depth) name cs
        | none => number? cs

/-! ## Texts -/

/-- The deepest nesting of values. -/
def maxDepth : Nat := 128

/-- The names of what a text can switch on at its start. -/
def extensions : List String :=
  ["unwrap_newtypes", "implicit_some", "unwrap_variant_newtypes", "explicit_struct_names"]

/-- The text after the names of extensions and the closing brackets. `fuel` bounds their number. -/
def afterExtensions? : Nat → List Char → Option (List Char)
  | 0, _ => none
  | fuel + 1, cs => do
    let (name, cs) ← name? (skipGap cs)
    if extensions.contains name then
      match skipGap cs with
      | ',' :: cs =>
        match skipGap cs with
        | ')' :: ']' :: cs => some cs
        | cs => afterExtensions? fuel cs
      | ')' :: ']' :: cs => some cs
      | _ => none
    else none

/-- The text after the attributes at its start. `fuel` bounds their number. -/
def skipAttributes? : Nat → List Char → Option (List Char)
  | 0, _ => none
  | fuel + 1, cs =>
    match skipGap cs with
    | '#' :: cs =>
      match cs.take 9 == "![enable(".toList with
      | true => (afterExtensions? cs.length (cs.drop 9)).bind (skipAttributes? fuel)
      | false => none
    | cs => some cs

/-- Reads a text that holds one value and nothing else. -/
def read? (text : String) : Option SettingValue := do
  let cs ← skipAttributes? (text.length + 1) text.toList
  let (v, cs) ← value? maxDepth cs
  if (skipGap cs).isEmpty then some v else none

end Ron

end EntitySchema
