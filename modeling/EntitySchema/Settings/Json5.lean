import EntitySchema.Settings.Value
import EntitySchema.Text.Alphabetic
import EntitySchema.Text.Blank
import EntitySchema.Text.Hexadecimal

/-!
Settings written in JSON5: JSON with comments, names as keys, strings in either kind of quotes, a
comma after the last item, and more ways to write a number.
-/

namespace EntitySchema

open Number Text

namespace Json5

/-! ## Gaps -/

def isLineEnd (c : Char) : Bool :=
  c == '\n' || c == '\r' || c == '\u2028' || c == '\u2029'

def isSpace (c : Char) : Bool :=
  (isBlank c && c != '\u0085') || c == '\ufeff'

/-- The text after the end of a comment in stars. -/
def afterComment? : List Char → Option (List Char)
  | [] => none
  | '*' :: '/' :: rest => some rest
  | _ :: rest => afterComment? rest

/-- The text after spaces and comments. `fuel` bounds their number. -/
def skipGaps : Nat → List Char → List Char
  | 0, cs => cs
  | fuel + 1, '/' :: '/' :: rest => skipGaps fuel (rest.dropWhile (fun c => !isLineEnd c))
  | fuel + 1, '/' :: '*' :: rest =>
    match afterComment? rest with
    | some rest => skipGaps fuel rest
    | none => '/' :: '*' :: rest
  | fuel + 1, c :: rest => if isSpace c then skipGaps fuel rest else c :: rest
  | _ + 1, [] => []

def skipGap (cs : List Char) : List Char := skipGaps cs.length cs

/-! ## Strings and names -/

/-- What follows a backslash: nothing for a line that goes on, or else a character. -/
def escape? : List Char → Option (Option Char × List Char)
  | [] => none
  | '\r' :: '\n' :: cs => some (none, cs)
  | 'b' :: cs => some (some '\x08', cs)
  | 'f' :: cs => some (some '\x0c', cs)
  | 'n' :: cs => some (some '\n', cs)
  | 'r' :: cs => some (some '\r', cs)
  | 't' :: cs => some (some '\t', cs)
  | 'v' :: cs => some (some '\x0b', cs)
  | '0' :: cs => some (some '\x00', cs)
  | 'x' :: cs => (hexChar? 2 cs).map (fun (c, cs) => (some c, cs))
  | 'u' :: cs => (unicodeEscape? cs).map (fun (c, cs) => (some c, cs))
  | c :: cs =>
    if isLineEnd c then some (none, cs)
    else if c.isDigit then none
    else some (some c, cs)

/-- The characters up to the closing quote. `fuel` is at least the length of the text. -/
def stringBody? (quote : Char) : Nat → List Char → Option (List Char × List Char)
  | 0, _ => none
  | _ + 1, [] => none
  | fuel + 1, c :: cs =>
    if c == quote then some ([], cs)
    else if c == '\\' then do
      let (c, cs) ← escape? cs
      let (body, cs) ← stringBody? quote fuel cs
      some (c.toList ++ body, cs)
    else if isLineEnd c then none
    else do
      let (body, cs) ← stringBody? quote fuel cs
      some (c :: body, cs)

/-- A string after its opening quote. -/
def string? (quote : Char) (cs : List Char) : Option (String × List Char) :=
  (stringBody? quote cs.length cs).map (fun (body, cs) => (String.ofList body, cs))

def startsName (c : Char) : Bool := isAlphabetic c || c == '$' || c == '_'

def continuesName (c : Char) : Bool :=
  isAlphanumeric c || c == '$' || c == '_' || c == '\u200c' || c == '\u200d'

/-- The characters of a name that fit a test at its first one. `fuel` is at least the length of the
text. -/
def nameBody? : Nat → (Char → Bool) → List Char → Option (List Char × List Char)
  | 0, _, cs => some ([], cs)
  | fuel + 1, fits, '\\' :: 'u' :: cs => do
    let (c, cs) ← unicodeEscape? cs
    if fits c then
      let (body, cs) ← nameBody? fuel continuesName cs
      some (c :: body, cs)
    else none
  | fuel + 1, fits, c :: cs =>
    if fits c then do
      let (body, cs) ← nameBody? fuel continuesName cs
      some (c :: body, cs)
    else some ([], c :: cs)
  | _ + 1, _, [] => some ([], [])

/-- The key of a field. -/
def key? : List Char → Option (String × List Char)
  | '"' :: cs => string? '"' cs
  | '\'' :: cs => string? '\'' cs
  | cs => do
    let (body, cs) ← nameBody? cs.length startsName cs
    if body.isEmpty then none else some (String.ofList body, cs)

/-! ## Numbers -/

/-- The greatest number in hexadecimal digits. -/
def maxHex : Nat := 4294967295

/-- A number in hexadecimal digits after `0x`. -/
def hex? (cs : List Char) : Option (SettingValue × List Char) := do
  let (digits, rest) := cs.span (fun c => (hexValue? c).isSome)
  let n ← ofHexDigits? digits
  if digits.isEmpty || n > maxHex then none else some (.integer n, rest)

/-- The digits before a point; a zero stands alone. -/
def wholeDigits : List Char → List Char × List Char
  | '0' :: rest => (['0'], rest)
  | cs => cs.span Char.isDigit

/-- The power of ten at the start of a text. Without digits there is none. -/
def power (cs : List Char) : List Char × List Char :=
  match cs with
  | c :: rest =>
    if c == 'e' || c == 'E' then
      let (sign, digits) :=
        match rest with
        | '+' :: rest => (['+'], rest)
        | '-' :: rest => (['-'], rest)
        | rest => ([], rest)
      let (digits, rest) := digits.span Char.isDigit
      if digits.isEmpty then ([], cs) else (c :: sign ++ digits, rest)
    else ([], cs)
  | [] => ([], [])

/-- A number in decimal digits after its sign. It is a whole one if it has neither a point nor a
power of ten, and then it has to fit 64 bits. -/
def decimal? (sign cs : List Char) : Option (SettingValue × List Char) := do
  let (whole, cs) := wholeDigits cs
  let (fraction, cs) :=
    match cs with
    | '.' :: rest =>
      let (digits, rest) := rest.span Char.isDigit
      if whole.isEmpty && digits.isEmpty then ([], cs) else ('.' :: digits, rest)
    | cs => ([], cs)
  if whole.isEmpty && fraction.isEmpty then none
  else
    let (power, cs) := power cs
    if fraction.isEmpty && power.isEmpty then do
      let n ← readSigned (String.ofList (sign ++ whole))
      some (.integer n, cs)
    else do
      let x ← Double.read? (String.ofList (sign ++ whole ++ fraction ++ power))
      some (.double x, cs)

/-- The text after a word, if it starts with it. -/
def after? (word : String) (cs : List Char) : Option (List Char) :=
  if cs.take word.length = word.toList then some (cs.drop word.length) else none

/-- A number after its sign. A number in hexadecimal digits has none. -/
def unsigned? (sign cs : List Char) : Option (SettingValue × List Char) :=
  match after? "Infinity" cs, after? "NaN" cs, cs with
  | some rest, _, _ => some (.double (.infinite (sign == ['-'])), rest)
  | _, some rest, _ => some (.double .notANumber, rest)
  | _, _, '0' :: 'x' :: rest => if sign.isEmpty then hex? rest else none
  | _, _, '0' :: 'X' :: rest => if sign.isEmpty then hex? rest else none
  | _, _, cs => decimal? sign cs

def number? : List Char → Option (SettingValue × List Char)
  | '+' :: cs => unsigned? ['+'] cs
  | '-' :: cs => unsigned? ['-'] cs
  | cs => unsigned? [] cs

/-! ## Values -/

/-- The items of an array up to the closing bracket. `fuel` bounds their number. -/
def items? (value? : List Char → Option (SettingValue × List Char)) :
    Nat → List Char → Option (List SettingValue × List Char)
  | 0, _ => none
  | fuel + 1, cs =>
    match skipGap cs with
    | ']' :: cs => some ([], cs)
    | cs => do
      let (v, cs) ← value? cs
      match skipGap cs with
      | ']' :: cs => some ([v], cs)
      | ',' :: cs => do
        let (rest, cs) ← items? value? fuel cs
        some (v :: rest, cs)
      | _ => none

/-- The fields of an object up to the closing brace. `fuel` bounds their number. -/
def fields? (value? : List Char → Option (SettingValue × List Char)) :
    Nat → List Char → Option (SettingValue.Fields × List Char)
  | 0, _ => none
  | fuel + 1, cs =>
    match skipGap cs with
    | '\x7d' :: cs => some ([], cs)
    | cs => do
      let (key, cs) ← key? cs
      match skipGap cs with
      | ':' :: cs => do
        let (v, cs) ← value? cs
        match skipGap cs with
        | '\x7d' :: cs => some ([(key, v)], cs)
        | ',' :: cs => do
          let (rest, cs) ← fields? value? fuel cs
          some ((key, v) :: rest, cs)
        | _ => none
      | _ => none

/-- A value at the start of a text, with less than `depth` levels in it. -/
def value? : Nat → List Char → Option (SettingValue × List Char)
  | 0, _ => none
  | depth + 1, cs =>
    match skipGap cs with
    | '[' :: cs =>
      (items? (value? depth) (cs.length + 1) cs).map (fun (items, cs) => (.list items, cs))
    | '\x7b' :: cs =>
      (fields? (value? depth) (cs.length + 1) cs).map
        (fun (fields, cs) => (.table (SettingValue.lastOfEach fields), cs))
    | '"' :: cs => (string? '"' cs).map (fun (s, cs) => (.text s, cs))
    | '\'' :: cs => (string? '\'' cs).map (fun (s, cs) => (.text s, cs))
    | cs =>
      match after? "null" cs, after? "true" cs, after? "false" cs with
      | some rest, _, _ => some (.unset, rest)
      | _, some rest, _ => some (.bool true, rest)
      | _, _, some rest => some (.bool false, rest)
      | _, _, _ => number? cs

/-- Reads a text that holds one value and nothing else. -/
def read? (text : String) : Option SettingValue := do
  let (v, cs) ← value? (text.length + 1) text.toList
  if (skipGap cs).isEmpty then some v else none

end Json5

end EntitySchema
