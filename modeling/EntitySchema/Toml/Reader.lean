import EntitySchema.Text.Hexadecimal
import EntitySchema.Toml.Document

/-!
Reading TOML text. Only whether a text is TOML and what it says is told, not where it fails.
-/

namespace EntitySchema

namespace Toml

open Number
open Text (hexValue? hexChar?)

/-! ## Blanks and lines -/

def isBlank (c : Char) : Bool := c == ' ' || c == '\t'

def skipBlanks (cs : List Char) : List Char := cs.dropWhile isBlank

/-- A character that may stand in comments and, some marks apart, in strings. -/
def isPlain (c : Char) : Bool :=
  c == '\t' || (0x20 ≤ c.toNat && c.toNat ≤ 0x7E) || 0x80 ≤ c.toNat

/-- The text after a line break, if one stands at its start. -/
def lineBreak? : List Char → Option (List Char)
  | '\n' :: rest => some rest
  | '\r' :: '\n' :: rest => some rest
  | _ => none

/-- The text after a comment, if one stands at its start. -/
def skipComment : List Char → List Char
  | '#' :: rest => rest.dropWhile isPlain
  | cs => cs

/-- Nothing but blanks and a comment up to the end of the line. -/
def lineEnd? (cs : List Char) : Option (List Char) :=
  match skipComment (skipBlanks cs) with
  | [] => some []
  | cs => lineBreak? cs

/-- The text after blanks, comments and line breaks. `fuel` bounds the number of lines. -/
def skipLines? : Nat → List Char → Option (List Char)
  | 0, cs => some cs
  | fuel + 1, cs =>
    match skipBlanks cs with
    | '#' :: rest => (lineEnd? ('#' :: rest)).bind (skipLines? fuel)
    | cs =>
      match lineBreak? cs with
      | some rest => skipLines? fuel rest
      | none => some cs

/-! ## Strings -/

/-- The character that follows a backslash. -/
def escape? : List Char → Option (Char × List Char)
  | '"' :: cs => some ('"', cs)
  | '\\' :: cs => some ('\\', cs)
  | 'b' :: cs => some ('\x08', cs)
  | 't' :: cs => some ('\t', cs)
  | 'n' :: cs => some ('\n', cs)
  | 'f' :: cs => some ('\x0c', cs)
  | 'r' :: cs => some ('\r', cs)
  | 'u' :: cs => hexChar? 4 cs
  | 'U' :: cs => hexChar? 8 cs
  | _ => none

/-- The rest of a string between double quotes. -/
def basicBody? : Nat → List Char → Option (List Char × List Char)
  | 0, _ => none
  | _ + 1, [] => none
  | fuel + 1, c :: cs =>
    if c == '"' then some ([], cs)
    else if c == '\\' then do
      let (c, cs) ← escape? cs
      let (body, cs) ← basicBody? fuel cs
      some (c :: body, cs)
    else if isPlain c then do
      let (body, cs) ← basicBody? fuel cs
      some (c :: body, cs)
    else none

/-- The rest of a string between single quotes, in which nothing is escaped. -/
def literalBody? (cs : List Char) : Option (List Char × List Char) :=
  match cs.span (fun c => isPlain c && c != '\'') with
  | (body, '\'' :: rest) => some (body, rest)
  | _ => none

/-- Quotes at the start of a text that ends a string of several lines: three close it, and up to two
before them belong to it. Fewer than three belong to it as well. -/
def closingQuotes (mark : Char) (cs : List Char) : Option Nat × List Char :=
  let count := (cs.takeWhile (· == mark)).length
  if count < 3 then (none, List.replicate count mark)
  else (some (min count 5), List.replicate (min count 5 - 3) mark)

/-- The text after blanks and line breaks. -/
def skipFolds : List Char → List Char
  | ' ' :: rest => skipFolds rest
  | '\t' :: rest => skipFolds rest
  | '\n' :: rest => skipFolds rest
  | '\r' :: '\n' :: rest => skipFolds rest
  | cs => cs

/-- The text after a backslash at the end of a line: all blanks and line breaks are skipped. -/
def foldedLine? (cs : List Char) : Option (List Char) :=
  (lineBreak? (skipBlanks cs)).map skipFolds

/-- The rest of a string of several lines between three double or single quotes. In double quotes
characters can be escaped. -/
def longBody? (mark : Char) : Nat → List Char → Option (List Char × List Char)
  | 0, _ => none
  | _ + 1, [] => none
  | fuel + 1, c :: cs =>
    if c == mark then
      match closingQuotes mark (c :: cs) with
      | (some count, own) => some (own, (c :: cs).drop count)
      | (none, own) => do
        let (body, cs) ← longBody? mark fuel ((c :: cs).drop own.length)
        some (own ++ body, cs)
    else if c == '\\' && mark == '"' then
      match foldedLine? cs with
      | some cs => longBody? mark fuel cs
      | none => do
        let (c, cs) ← escape? cs
        let (body, cs) ← longBody? mark fuel cs
        some (c :: body, cs)
    else
      match lineBreak? (c :: cs) with
      | some cs => do
        let (body, cs) ← longBody? mark fuel cs
        some ('\n' :: body, cs)
      | none =>
        if isPlain c then do
          let (body, cs) ← longBody? mark fuel cs
          some (c :: body, cs)
        else none

/-- A string of several lines after its opening quotes. A line break right there does not count. -/
def longString? (mark : Char) (cs : List Char) : Option (List Char × List Char) :=
  let cs := (lineBreak? cs).getD cs
  longBody? mark (cs.length + 1) cs

def string? : List Char → Option (List Char × List Char)
  | '"' :: '"' :: '"' :: cs => longString? '"' cs
  | '\'' :: '\'' :: '\'' :: cs => longString? '\'' cs
  | '"' :: cs => basicBody? (cs.length + 1) cs
  | '\'' :: cs => literalBody? cs
  | _ => none

/-! ## Keys -/

def isBareKeyChar (c : Char) : Bool :=
  c.isAlphanum || c == '_' || c == '-'

/-- One part of a key. -/
def keyPart? : List Char → Option (String × List Char)
  | '"' :: cs => (basicBody? (cs.length + 1) cs).map (fun (body, cs) => (String.ofList body, cs))
  | '\'' :: cs => (literalBody? cs).map (fun (body, cs) => (String.ofList body, cs))
  | cs =>
    match cs.span isBareKeyChar with
    | ([], _) => none
    | (part, rest) => some (String.ofList part, rest)

/-- A key with dots between its parts, and the text after the blanks that follow it. -/
def key? : Nat → List Char → Option (List String × List Char)
  | 0, _ => none
  | fuel + 1, cs => do
    let (part, cs) ← keyPart? (skipBlanks cs)
    match skipBlanks cs with
    | '.' :: cs => do
      let (parts, cs) ← key? fuel cs
      some (part :: parts, cs)
    | cs => some ([part], cs)

/-- The deepest nesting of values, and the largest number of parts of a key. -/
def maxDepth : Nat := 79

/-! ## Numbers and words -/

/-- Digits without the underscores between them. -/
def underscored? (isDigit : Char → Bool) : List Char → Option (List Char)
  | [] => none
  | [c] => if isDigit c then some [c] else none
  | c :: '_' :: rest => if isDigit c then (underscored? isDigit rest).map (c :: ·) else none
  | c :: rest => if isDigit c then (underscored? isDigit rest).map (c :: ·) else none

/-- The digits of a whole number, without zeros in front. -/
def wholeDigits? (cs : List Char) : Option (List Char) :=
  match underscored? Char.isDigit cs with
  | some ('0' :: _ :: _) => none
  | digits => digits

def fitsSigned (n : Int) : Bool := minSigned ≤ n && n ≤ maxSigned

/-- A whole number in base two, eight or sixteen. -/
def based? (base : Nat) (cs : List Char) : Option Int := do
  let digits ← underscored? (fun c => (hexValue? c).any (· < base)) cs
  let n := digits.foldl (fun n c => n * base + (hexValue? c).getD 0) 0
  if fitsSigned n then some (n : Int) else none

def integer? : List Char → Option Int
  | '0' :: 'x' :: cs => based? 16 cs
  | '0' :: 'o' :: cs => based? 8 cs
  | '0' :: 'b' :: cs => based? 2 cs
  | cs => do
    let (negative, cs) := Double.sign cs
    let digits ← wholeDigits? cs
    let n : Int := if negative then -(ofDigits digits : Int) else ofDigits digits
    if fitsSigned n then some n else none

/-- The digits after `e`, with their sign. -/
def power? (cs : List Char) : Option Int := do
  let (negative, cs) := Double.sign cs
  let digits ← underscored? Char.isDigit cs
  some (if negative then -(ofDigits digits : Int) else ofDigits digits)

/-- A number with a fraction or a power of ten. One beyond the largest double is refused if it is
positive. -/
def float? (cs : List Char) : Option Double := do
  let (negative, cs) := Double.sign cs
  if cs == "inf".toList then some (.infinite negative)
  else if cs == "nan".toList then some .notANumber
  else
    let (mantissa, rest) := cs.span (fun c => c != 'e' && c != 'E')
    let (whole, decimals) := mantissa.span (· != '.')
    let whole ← wholeDigits? whole
    let decimals ←
      match decimals with
      | [] => some []
      | _ :: digits => underscored? Char.isDigit digits
    let power ←
      match rest with
      | [] => some 0
      | _ :: rest => power? rest
    if decimals.isEmpty && rest.isEmpty then none
    else
      match Double.ofDecimal negative (ofDigits (whole ++ decimals)) (power - decimals.length) with
      | .infinite false => none
      | x => some x

/-- A character of numbers, dates and words. -/
def isWordChar (c : Char) : Bool :=
  c.isAlphanum || c == '_' || c == '+' || c == '-' || c == '.' || c == ':'

/-- A value that is written as one word. -/
def word? (cs : List Char) : Option Value :=
  if cs == "true".toList then some (.bool true)
  else if cs == "false".toList then some (.bool false)
  else
    match integer? cs, float? cs, Moment.read? cs with
    | some n, _, _ => some (.integer n)
    | none, some x, _ => some (.double x)
    | none, none, some m => some (.moment m)
    | none, none, none => none

/-- A word at the start of a text. A blank may stand between a date and a time. -/
def wordValue? (cs : List Char) : Option (Value × List Char) :=
  let (word, rest) := cs.span isWordChar
  match date? word, rest with
  | some (_, []), ' ' :: a :: b :: ':' :: more =>
    if a.isDigit && b.isDigit then
      let (time, rest) := (a :: b :: ':' :: more).span isWordChar
      (word? (word ++ 'T' :: time)).map (fun v => (v, rest))
    else (word? word).map (fun v => (v, rest))
  | _, _ => (word? word).map (fun v => (v, rest))

/-! ## Values -/

/-- The items of an array up to the closing bracket. A comma may stand after the last one. -/
def items? (value? : List Char → Option (Value × List Char)) :
    Nat → List Char → Option (List Value × List Char)
  | 0, _ => none
  | fuel + 1, cs => do
    let cs ← skipLines? cs.length cs
    match cs with
    | ']' :: rest => some ([], rest)
    | cs => do
      let (v, cs) ← value? cs
      let cs ← skipLines? cs.length cs
      match cs with
      | ']' :: rest => some ([v], rest)
      | ',' :: rest => do
        let (more, cs) ← items? value? fuel rest
        some (v :: more, cs)
      | _ => none

/-- A key, the equals sign and a value. -/
def pair? (value? : List Char → Option (Value × List Char)) (cs : List Char) :
    Option (List String × Value × List Char) := do
  let (parts, cs) ← key? maxDepth cs
  let cs ← expect? '=' cs
  let (v, cs) ← value? (skipBlanks cs)
  some (parts, v, cs)

/-- Adds the value of a key to some fields. -/
def insertPair (parts : List String) (v : Value) (fields : Fields) : Option Fields :=
  match parts.getLast? with
  | some key => Fields.insertDotted key v parts.dropLast fields
  | none => none

/-- The pairs of a table in braces, at least one, up to the closing brace. -/
def pairs? (value? : List Char → Option (Value × List Char)) :
    Nat → Fields → List Char → Option (Fields × List Char)
  | 0, _, _ => none
  | fuel + 1, fields, cs => do
    let (parts, v, cs) ← pair? value? cs
    let fields ← insertPair parts v fields
    match skipBlanks cs with
    | '\x7d' :: rest => some (fields, rest)
    | ',' :: rest => pairs? value? fuel fields rest
    | _ => none

/-- A value at the start of a text, with at most `depth` levels of nesting. -/
def value? : Nat → List Char → Option (Value × List Char)
  | depth + 1, '[' :: cs =>
    (items? (value? depth) (cs.length + 1) cs).map (fun (items, cs) => (.array items, cs))
  | depth + 1, '\x7b' :: cs =>
    match skipBlanks cs with
    | '\x7d' :: cs => some (.table .braces [], cs)
    | cs =>
      (pairs? (value? depth) (cs.length + 1) [] cs).map
        (fun (fields, cs) => (.table .braces fields, cs))
  | _, '"' :: cs => (string? ('"' :: cs)).map (fun (s, cs) => (.text (String.ofList s), cs))
  | _, '\'' :: cs => (string? ('\'' :: cs)).map (fun (s, cs) => (.text (String.ofList s), cs))
  | _, cs => wordValue? cs

/-! ## Documents -/

/-- The document so far, and the header that keys now belong to. -/
structure State where
  fields : Fields := []
  header : List String := []
  deriving Repr, Inhabited

/-- A header, and the text after it. -/
def header? (s : State) (cs : List Char) : Option (State × List Char) :=
  match cs with
  | '[' :: cs => do
    let (path, cs) ← key? maxDepth cs
    let cs ← (expect? ']' cs).bind (expect? ']')
    let fields ← Fields.openRow path s.fields
    some (⟨fields, path⟩, cs)
  | cs => do
    let (path, cs) ← key? maxDepth cs
    let cs ← expect? ']' cs
    let fields ← Fields.openTable path s.fields
    some (⟨fields, path⟩, cs)

/-- A line with a key and a value, which may reach over several lines. -/
def keyLine? (s : State) (cs : List Char) : Option (State × List Char) := do
  let (parts, v, cs) ← pair? (value? maxDepth) cs
  let fields ← Fields.changeAt (insertPair parts v) s.header s.fields
  some ({ s with fields }, cs)

/-- The lines of a document. `fuel` bounds their number. -/
def lines? : Nat → State → List Char → Option State
  | 0, _, _ => none
  | fuel + 1, s, cs => do
    let cs ← skipLines? cs.length cs
    match cs with
    | [] => some s
    | '[' :: rest => do
      let (s, cs) ← header? s rest
      let cs ← lineEnd? cs
      lines? fuel s cs
    | cs => do
      let (s, cs) ← keyLine? s cs
      let cs ← lineEnd? cs
      lines? fuel s cs

/-- Reads a document. A byte order mark at its start does not count. -/
def read? (text : String) : Option Fields :=
  let cs :=
    match text.toList with
    | '\ufeff' :: rest => rest
    | cs => cs
  (lines? (cs.length + 1) {} cs).map State.fields

end Toml

end EntitySchema
