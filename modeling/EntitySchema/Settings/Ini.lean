import EntitySchema.Settings.Value
import EntitySchema.Text.Blank
import EntitySchema.Text.Hexadecimal

/-!
Settings written as lines `key = value`, in sections that start with a line `[name]`. Every value is
a text.
-/

namespace EntitySchema

open Text

namespace Ini

/-- The blanks at the start of a text are left out, and with them the line breaks. The flag tells
whether the text goes on at the start of a line. -/
def skipBlanks : Bool → List Char → Bool × List Char
  | fresh, [] => (fresh, [])
  | fresh, c :: rest => if isBlank c then skipBlanks (c == '\n') rest else (fresh, c :: rest)

/-- What follows a backslash: nothing for a line that goes on, or else a character. -/
def escape? : List Char → Option (Option Char × List Char)
  | [] => none
  | '0' :: cs => some (some '\x00', cs)
  | 'a' :: cs => some (some '\x07', cs)
  | 'b' :: cs => some (some '\x08', cs)
  | 't' :: cs => some (some '\t', cs)
  | 'r' :: cs => some (some '\r', cs)
  | 'n' :: cs => some (some '\n', cs)
  | '\n' :: cs => some (none, cs)
  | 'x' :: cs => (hexChar? 4 cs).map (fun (c, cs) => (some c, cs))
  | c :: cs => some (some c, cs)

/-- The characters up to one that is a stop, which is left in the text. `fuel` is at least the
length of the text. -/
def upTo (stops : Char → Bool) : Nat → List Char → Option (List Char × List Char)
  | 0, cs => some ([], cs)
  | _ + 1, [] => some ([], [])
  | fuel + 1, c :: cs =>
    if stops c then some ([], c :: cs)
    else if c == '\\' then do
      let (c, cs) ← escape? cs
      let (body, cs) ← upTo stops fuel cs
      some (c.toList ++ body, cs)
    else do
      let (body, cs) ← upTo stops fuel cs
      some (c :: body, cs)

/-- The characters up to a stop, which has to be there. -/
def upToStop? (stops : Char → Bool) (cs : List Char) : Option (List Char × List Char) := do
  let (body, rest) ← upTo stops cs.length cs
  if rest.isEmpty then none else some (body, rest)

def endsLine (c : Char) : Bool := c == '\n' || c == '\r'

/-- A text without the blanks at its end. -/
def trimEnd (cs : List Char) : List Char := (cs.reverse.dropWhile isBlank).reverse

/-- The value at the start of a text: parts in quotes, and then the rest of the line. `fuel` bounds
the number of parts. -/
def value? : Nat → List Char → Option (List Char × List Char)
  | 0, _ => none
  | _ + 1, [] => some ([], [])
  | fuel + 1, c :: cs =>
    if c == '"' || c == '\'' then do
      let (part, rest) ← upToStop? (· == c) cs
      let (others, rest) ← value? fuel (rest.drop 1)
      some (part ++ others, rest)
    else do
      let (line, rest) ← upTo endsLine (cs.length + 1) (c :: cs)
      some (trimEnd line, rest)

/-- Blanks within a line. -/
def isInnerBlank (c : Char) : Bool := isBlank c && !endsLine c

/-- A section. The one without a name holds the keys before the first header. -/
structure Section where
  name : Option String := none
  fields : SettingValue.Fields := []
  deriving Repr, Inhabited

/-- The sections before the one that is being read, the latest first, and that one. -/
structure State where
  before : List Section := []
  current : Section := {}
  deriving Repr, Inhabited

def State.add (s : State) (key value : List Char) : State :=
  { s with current := { s.current with
      fields := s.current.fields ++ [(trim (String.ofList key), .text (String.ofList value))] } }

def State.start (s : State) (name : List Char) : State :=
  ⟨s.current :: s.before, { name := some (trim (String.ofList name)) }⟩

def State.sections (s : State) : List Section := (s.current :: s.before).reverse

/-- The lines of a text. A comment has to be at the start of a line. `fuel` bounds their number. -/
def lines? : Nat → Bool → State → List Char → Option State
  | 0, _, _, _ => none
  | fuel + 1, fresh, s, cs =>
    match skipBlanks fresh cs with
    | (_, []) => some s
    | (fresh, c :: cs) =>
      if c == ';' || c == '#' then
        if fresh then lines? fuel true s ((cs.dropWhile (· != '\n')).drop 1) else none
      else if c == '[' then do
        let (name, rest) ← upToStop? (· == ']') cs
        lines? fuel false (s.start name) (rest.drop 1)
      else do
        let (key, rest) ← upToStop? (fun c => c == '=' || c == ':') (c :: cs)
        if (trim (String.ofList key)).isEmpty then none
        else
          let start := (rest.drop 1).dropWhile isInnerBlank
          let (value, rest) ← value? (start.length + 1) start
          lines? fuel false (s.add key value) rest

/-- The fields of a section: its keys, or one table under its name. -/
def Section.toFields (s : Section) : SettingValue.Fields :=
  match s.name with
  | some name => [(name, .table (SettingValue.lastOfEach s.fields))]
  | none => s.fields

/-- Reads a text. Of two sections or keys with one name the last counts. -/
def read? (text : String) : Option SettingValue :=
  (lines? (text.length + 1) true {} text.toList).map (fun s =>
    .table (SettingValue.lastOfEach (s.sections.flatMap Section.toFields)))

end Ini

end EntitySchema
