import EntitySchema.Json.Value
import EntitySchema.Text.LetterCase
import EntitySchema.Toml.Document

/-!
Values of settings before their meaning is known, and how several sources of them are laid over each
other: tables are merged key by key, and anything else is replaced.
-/

namespace EntitySchema

open Text Number

inductive SettingValue where
  | unset
  | bool (b : Bool)
  | integer (n : Int)
  | double (x : Double)
  | text (s : String)
  | list (items : List SettingValue)
  | table (fields : List (String × SettingValue))
  deriving Repr, Inhabited

namespace SettingValue

abbrev Fields := List (String × SettingValue)

/-- The fields of a table; nothing else has any. -/
def fields : SettingValue → Fields
  | table fields => fields
  | _ => []

def replace (key : String) (value : SettingValue) (fields : Fields) : Fields :=
  if (fields.lookup key).isSome then
    fields.map (fun f => if f.1 == key then (key, value) else f)
  else fields ++ [(key, value)]

/-- The fields of a table in which a key may stand more than once: the last one counts. -/
def lastOfEach (fields : Fields) : Fields :=
  fields.foldl (fun kept (key, value) => replace key value kept) []

mutual

/-- Lays a value over the field of a key. The case of letters in keys does not matter. -/
def put (key : String) : SettingValue → Fields → Fields
  | table incoming, fields =>
    let key := lowercase key
    replace key (mergeInto ((fields.lookup key).getD (table [])) incoming) fields
  | value, fields => replace (lowercase key) value fields

/-- Lays the fields of a table over a value. Over what is no table they become a table, unless there
are none. -/
def mergeInto (target : SettingValue) : Fields → SettingValue
  | [] => target
  | (key, value) :: rest => mergeInto (table (put key value target.fields)) rest

end

/-! ## Keys that lead into tables and lists -/

/-- A step from a value to a part of it. -/
inductive KeyStep where
  | field (name : String)
  /-- An item of a list; a negative number counts from the end. -/
  | item (index : Int)
  deriving DecidableEq, Repr

/-- A character of a name in a key. -/
def isKeyChar (c : Char) : Bool :=
  c.isAlphanum || c == ' ' || c == '_' || c == '-'

/-- A name at the start of a text. -/
def keyName? (cs : List Char) : Option (String × List Char) :=
  match cs.span isKeyChar with
  | ([], _) => none
  | (name, rest) => some (String.ofList name, rest)

/-- The number between brackets, after the opening one. Blanks may stand around it. -/
def subscript? (cs : List Char) : Option (Int × List Char) :=
  let skip := List.dropWhile (fun c => c == ' ' || c == '\t')
  let (sign, cs) :=
    match skip cs with
    | '-' :: rest => (['-'], rest)
    | cs => ([], cs)
  let (digits, rest) := cs.span Char.isDigit
  if digits.isEmpty then none
  else
    match readSigned (String.ofList (sign ++ digits)), skip rest with
    | some n, ']' :: rest => some (n, rest)
    | _, _ => none

/-- The steps that follow the first name of a key. `fuel` bounds their number. -/
def keySteps? : Nat → List Char → Option (List KeyStep)
  | _, [] => some []
  | 0, _ => none
  | fuel + 1, '.' :: cs => do
    let (name, rest) ← keyName? cs
    let steps ← keySteps? fuel rest
    some (.field name :: steps)
  | fuel + 1, '[' :: cs => do
    let (index, rest) ← subscript? cs
    let steps ← keySteps? fuel rest
    some (.item index :: steps)
  | _ + 1, _ => none

/-- The steps that a key leads along. A key that is not written as such steps leads nowhere and
stands for itself. -/
def keyPath (key : String) : List KeyStep :=
  let steps : Option (List KeyStep) := do
    let (name, rest) ← keyName? key.toList
    let steps ← keySteps? rest.length rest
    some (.field name :: steps)
  steps.getD [.field key]

/-- The items of a list; nothing else has any. -/
def items : SettingValue → List SettingValue
  | list items => items
  | _ => []

/-- The greatest number of items to which a subscript extends a list. -/
def maxItems : Nat := 1000000

/-- The place of an item in a list of this length. There is none before the start, nor beyond the
greatest number of items. -/
def position? (index : Int) (length : Nat) : Option Nat :=
  if 0 ≤ index then
    if index < maxItems then some index.toNat else none
  else if index.natAbs ≤ length then some (length - index.natAbs)
  else none

/-- The items with enough unset ones at the end for there to be one at `position`. -/
def extendTo (position : Nat) (items : List SettingValue) : List SettingValue :=
  items ++ List.replicate (position + 1 - items.length) unset

/-- Lays a value over the part of another one that some steps lead to. What is on the way becomes a
table or a list, as the step asks. There is no result for an item that a list cannot have. -/
def setAt (value : SettingValue) : List KeyStep → SettingValue → Option SettingValue
  | [], _ => some value
  | [.field name], target => some (table (put name value target.fields))
  | .field name :: rest, target => do
    let name := lowercase name
    let inner ← setAt value rest ((target.fields.lookup name).getD unset)
    some (table (replace name inner target.fields))
  | .item index :: rest, target => do
    let position ← position? index target.items.length
    let items := extendTo position target.items
    let inner ← setAt value rest (items[position]?.getD unset)
    some (list (items.set position inner))

/-- Lays a field of a source over what the sources before it say. -/
def apply (fields : Fields) (field : String × SettingValue) : Option Fields :=
  (setAt field.2 (keyPath field.1) (table fields)).map SettingValue.fields

/-- Lays a source over what the sources before it say. -/
def overlay (fields source : Fields) : Option Fields :=
  source.foldlM apply fields

/-! ## From documents -/

/-- Why a text says nothing about settings. -/
inductive SourceError where
  | unreadable
  /-- A key is neither a text nor a number. -/
  | badKey
  deriving DecidableEq, Repr

mutual

def ofJson : JsonValue → SettingValue
  | .null => unset
  | .bool b => bool b
  | .integer n =>
    if n ≤ maxSigned then integer n else double (.ofDecimal false n.toNat 0)
  | .double x => double (.finite x)
  | .string s => text s
  | .array items => list (ofJsonItems items)
  | .object fields => table (ofJsonFields fields)

def ofJsonItems : List JsonValue → List SettingValue
  | [] => []
  | v :: rest => ofJson v :: ofJsonItems rest

def ofJsonFields : List (String × JsonValue) → Fields
  | [] => []
  | (key, v) :: rest => (key, ofJson v) :: ofJsonFields rest

end

/-- The key that makes a table stand for a date or a time, if it is the first. -/
def momentKey : String := "$__toml_private_datetime"

/-- The text of a date or a time that is written as text. -/
def momentText? : Toml.Value → Option SettingValue
  | .text s => (Toml.Moment.readLoose? s.toList).map (fun m => text m.render)
  | _ => none

mutual

/-- A date or a time is the text of it. -/
def ofToml? : Toml.Value → Option SettingValue
  | .text s => some (text s)
  | .integer n => some (integer n)
  | .double x => some (double x)
  | .bool b => some (bool b)
  | .moment m => some (text m.render)
  | .array items => (ofTomlItems? items).map list
  | .table _ fields => ofTomlTable? fields
  | .tables rows => (ofTomlRows? rows).map list

/-- A table, or the date or time that it stands for. -/
def ofTomlTable? : List (String × Toml.Value) → Option SettingValue
  | [] => some (table [])
  | (key, v) :: rest =>
    if key == momentKey then momentText? v
    else do
      let first ← ofToml? v
      let others ← ofTomlFields? rest
      some (table ((key, first) :: others))

def ofTomlItems? : List Toml.Value → Option (List SettingValue)
  | [] => some []
  | v :: rest => do
    let first ← ofToml? v
    let others ← ofTomlItems? rest
    some (first :: others)

def ofTomlFields? : List (String × Toml.Value) → Option Fields
  | [] => some []
  | (key, v) :: rest => do
    let first ← ofToml? v
    let others ← ofTomlFields? rest
    some ((key, first) :: others)

def ofTomlRows? : List (List (String × Toml.Value)) → Option (List SettingValue)
  | [] => some []
  | row :: rest => do
    let first ← ofTomlTable? row
    let others ← ofTomlRows? rest
    some (first :: others)

end

/-! ## Meaning -/

/-- A value as a switch: numbers other than zero are on, and so are a few words. -/
def asBool? : SettingValue → Option Bool
  | bool b => some b
  | integer n => some (n != 0)
  | double x => some (!x.isZero)
  | text s =>
    let word := lowercase s
    if ["1", "true", "on", "yes"].contains word then some true
    else if ["0", "false", "off", "no"].contains word then some false
    else none
  | _ => none

def asText? : SettingValue → Option String
  | bool true => some "true"
  | bool false => some "false"
  | integer n => some (signedDecimal n)
  | double x => some x.render
  | text s => some s
  | _ => none

/-- A list of texts. A single text is no list. -/
def asTexts? : SettingValue → Option (List String)
  | list items => items.mapM asText?
  | _ => none

end SettingValue

end EntitySchema
