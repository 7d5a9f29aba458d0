import EntitySchema.Number.Double
import EntitySchema.Toml.Moment

/-!
TOML documents as they come together from headers and keys. A table remembers what made it, because
that decides whether a later header or key may add to it.
-/

namespace EntitySchema

namespace Toml

open Number

/-- What made a table. -/
inductive TableOrigin where
  /-- A header of its own. -/
  | header
  /-- A header of a table inside it. -/
  | implied
  /-- A key with dots. -/
  | dotted
  /-- Braces; nothing can be added to it. -/
  | braces
  deriving DecidableEq, Repr, Inhabited

inductive Value where
  | text (s : String)
  | integer (n : Int)
  | double (x : Double)
  | bool (b : Bool)
  | moment (m : Moment)
  | array (items : List Value)
  | table (origin : TableOrigin) (fields : List (String × Value))
  /-- Tables with headers in double brackets, in the order of the headers. -/
  | tables (rows : List (List (String × Value)))
  deriving Repr, Inhabited

abbrev Fields := List (String × Value)

namespace Fields

def get? (fields : Fields) (key : String) : Option Value := fields.lookup key

/-- Sets a field; a new one goes to the end. -/
def set (fields : Fields) (key : String) (value : Value) : Fields :=
  if (fields.lookup key).isSome then
    fields.map (fun f => if f.1 == key then (key, value) else f)
  else fields ++ [(key, value)]

/-- Changes the last of the rows. -/
def changeLast (change : Fields → Option Fields) (rows : List Fields) : Option (List Fields) :=
  match rows.getLast? with
  | some row => (change row).map (fun row => rows.dropLast ++ [row])
  | none => none

/-- Adds a value under a dotted key, `path` being the parts before the last. Tables on the way are
made as needed; one with a header of its own is not added to in this way. -/
def insertDotted (key : String) (value : Value) : List String → Fields → Option Fields
  | [], fields => if (fields.get? key).isSome then none else some (fields.set key value)
  | part :: rest, fields =>
    match fields.get? part with
    | none => do
      let inner ← insertDotted key value rest []
      some (fields.set part (.table .dotted inner))
    | some (.table .dotted inner) => do
      let inner ← insertDotted key value rest inner
      some (fields.set part (.table .dotted inner))
    | some (.table .implied inner) =>
      if rest.isEmpty then none
      else do
        let inner ← insertDotted key value rest inner
        some (fields.set part (.table .implied inner))
    | some (.tables rows) =>
      if rest.isEmpty then none
      else do
        let rows ← changeLast (insertDotted key value rest) rows
        some (fields.set part (.tables rows))
    | some _ => none

/-- Changes the table that a header leads to. Tables on the way are made as needed, and of several
rows the last is meant. -/
def changeAt (change : Fields → Option Fields) : List String → Fields → Option Fields
  | [], fields => change fields
  | part :: rest, fields =>
    match fields.get? part with
    | none => do
      let inner ← changeAt change rest []
      some (fields.set part (.table .implied inner))
    | some (.table .braces _) => none
    | some (.table origin inner) => do
      let inner ← changeAt change rest inner
      some (fields.set part (.table origin inner))
    | some (.tables rows) => do
      let rows ← changeLast (changeAt change rest) rows
      some (fields.set part (.tables rows))
    | some _ => none

/-- Opens the table of a header. It must not have been opened before, nor made by a dotted key. -/
def openTable (path : List String) (fields : Fields) : Option Fields :=
  match path.getLast? with
  | none => none
  | some key =>
    changeAt (fun parent =>
      match parent.get? key with
      | none => some (parent.set key (.table .header []))
      | some (.table .implied inner) => some (parent.set key (.table .header inner))
      | some _ => none) path.dropLast fields

/-- Opens a new row of the tables of a header in double brackets. -/
def openRow (path : List String) (fields : Fields) : Option Fields :=
  match path.getLast? with
  | none => none
  | some key =>
    changeAt (fun parent =>
      match parent.get? key with
      | none => some (parent.set key (.tables [[]]))
      | some (.tables rows) => some (parent.set key (.tables (rows ++ [[]])))
      | some _ => none) path.dropLast fields

end Fields

end Toml

end EntitySchema
