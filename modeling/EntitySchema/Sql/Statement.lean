import EntitySchema.Sql.Table
import EntitySchema.Text.SnakeCase

/-!
The statements on a table: those that store and load a row, and the filtered queries, one for every
choice of columns.
-/

namespace EntitySchema

namespace Sql

open Text Number

/-- A statement on a table. Its values are given in the order of the columns, and the key of the
row, where there is one, comes last. -/
inductive Statement where
  | insert (table : String) (columns : List String)
  | update (table : String) (columns : List String)
  | delete (table : String)
  /-- The rows in which each column of `filters` has the given value. -/
  | select (table : String) (columns filters : List String)
  deriving DecidableEq, Repr, Inhabited

namespace Statement

/-- Columns with their values, the first of which is the `start`th of the statement. -/
def bindings (d : Dialect) (columns : List String) (start : Nat) : List String :=
  (columns.zipIdx start).map (fun (column, n) => d.quote column ++ " = " ++ d.placeholder n)

/-- A list of names. -/
def names (d : Dialect) (columns : List String) : String :=
  ", ".intercalate (columns.map d.quote)

/-- The values of `count` columns. -/
def values (d : Dialect) (count : Nat) : String :=
  ", ".intercalate ((List.range' 1 count).map d.placeholder)

def render (d : Dialect) : Statement → String
  | insert table [] =>
    match d with
    | .mysql => "INSERT INTO " ++ d.quote table ++ " () VALUES ();"
    | _ => "INSERT INTO " ++ d.quote table ++ " DEFAULT VALUES;"
  | insert table columns =>
    "INSERT INTO " ++ d.quote table ++ " (" ++ names d columns ++ ") VALUES (" ++
      values d columns.length ++ ");"
  | update table columns =>
    "UPDATE " ++ d.quote table ++ " SET " ++ ", ".intercalate (bindings d columns 1) ++ " WHERE " ++
      " AND ".intercalate (bindings d [keyName] (columns.length + 1)) ++ ";"
  | delete table =>
    "DELETE FROM " ++ d.quote table ++ " WHERE " ++
      " AND ".intercalate (bindings d [keyName] 1) ++ ";"
  | select table columns filters =>
    "SELECT " ++ names d columns ++ " FROM " ++ d.quote table ++ " WHERE " ++
      " AND ".intercalate (bindings d filters 1) ++ ";"

end Statement

/-! ## Storing and loading -/

def storedNames (model : Model) (s : Struct) : List String :=
  (storedMembers model s).map Member.name

def valueNames (model : Model) (s : Struct) : List String :=
  (valueMembers model s).map Member.name

/-- The statement behind an operation. A row without values is never written again, and the
serialized forms are no matter of the table. -/
def statement? (model : Model) (s : Struct) : Role → Option Statement
  | .insert => some (.insert s.name (valueNames model s))
  | .update =>
    match valueNames model s with
    | [] => none
    | columns => some (.update s.name columns)
  | .delete => some (.delete s.name)
  | .load => some (.select s.name (storedNames model s) [keyName])
  | .toSerialized | .fromSerialized => none

/-! ## Filtered queries -/

/-- All choices from a list, each in the order of the list. Later elements vary slowest, and the
empty choice comes first. -/
def choices {α : Type} : List α → List (List α)
  | [] => [[]]
  | a :: rest => (choices rest).flatMap (fun chosen => [chosen, a :: chosen])

/-- A query and its label. -/
structure Query where
  label : String
  statement : Statement
  deriving DecidableEq, Repr, Inhabited

/-- The query for the rows that have given values in the chosen columns. -/
def Query.ofChoice (table : String) (columns chosen : List String) : Query :=
  ⟨"find_by_" ++ "_and_".intercalate (chosen.map snakeCase), .select table columns chosen⟩

/-- The queries of a struct, one for every choice of value columns but the empty one. -/
def queries (model : Model) (s : Struct) : List Query :=
  (choices (valueNames model s)).tail.map (Query.ofChoice s.name (storedNames model s))

/-! ## Counting queries -/

/-- The largest count that 64 bits can tell. -/
def largestCount : UInt64 := UInt64.ofNat maxUnsigned

/-- How many queries a table with this many value columns has. With 64 columns or more there are
more than can be told. -/
def queryCountOf (columns : Nat) : UInt64 :=
  if columns < 64 then (1 <<< UInt64.ofNat columns) - 1 else largestCount

/-- The sum of two counts. One that is less than a part of it has overflown. -/
def addCounts (a b : UInt64) : UInt64 :=
  if a + b < a then largestCount else a + b

/-- How many filtered queries the model has, up to the largest count that can be told. -/
def queryCount (model : Model) : Nat :=
  let counts := model.structs.map (fun s => queryCountOf (valueMembers model s).length)
  (counts.foldl addCounts 0).toNat

end Sql

end EntitySchema
