import EntitySchema.Model
import EntitySchema.Sql.Dialect

/-!
The tables of a model. A struct is a table, and a member is a column of it, unless the member is an
array of structs: those are stored as a key in the table of the elements.
-/

namespace EntitySchema

namespace Sql

open Text Number

/-- The value that a column has when none is given: quoted text, a number, or what the schema says
as it stands. -/
inductive Literal where
  | text (s : String)
  | number (n : Int)
  | verbatim (s : String)
  deriving DecidableEq, Repr, Inhabited

def Literal.render : Literal → String
  | text s => Doubled.quote '\'' s
  | number n => signedDecimal n
  | verbatim s => s

/-- What a column holds: the key of its own table, or a value. A value may be limited to the
numbers of an enum. -/
inductive ColumnBody where
  | key
  | value (type : ColumnType) (required unique autoIncrement : Bool)
      (initial : Option Literal) (allowed : Option (List Int))
  deriving DecidableEq, Repr, Inhabited

structure Column where
  name : String
  description : Option String
  body : ColumnBody
  /-- The field of a table that the values of the column are taken from. -/
  target : Option Reference
  deriving DecidableEq, Repr, Inhabited

structure Table where
  name : String
  columns : List Column
  deriving DecidableEq, Repr, Inhabited

/-! ## From members to columns -/

/-- Whether a member is a column. -/
def isStored (model : Model) (m : Member) : Bool :=
  match m.type.elementName? with
  | some name => !model.hasStruct name
  | none => true

def storedMembers (model : Model) (s : Struct) : List Member :=
  s.members.filter (isStored model)

/-- The columns that are not the key. -/
def valueMembers (model : Model) (s : Struct) : List Member :=
  (storedMembers model s).filter (fun m => !m.primaryKey)

/-- The default of a member as a value of its column: an enum's is the number of the name. -/
def initialValue (model : Model) (type : TypeExpr) (text : String) : Literal :=
  match type with
  | .scalar s => if s.isTextual then .text text else .verbatim text
  | .array _ => .verbatim text
  | .named name =>
    match (model.enum? name).bind (fun e => e.value? text) with
    | some n => .number n
    | none => .verbatim text

/-- The type of the column of a member, and the numbers it is limited to. -/
def columnTypeOf (model : Model) : TypeExpr → ColumnType × Option (List Int)
  | .scalar s => (.scalar s, none)
  | .array _ => (.list, none)
  | .named name =>
    match model.enum? name with
    | some e => (.scalar .int32, some (e.values.map EnumValue.value))
    | none => (.link, none)

/-- What the column of a member links to: the reference of the member, or the key of the struct it
is typed by. -/
def targetOf (model : Model) (m : Member) : Option Reference :=
  match m.reference, m.type with
  | some r, _ => some r
  | none, .named name => if model.hasEnum name then none else some ⟨name, keyName⟩
  | none, _ => none

/-- Whether the type counts up by itself when it is asked to. -/
def isCounter : TypeExpr → Bool
  | .scalar s => s.isInteger
  | _ => false

def Column.ofMember (model : Model) (m : Member) : Column :=
  if m.isOwnKey then ⟨m.name, m.description, .key, none⟩
  else
    let (type, allowed) := columnTypeOf model m.type
    { name := m.name
      description := m.description
      body := .value type m.required m.unique (m.autoIncrement && isCounter m.type)
        (m.defaultValue.map (initialValue model m.type)) allowed
      target := targetOf model m }

def Table.ofStruct (model : Model) (s : Struct) : Table :=
  ⟨s.name, (storedMembers model s).map (Column.ofMember model)⟩

/-! ## Tables as text -/

namespace Column

/-- What follows the name of a column. -/
def renderBody (d : Dialect) (name : String) : ColumnBody → String
  | .key => d.keyColumn
  | .value type required unique autoIncrement initial allowed =>
    String.join [
      d.columnType type,
      if required then " NOT NULL" else "",
      if unique then " UNIQUE" else "",
      match autoIncrement, d.autoIncrement? with
        | true, some clause => " " ++ clause
        | _, _ => "",
      match initial with
        | some value => " DEFAULT " ++ value.render
        | none => "",
      match allowed with
        | some values =>
          " CHECK (" ++ d.quote name ++ " IN (" ++ ", ".intercalate (values.map signedDecimal)
            ++ "))"
        | none => ""]

/-- The description as a comment line of its own; its line breaks become blanks. -/
def renderDescription : Option String → String
  | some text =>
    "    -- " ++ String.ofList (text.toList.map (fun c => if c = '\n' then ' ' else c)) ++ "\n"
  | none => ""

/-- The definition of the column in its table. -/
def render (d : Dialect) (c : Column) : String :=
  renderDescription c.description ++ "    " ++ d.quote c.name ++ " " ++ renderBody d c.name c.body

/-- The clause that links the column to its target. -/
def renderLink (d : Dialect) (c : Column) : Option String :=
  c.target.map (fun r =>
    "    FOREIGN KEY (" ++ d.quote c.name ++ ") REFERENCES " ++ d.quote r.struct ++
      " (" ++ d.quote r.field ++ ")")

end Column

/-- The statement that creates a table: the columns, then the links. -/
def Table.render (d : Dialect) (t : Table) : String :=
  let entries := t.columns.map (Column.render d) ++ t.columns.filterMap (Column.renderLink d)
  "CREATE TABLE IF NOT EXISTS " ++ d.quote t.name ++ " (\n" ++ ",\n".intercalate entries ++ "\n);\n"

end Sql

end EntitySchema
