import EntitySchema.Model
import EntitySchema.Number.Decimal
import EntitySchema.Text.Blank
import EntitySchema.Text.Columns
import EntitySchema.Text.DisplayWidth

/-!
Models as schema text. Only what the schema declares is written: the keys and values that entities
get by themselves, and what generators add, are left out, so that reading the text gives the same
declarations again.
-/

namespace EntitySchema

namespace Printer

/-- How schema text is laid out. -/
def layout : Text.Layout where
  indent := 4
  gap := 1
  width := Text.displayWidth

/-- A text in double quotes, with a backslash before quotes and backslashes. -/
def quote (text : String) : String :=
  "\"" ++ String.ofList (text.toList.flatMap escape) ++ "\""
where
  escape (c : Char) : List Char := if c = '"' ∨ c = '\\' then ['\\', c] else [c]

/-- Whether a text would not be read as itself without quotes. -/
def needsQuotes (text : String) : Bool :=
  text.toList.isEmpty || ['/', '/'].isPrefixOf text.toList ||
    text.toList.any (fun c => Text.isBlank c || c == '"' || c == '\\' || Token.isPunctuationChar c)

/-- A default value as it stands between its parentheses. -/
def defaultText (type : TypeExpr) (value : String) : String :=
  if type.isTextual || needsQuotes value then quote value else value

/-- A modifier that is written or not. -/
def flag (on : Bool) (text : String) : String :=
  if on then ": " ++ text else ""

/-- A modifier with an argument. -/
def argument (name : String) : Option String → String
  | some text => ": " ++ name ++ "(" ++ text ++ ")"
  | none => ""

/-- The name of a member and its modifiers, up to the semicolon. -/
def memberTail (m : Member) : String :=
  m.name ++
    flag m.required "required" ++
    flag m.unique "unique" ++
    flag m.autoIncrement "auto_increment" ++
    flag m.primaryKey "primary_key" ++
    argument "reference" (m.reference.map Reference.render) ++
    argument "min_items" (m.minItems.map Number.decimal) ++
    argument "max_items" (m.maxItems.map Number.decimal) ++
    argument "default" (m.defaultValue.map (defaultText m.type)) ++
    argument "description" (m.description.map quote) ++
    ";"

/-- A block with one line for each row, in columns. -/
def block (layout : Text.Layout) (head : String) (rows : List (List String)) : String :=
  let widths := layout.columnWidths rows
  let lines := rows.map (fun row => layout.line row widths ++ "\n")
  head ++ " \x7b\n" ++ String.join lines ++ "\x7d\n"

def enumeration (layout : Text.Layout) (e : Enumeration) : String :=
  block layout ("enum " ++ e.name)
    (e.declaredValues.map (fun v => [v.name, "= " ++ Number.signedDecimal v.value ++ ","]))

/-- The members that a schema writes. -/
def written (s : Struct) : List Member :=
  s.members.filter (fun m => m.owner.isSchema && !m.isOwnKey)

def struct (layout : Text.Layout) (s : Struct) : String :=
  block layout ("struct " ++ s.name)
    ((written s).map (fun m => [m.type.render ++ ":", memberTail m]))

end Printer

/-- The model as schema text: the enums, then the structs, with an empty line between two. -/
def Model.renderWith (layout : Text.Layout) (model : Model) : String :=
  "\n".intercalate
    (model.enums.map (Printer.enumeration layout) ++ model.structs.map (Printer.struct layout))

def Model.render (model : Model) : String :=
  model.renderWith Printer.layout

end EntitySchema
