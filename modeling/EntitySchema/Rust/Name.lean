import EntitySchema.Text.SnakeCase

/-!
Names in emitted Rust code: of functions, fields and modules.
-/

namespace EntitySchema

namespace Rust

open Text

def keywords : List String :=
  ["abstract", "as", "async", "await", "become", "box", "break", "const", "continue", "do",
   "dyn", "else", "enum", "extern", "false", "final", "fn", "for", "gen", "if", "impl", "in",
   "let", "loop", "macro", "match", "mod", "move", "mut", "override", "priv", "pub", "ref",
   "return", "static", "struct", "trait", "true", "try", "type", "typeof", "unsafe",
   "unsized", "use", "virtual", "where", "while", "yield"]

/-- The keywords that cannot be written as raw names. -/
def pathKeywords : List String := ["self", "super", "crate"]

/-- The name in words with underscores between them. A keyword is written as a raw name, or with an
underscore after it where there is no raw name. -/
def identifier (name : String) : String :=
  let snake := snakeCase name
  if pathKeywords.contains snake then snake ++ "_"
  else if keywords.contains snake then "r#" ++ snake
  else snake

/-- A name without the mark of raw names. -/
def withoutRawMark : List Char → List Char
  | 'r' :: '#' :: rest => withoutRawMark rest
  | cs => cs

/-- The file of the module of an entity. -/
def fileName (entity : String) : String :=
  String.ofList (withoutRawMark (identifier entity).toList) ++ ".rs"

end Rust

end EntitySchema
