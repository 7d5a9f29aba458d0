import EntitySchema.Token

/-!
Why a list of tokens is not a schema. An error says what was expected where, or names the rule that
is broken; its wording is given once, in `SyntaxError.message`.
-/

namespace EntitySchema

/-- What may stand at a place. -/
inductive Expected where
  | word (text : String)
  | declaration
  | structName
  | enumName
  | memberName
  | fieldName
  | type
  | modifier
  | colonOrSemicolon
  | memberOrClose
  | valueOrClose
  | commaOrClose
  | integer
  | natural
  | descriptionText
  | defaultEnd
  | pathEnd
  | configEnd
  deriving DecidableEq, Repr

def Expected.text : Expected → String
  | word text => "`" ++ text ++ "`"
  | declaration => "`include`, `struct`, `enum` or `config`"
  | structName => "struct name"
  | enumName => "enum name"
  | memberName => "member name"
  | fieldName => "field name"
  | type => "type"
  | modifier => "modifier"
  | colonOrSemicolon => "`:` or `;`"
  | memberOrClose => "member variable or `\x7d`"
  | valueOrClose => "enum value or `\x7d`"
  | commaOrClose => "`,` or `\x7d`"
  | integer => "integer"
  | natural => "non-negative integer"
  | descriptionText => "description text"
  | defaultEnd => "`)` after default value"
  | pathEnd => "`;` after include path"
  | configEnd => "`\x7d` closing config block"

/-- A rule that tokens of the right form break. -/
inductive BrokenRule where
  | reservedName (name : String)
  | alreadyDeclared (name : String)
  | declaredTwice (name : String) (owner : String)
  | reservedKey
  | reservedUnknown
  | unknownType (name : String)
  | unknownModifier (name : String)
  | boundsWithoutArray (modifier : String)
  | referenceWithoutTarget
  | emptyDefault
  | emptyInclude
  | valueOverflow
  deriving DecidableEq, Repr

def BrokenRule.text : BrokenRule → String
  | reservedName name => "`" ++ name ++ "` is reserved and cannot name a struct or enum"
  | alreadyDeclared name => "`" ++ name ++ "` is already declared"
  | declaredTwice name owner => "`" ++ name ++ "` is declared twice in `" ++ owner ++ "`"
  | reservedKey => "`id` is reserved for the synthesized primary key"
  | reservedUnknown => "`Unknown` is reserved for the synthesized fallback value"
  | unknownType name => "unknown type `" ++ name ++ "`"
  | unknownModifier name => "unknown modifier `" ++ name ++ "`"
  | boundsWithoutArray modifier => "`" ++ modifier ++ "` only applies to array members"
  | referenceWithoutTarget => "`reference` without a target needs a struct-typed member"
  | emptyDefault => "`default` without a value"
  | emptyInclude => "include without a path"
  | valueOverflow => "implicit enum value overflows"

inductive SyntaxError where
  | unexpected (found : Token) (expected : Expected)
  | endOfInput (expected : Expected)
  | invalid (position : Position) (rule : BrokenRule)
  deriving DecidableEq, Repr

/-- The error as it is reported for a file. -/
def SyntaxError.message (file : String) : SyntaxError → String
  | unexpected found expected =>
    found.position.render ++ ": unexpected `" ++ found.shown ++ "`, expected " ++ expected.text
  | endOfInput expected => file ++ ": unexpected end of input, expected " ++ expected.text
  | invalid position rule => position.render ++ ": " ++ rule.text

end EntitySchema
