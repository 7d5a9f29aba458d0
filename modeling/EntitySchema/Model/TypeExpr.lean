/-!
The types of members: scalars, names of structs and enums, and arrays of types.
-/

namespace EntitySchema

inductive Scalar where
  | int8 | int16 | int32 | int64
  | uint8 | uint16 | uint32 | uint64
  | float | double | bool | string | char
  deriving DecidableEq, Repr, Inhabited

namespace Scalar

def all : List Scalar :=
  [int8, int16, int32, int64, uint8, uint16, uint32, uint64, float, double, bool, string, char]

/-- The word that names the scalar in a schema. -/
def keyword : Scalar → String
  | int8 => "int8"
  | int16 => "int16"
  | int32 => "int32"
  | int64 => "int64"
  | uint8 => "uint8"
  | uint16 => "uint16"
  | uint32 => "uint32"
  | uint64 => "uint64"
  | float => "float"
  | double => "double"
  | bool => "bool"
  | string => "string"
  | char => "char"

/-- The scalar that a word names. -/
def ofKeyword? (word : String) : Option Scalar :=
  all.find? (fun s => s.keyword == word)

def isInteger : Scalar → Bool
  | float | double | bool | string | char => false
  | _ => true

/-- A scalar whose values are text. -/
def isTextual : Scalar → Bool
  | string | char => true
  | _ => false

end Scalar

/-- The type of a member. A struct or enum is given by its name. -/
inductive TypeExpr where
  | scalar (s : Scalar)
  | named (name : String)
  | array (element : TypeExpr)
  deriving DecidableEq, Repr, Inhabited

namespace TypeExpr

def isArray : TypeExpr → Bool
  | array _ => true
  | _ => false

def element? : TypeExpr → Option TypeExpr
  | array element => some element
  | _ => none

/-- The name, when the type is a name itself. -/
def named? : TypeExpr → Option String
  | named name => some name
  | _ => none

/-- The name at the bottom of the type, looking through arrays. -/
def innermostName? : TypeExpr → Option String
  | named name => some name
  | array element => element.innermostName?
  | scalar _ => none

/-- The name of the elements, when the type is an array of names. -/
def elementName? (t : TypeExpr) : Option String :=
  t.element?.bind named?

/-- A type whose values are text. -/
def isTextual : TypeExpr → Bool
  | scalar s => s.isTextual
  | _ => false

/-- The type as it is written in a schema. -/
def render : TypeExpr → String
  | scalar s => s.keyword
  | named name => name
  | array element => "array<" ++ element.render ++ ">"

end TypeExpr

end EntitySchema
