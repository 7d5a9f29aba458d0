import EntitySchema.Model.TypeExpr
import EntitySchema.Token

/-!
The members of structs, and who contributed them.
-/

namespace EntitySchema

/-- Who contributed a part of a struct: the schema itself, or a generator. -/
inductive Owner where
  | schema
  | generator (name : String)
  deriving DecidableEq, Repr, Inhabited

namespace Owner

def isSchema : Owner → Bool
  | schema => true
  | generator _ => false

/-- The owner as it stands in listings. -/
def name : Owner → String
  | schema => "schema"
  | generator name => name

end Owner

/-- A link to a field of a struct, by name. -/
structure Reference where
  struct : String
  field : String
  deriving DecidableEq, Repr, Inhabited

/-- The link as it is written in a schema. -/
def Reference.render (r : Reference) : String :=
  r.struct ++ "." ++ r.field

/-- The name of the key that every struct has. -/
def keyName : String := "id"

/-- A member of a struct. The bounds on the number of items have a meaning for arrays only. -/
structure Member where
  owner : Owner
  type : TypeExpr
  name : String
  required : Bool := false
  autoIncrement : Bool := false
  primaryKey : Bool := false
  unique : Bool := false
  reference : Option Reference := none
  description : Option String := none
  defaultValue : Option String := none
  minItems : Option Nat := none
  maxItems : Option Nat := none
  position : Option Position := none
  deriving DecidableEq, Repr, Inhabited

namespace Member

/-- The key that every struct gets when it is closed. -/
def key : Member where
  owner := .schema
  type := .scalar .int64
  name := keyName
  required := true
  autoIncrement := true
  primaryKey := true
  unique := true

/-- The member is the key that structs get by themselves. -/
def isOwnKey (m : Member) : Bool :=
  m.primaryKey && m.owner.isSchema && m.name == keyName

end Member

end EntitySchema
