import EntitySchema.Json.Reader
import EntitySchema.Json.Writer
import EntitySchema.Model

/-!
JSON Schema documents for the structs and enums of a model. A document describes what the schema
declares; members that generators add are a matter of storage and do not appear.
-/

namespace EntitySchema

namespace JsonSchema

/-- The schema of a type. -/
inductive TypeSchema where
  | integer (minimum maximum : Option Int)
  | number
  | boolean
  | text
  | character
  /-- What another document describes. -/
  | document (file : String)
  | array (items : TypeSchema)
  deriving DecidableEq, Repr, Inhabited

/-- The schema of a member. -/
structure PropertySchema where
  type : TypeSchema
  description : Option String := none
  initial : Option JsonValue := none
  minItems : Option Nat := none
  maxItems : Option Nat := none
  uniqueItems : Bool := false
  readOnly : Bool := false
  deriving Repr, Inhabited

inductive Body where
  | struct (properties : List (String × PropertySchema)) (required : List String)
  /-- The value is one of these names. -/
  | names (values : List String)
  deriving Repr, Inhabited

structure Document where
  name : String
  body : Body
  deriving Repr, Inhabited

/-- The file of the document of a struct or enum. -/
def fileName (entity : String) : String := entity ++ ".schema.json"

/-! ## From the model -/

def scalarSchema : Scalar → TypeSchema
  | .int8 => .integer (some (-128)) (some 127)
  | .int16 => .integer (some (-32768)) (some 32767)
  | .int32 => .integer (some (-2147483648)) (some 2147483647)
  | .int64 => .integer none none
  | .uint8 => .integer (some 0) (some 255)
  | .uint16 => .integer (some 0) (some 65535)
  | .uint32 => .integer (some 0) (some 4294967295)
  | .uint64 => .integer (some 0) none
  | .float | .double => .number
  | .bool => .boolean
  | .string => .text
  | .char => .character

def typeSchema : TypeExpr → TypeSchema
  | .scalar s => scalarSchema s
  | .named name => .document (fileName name)
  | .array element => .array (typeSchema element)

/-- The member is stored as the key of a struct and not as the struct itself. -/
def isByKey (model : Model) (m : Member) : Bool :=
  m.reference.isSome && (m.type.named?.any model.hasStruct)

/-- The default of a member. Text and names stand for themselves; anything else is read as JSON, and
stands for itself if it is none. -/
def initialValue (type : TypeExpr) (text : String) : JsonValue :=
  if type.isTextual || type.named?.isSome then .string text
  else (JsonValue.read? text).getD (.string text)

def PropertySchema.ofMember (model : Model) (m : Member) : PropertySchema where
  type := if isByKey model m then .integer none none else typeSchema m.type
  description := m.description
  initial := m.defaultValue.map (initialValue m.type)
  minItems := m.minItems
  maxItems := m.maxItems
  uniqueItems := m.unique && m.type.isArray
  readOnly := m.primaryKey

/-- The members that the schema declares. -/
def declaredMembers (s : Struct) : List Member :=
  s.members.filter (fun m => m.owner.isSchema)

def Document.ofStruct (model : Model) (s : Struct) : Document where
  name := s.name
  body := .struct
    ((declaredMembers s).map (fun m => (m.name, PropertySchema.ofMember model m)))
    (((declaredMembers s).filter (fun m => m.required)).map Member.name)

/-- An enum is written by name, and the unknown value is a name like any other. -/
def Document.ofEnum (e : Enumeration) : Document :=
  ⟨e.name, .names (e.values.map EnumValue.name)⟩

/-! ## Documents as JSON -/

def field? (key : String) : Option JsonValue → List (String × JsonValue)
  | some v => [(key, v)]
  | none => []

def flag (key : String) (b : Bool) : List (String × JsonValue) :=
  if b then [(key, .bool true)] else []

/-- The fields of a type, in ascending order. -/
def TypeSchema.fields : TypeSchema → List (String × JsonValue)
  | integer minimum maximum =>
    field? "maximum" (maximum.map .integer) ++ field? "minimum" (minimum.map .integer) ++
      [("type", .string "integer")]
  | number => [("type", .string "number")]
  | boolean => [("type", .string "boolean")]
  | text => [("type", .string "string")]
  | character => [("maxLength", .integer 1), ("minLength", .integer 1), ("type", .string "string")]
  | document file => [("$ref", .string file)]
  | array items => [("items", .object items.fields), ("type", .string "array")]

def PropertySchema.toJson (p : PropertySchema) : JsonValue :=
  .object (JsonValue.sortFields (
    p.type.fields ++
    field? "description" (p.description.map .string) ++
    field? "default" p.initial ++
    field? "minItems" (p.minItems.map (fun n => .integer n)) ++
    field? "maxItems" (p.maxItems.map (fun n => .integer n)) ++
    flag "uniqueItems" p.uniqueItems ++
    flag "readOnly" p.readOnly))

def Body.fields : Body → List (String × JsonValue)
  | struct properties required =>
    [("additionalProperties", .bool false),
     ("properties", .object (JsonValue.sortFields
       (properties.map (fun (name, p) => (name, p.toJson)))))] ++
    (if required.isEmpty then [] else [("required", .array (required.map .string))]) ++
    [("type", .string "object")]
  | names values => [("enum", .array (values.map .string)), ("type", .string "string")]

/-- The dialect of JSON Schema that the documents are written in. -/
def dialect : String := "https://json-schema.org/draft/2020-12/schema"

namespace Document

def toJson (d : Document) : JsonValue :=
  .object (("$schema", .string dialect) :: ("$id", .string (fileName d.name)) ::
    ("title", .string d.name) :: d.body.fields)

def render (d : Document) : String := d.toJson.render ++ "\n"

end Document

end JsonSchema

end EntitySchema
