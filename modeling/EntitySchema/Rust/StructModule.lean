import EntitySchema.Generation.Generator
import EntitySchema.Rust.Function

/-!
The module of a struct: its fields, an accessor pair for each of them, the operations that
generators ask for, and one implementation for every capability the struct has.
-/

namespace EntitySchema

namespace Rust

open Text

def header : String := "// Generated by schemagen. Do not edit.\n"

structure Field where
  name : String
  type : String
  description : Option String
  deriving DecidableEq, Repr, Inhabited

/-- The functions of a capability, for a struct. -/
structure Implementation where
  capability : String
  functions : List Function
  deriving DecidableEq, Repr, Inhabited

structure StructModule where
  name : String
  requirements : List String
  fields : List Field
  accessors : List Function
  operations : List Function
  implementations : List Implementation
  deriving DecidableEq, Repr, Inhabited

/-! ## Types -/

def scalarType : Scalar → String
  | .int8 => "i8"
  | .int16 => "i16"
  | .int32 => "i32"
  | .int64 => "i64"
  | .uint8 => "u8"
  | .uint16 => "u16"
  | .uint32 => "u32"
  | .uint64 => "u64"
  | .float => "f32"
  | .double => "f64"
  | .bool => "bool"
  | .string => "String"
  | .char => "char"

def typeName : TypeExpr → String
  | .scalar s => scalarType s
  | .named name => name
  | .array element => "Vec<" ++ typeName element ++ ">"

/-- The type of a member without regard to whether it may be absent. A member with a reference holds
the key of the struct. -/
def presentType (model : Model) (m : Member) : String :=
  match m.type with
  | .named name =>
    if model.hasStruct name then
      if m.reference.isSome then "i64" else "Box<" ++ name ++ ">"
    else name
  | type => typeName type

def fieldType (model : Model) (m : Member) : String :=
  if m.required || m.type.isArray then presentType model m
  else "Option<" ++ presentType model m ++ ">"

/-! ## Accessors -/

def setterName (m : Member) : String := "set_" ++ snakeCase m.name

/-- The name of the getter: that of the field, unless it is taken. -/
def getterName (taken : List String) (m : Member) : String :=
  let field := identifier m.name
  if taken.contains field then "get_" ++ snakeCase m.name else field

def getter (model : Model) (taken : List String) (hooks : HookCalls) (m : Member) : Function :=
  let field := identifier m.name
  let type := fieldType model m
  let (result, value) :=
    match hooks.store with
    | some store => (store ++ "::Result<&" ++ type ++ ">", "Ok(&self." ++ field ++ ")")
    | none => ("&" ++ type, "&self." ++ field)
  { name := getterName taken m
    parameters := if hooks.changing then "&mut self" else "&self"
    result := " -> " ++ result
    body := hooks.calls ++ [value] }

/-- The setter. Hooks see the struct as it will be, and it is kept only if none of them fails. -/
def setter (model : Model) (hooks : HookCalls) (m : Member) : Function :=
  let field := identifier m.name
  let change :=
    if hooks.calls.isEmpty then ["self." ++ field ++ " = value;"]
    else ["let mut next = self.clone();", "next." ++ field ++ " = value;"] ++ hooks.calls ++
      ["*self = next;"]
  { name := setterName m
    parameters := "&mut self, value: " ++ fieldType model m
    result :=
      match hooks.store with
      | some store => " -> " ++ store ++ "::Result<()>"
      | none => ""
    body := change ++ (if hooks.store.isSome then ["Ok(())"] else []) }

/-! ## The module of a struct -/

/-- The capabilities of a struct, as they are registered. -/
def capabilitiesOf (registry : Registry) (s : Struct) : List Capability :=
  s.capabilities.filterMap (fun c => registry.get? c.name)

/-- The names that a getter must not have. -/
def takenNames (registry : Registry) (s : Struct) : List String :=
  s.operations.map (fun f => identifier f.name) ++
    (capabilitiesOf registry s).flatMap
      (fun c => c.interface.operations.map (fun f => identifier f.name)) ++
    s.members.map setterName

/-- The names of the operations that capabilities provide. -/
def providedNames (registry : Registry) (s : Struct) : List String :=
  (capabilitiesOf registry s).flatMap (fun c => c.interface.operations.map Operation.name)

def StructModule.ofStruct (registry : Registry) (model : Model) (s : Struct) : StructModule :=
  let taken := takenNames registry s
  let beforeGetter := HookCalls.at s .beforeGetter "self"
  let beforeSetter := HookCalls.at s .beforeSetter "next"
  let provided := providedNames registry s
  { name := s.name
    requirements := s.requirements.map Requirement.path
    fields := s.members.map (fun m => ⟨identifier m.name, fieldType model m, m.description⟩)
    accessors := s.members.flatMap (fun m =>
      [getter model taken beforeGetter m, setter model beforeSetter m])
    operations := (s.operations.filter (fun f => !provided.contains f.name)).map
      (Function.ofOperation s)
    implementations := (capabilitiesOf registry s).map (fun c =>
      ⟨c.name, c.interface.operations.map (Function.ofOperation s)⟩) }

/-! ## Modules as text -/

def Field.render (f : Field) : String :=
  Function.renderDescription f.description ++ "    " ++ f.name ++ ": " ++ f.type ++ ",\n"

def Implementation.render (struct : String) (i : Implementation) : String :=
  "\nimpl " ++ i.capability ++ " for " ++ struct ++ " \x7b\n" ++
    "\n".intercalate (i.functions.map Function.renderImplementation) ++ "\x7d\n"

/-- What every emitted struct derives. -/
def derives : String :=
  "#[derive(Debug, Clone, Default, PartialEq, serde::Serialize, serde::Deserialize)]\n"

def renderUse (path : String) : String :=
  "#[allow(unused_imports)]\nuse " ++ path ++ ";\n"

def StructModule.render (s : StructModule) : String :=
  String.join [
    header, "\n",
    String.join (s.requirements.map renderUse),
    renderUse "super::*", "\n",
    derives,
    "pub struct " ++ s.name ++ " \x7b\n",
    String.join (s.fields.map Field.render),
    "\x7d\n\n",
    "impl " ++ s.name ++ " \x7b\n",
    "\n".intercalate (s.accessors.map Function.renderPublic),
    String.join (s.operations.map (fun f => "\n" ++ f.renderPublic)),
    "\x7d\n",
    String.join (s.implementations.map (Implementation.render s.name))]

end Rust

end EntitySchema
