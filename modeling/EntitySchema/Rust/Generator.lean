import EntitySchema.Rust.EnumModule

/-!
The generator of Rust code: a module for every capability, enum and struct, and one module that
exports them all.
-/

namespace EntitySchema

namespace Rust

def generatorName : String := "rust"

/-- Whether an operation is called on the type and not on a value of it. -/
def isConstructor : Role → Bool
  | .fromSerialized | .load => true
  | _ => false

/-- An operation as a capability asks for it. -/
def renderRequired (interface : Struct) (f : Operation) : String :=
  Function.renderDescription f.description ++ "    " ++
    (Function.ofOperation interface f).signature ++
    (if isConstructor f.role then "\n    where\n        Self: Sized" else "") ++ ";\n"

/-- The module of a capability. -/
def capabilityModule (c : Capability) : String :=
  String.join [
    header,
    "\nuse super::*;\n\n",
    "/// Implemented by every struct for the `" ++ c.owner ++ "` generator.\n",
    "pub trait " ++ c.name ++ " \x7b\n",
    String.join (c.interface.operations.map (renderRequired c.interface)),
    "\x7d\n"]

/-- The module that exports all others. -/
def rootModule (registry : Registry) (model : Model) : String :=
  let names := registry.capabilities.map Capability.name ++
    model.enums.map Enumeration.name ++ model.structs.map Struct.name
  String.join [
    header, "\n",
    String.join (names.map (fun name => "pub mod " ++ identifier name ++ ";\n")),
    "\n",
    String.join (names.map (fun name => "pub use " ++ identifier name ++ "::" ++ name ++ ";\n"))]

def artifact (entity contents : String) : Artifact :=
  ⟨⟨fileName entity⟩, contents⟩

def emit (registry : Registry) (model : Model) : List Artifact :=
  model.enums.map (fun e => artifact e.name (EnumModule.ofEnum e).render) ++
  model.structs.map (fun s => artifact s.name (StructModule.ofStruct registry model s).render) ++
  [⟨⟨"mod.rs"⟩, rootModule registry model⟩]

/-- The generator adds nothing to a struct, but the struct has to be there. -/
def inject (model : Model) (name : String) : Except GeneratorError Model :=
  model.changeStruct generatorName name id

def generator : Generator where
  name := generatorName
  hasInterfaces := true
  inject := fun _ => inject
  emitCapability := fun _ c => .ok (some (artifact c.name (capabilityModule c)))
  emit := fun cx model => .ok (emit cx.registry model)

end Rust

end EntitySchema
