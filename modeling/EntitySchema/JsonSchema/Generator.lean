import EntitySchema.Generation.Generator
import EntitySchema.JsonSchema.Document

/-!
The generator of JSON Schema documents. Every struct is to be written as JSON and read from it.
-/

namespace EntitySchema

namespace JsonSchema

def generatorName : String := "json_schema"

def owner : Owner := .generator generatorName

/-- The operations that write a struct as JSON and read it. -/
def operations : List Operation :=
  [⟨owner, .toSerialized, "to_json", some "Serialize to a JSON document."⟩,
   ⟨owner, .fromSerialized, "from_json", some "Parse from a JSON document."⟩]

def capabilityName : String := "JsonSerializable"

def capability : Struct :=
  operations.foldl Struct.addOperation { name := capabilityName }

def inject (model : Model) (name : String) : Except GeneratorError Model :=
  model.changeStruct generatorName name (operations.foldl Struct.addOperation)

def Document.artifact (d : Document) : Artifact :=
  ⟨⟨fileName d.name⟩, d.render⟩

/-- The documents of all structs, then those of all enums. -/
def documents (model : Model) : List Document :=
  model.structs.map (Document.ofStruct model) ++ model.enums.map Document.ofEnum

def generator : Generator where
  name := generatorName
  capability := some capability
  inject := fun _ => inject
  emit := fun _ model => .ok ((documents model).map Document.artifact)

end JsonSchema

end EntitySchema
