import EntitySchema.Files.Path
import EntitySchema.Model

/-!
What a generator is. A generator may declare a capability, an interface that every struct is to
have; it may contribute to the structs of the model; and it emits artifacts from the finished model.
All of this is plain functions, so that generators are values like any other.
-/

namespace EntitySchema

/-- A file that a generator wants written, below its own output directory. -/
structure Artifact where
  path : Path
  contents : String
  deriving DecidableEq, Repr, Inhabited

inductive GeneratorError where
  | invalidArgument (generator argument reason : String)
  | missingStruct (generator name : String)
  | failed (generator reason : String)
  deriving DecidableEq, Repr

def GeneratorError.message : GeneratorError → String
  | invalidArgument generator argument reason =>
    generator ++ ": invalid argument `" ++ argument ++ "`: " ++ reason
  | missingStruct generator name =>
    generator ++ ": struct `" ++ name ++ "` is not in the model"
  | failed generator reason => generator ++ ": " ++ reason

/-- A capability and the generator that declares it. The name of the interface names the
capability, and its operations are what every struct is to provide. -/
structure Capability where
  owner : String
  interface : Struct
  deriving DecidableEq, Repr, Inhabited

namespace Capability

def name (c : Capability) : String := c.interface.name

def mark (c : Capability) : CapabilityMark := ⟨c.owner, c.name⟩

end Capability

/-- The capabilities of all generators, no two of one name. -/
structure Registry where
  capabilities : List Capability := []
  deriving DecidableEq, Repr, Inhabited

namespace Registry

def get? (r : Registry) (name : String) : Option Capability :=
  r.capabilities.find? (fun c => c.name == name)

def ownedBy? (r : Registry) (generator : String) : Option Capability :=
  r.capabilities.find? (fun c => c.owner == generator)

/-- Appends a capability, unless one of the same name is there. -/
def insert (r : Registry) (c : Capability) : Registry :=
  if (r.get? c.name).isSome then r else { capabilities := r.capabilities ++ [c] }

end Registry

/-- What a generator sees of the others: their capabilities, and their names in the order of
registration. -/
structure Context where
  registry : Registry
  peers : List String
  deriving DecidableEq, Repr, Inhabited

structure Generator where
  /-- The name stands in messages and names the output directory. -/
  name : String
  /-- The interface that every struct is to have for this generator. -/
  capability : Option Struct := none
  /-- Whether the output has interfaces, so that capabilities get a file of their own. -/
  hasInterfaces : Bool := false
  /-- What is added to a struct for the capability of another generator. -/
  addContent : Capability → Struct → Except GeneratorError Struct := fun _ s => .ok s
  /-- What is added to the model for the struct of this name. Adding it twice changes nothing. -/
  inject : Context → Model → String → Except GeneratorError Model
  /-- The file of one capability. -/
  emitCapability : Context → Capability → Except GeneratorError (Option Artifact) :=
    fun _ _ => .ok none
  /-- The files of the finished model. -/
  emit : Context → Model → Except GeneratorError (List Artifact)

/-- Changes the first struct of this name; a generator that finds none fails. -/
def Model.changeStruct (model : Model) (generator name : String) (change : Struct → Struct) :
    Except GeneratorError Model :=
  if model.hasStruct name then .ok (model.updateStruct name change)
  else .error (.missingStruct generator name)

end EntitySchema
