import EntitySchema.Model.Struct
import EntitySchema.Rust.Name

/-!
The functions of emitted structs: the bodies of the operations that generators ask for, and the
calls that hooks make.
-/

namespace EntitySchema

namespace Rust

/-- A function with its body, line by line. -/
structure Function where
  name : String
  parameters : String
  /-- What follows the parameters: an arrow and the result, or nothing. -/
  result : String
  body : List String
  description : Option String := none
  deriving DecidableEq, Repr, Inhabited

namespace Function

def signature (f : Function) : String :=
  "fn " ++ f.name ++ "(" ++ f.parameters ++ ")" ++ f.result

/-- A comment line in front of a part of a struct. -/
def renderDescription : Option String → String
  | some text => "    /// " ++ text ++ "\n"
  | none => ""

def renderBody (f : Function) : String :=
  " \x7b\n" ++ String.join (f.body.map (fun line => "        " ++ line ++ "\n")) ++ "    \x7d\n"

/-- The function as a part of a struct. -/
def renderPublic (f : Function) : String :=
  renderDescription f.description ++ "    pub " ++ f.signature ++ f.renderBody

/-- The function as a part of a capability that a struct implements. -/
def renderImplementation (f : Function) : String :=
  "    " ++ f.signature ++ f.renderBody

end Function

/-- What stored operations call when their owner requires no library. -/
def fallbackStore : String := "crate::store"

/-- The library that the owner of an operation requires. -/
def storeOf (s : Struct) (owner : Owner) : String :=
  match s.requirements.find? (fun r => r.owner == owner) with
  | some r => r.path
  | none => fallbackStore

/-- The function for an operation of a struct. -/
def Function.ofOperation (s : Struct) (f : Operation) : Function :=
  let store := storeOf s f.owner
  let key := identifier keyName
  let make := fun parameters result body =>
    Function.mk (identifier f.name) parameters (" -> " ++ result) body f.description
  match f.role with
  | .toSerialized =>
    make "&self" "String" ["serde_json::to_string(self).unwrap_or_default()"]
  | .fromSerialized =>
    make "text: &str" "Result<Self, String>"
      ["serde_json::from_str(text).map_err(|e| e.to_string())"]
  | .insert =>
    make "&mut self" (store ++ "::Result<()>")
      ["self." ++ key ++ " = " ++ store ++ "::insert(self)?;", "Ok(())"]
  | .update =>
    make "&self" (store ++ "::Result<()>") [store ++ "::update(self." ++ key ++ ", self)"]
  | .delete =>
    make "&self" (store ++ "::Result<()>") [store ++ "::delete::<Self>(self." ++ key ++ ")"]
  | .load =>
    make "id: i64" (store ++ "::Result<Self>") [store ++ "::load_by_id(id)"]

/-! ## Hooks -/

/-- The call that a hook makes on `receiver`, and the library whose error it may end with. A hook
whose owner has no such operation makes no call. -/
def hookCall? (s : Struct) (receiver : String) (hook : Hook) : Option (String × Option String) := do
  let f ← s.operations.find? (fun f => f.role == hook.action && f.owner == hook.owner)
  let name := identifier f.name
  let store := storeOf s f.owner
  match f.role with
  | .toSerialized => some ("let _ = " ++ receiver ++ "." ++ name ++ "();", none)
  | .fromSerialized => none
  | .insert | .update | .delete => some (receiver ++ "." ++ name ++ "()?;", some store)
  | .load =>
    some ("Self::" ++ name ++ "(" ++ receiver ++ "." ++ identifier keyName ++ ")?;", some store)

/-- What the hooks at one point do to an accessor. -/
structure HookCalls where
  calls : List String
  /-- The library whose error the accessor may end with. -/
  store : Option String
  /-- A call changes the struct. -/
  changing : Bool
  deriving DecidableEq, Repr, Inhabited

def HookCalls.at (s : Struct) (point : HookPoint) (receiver : String) : HookCalls :=
  let made := (s.hooksAt point).filterMap (fun hook =>
    (hookCall? s receiver hook).map (fun (call, store) => (hook, call, store)))
  { calls := made.map (fun (_, call, _) => call)
    store := made.findSome? (fun (_, _, store) => store)
    changing := made.any (fun (hook, _, _) => hook.action == .insert) }

end Rust

end EntitySchema
