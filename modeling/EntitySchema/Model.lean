import EntitySchema.Model.Struct
import EntitySchema.Model.Enumeration

/-!
The model of a schema: its structs and enums in the order of their declarations, and the names that
are announced and not yet declared.
-/

namespace EntitySchema

inductive EntityKind where
  | struct
  | enumeration
  deriving DecidableEq, Repr

structure Model where
  structs : List Struct := []
  enums : List Enumeration := []
  /-- Names that some file announces and none has declared so far, in ascending order. -/
  pending : List String := []
  deriving DecidableEq, Repr, Inhabited

namespace Model

def struct? (model : Model) (name : String) : Option Struct :=
  model.structs.find? (fun s => s.name == name)

def enum? (model : Model) (name : String) : Option Enumeration :=
  model.enums.find? (fun e => e.name == name)

def hasStruct (model : Model) (name : String) : Bool :=
  model.structs.any (fun s => s.name == name)

def hasEnum (model : Model) (name : String) : Bool :=
  model.enums.any (fun e => e.name == name)

/-- What a name stands for. A struct hides an enum of the same name. -/
def kind? (model : Model) (name : String) : Option EntityKind :=
  if model.hasStruct name then some .struct
  else if model.hasEnum name then some .enumeration
  else none

def isDeclared (model : Model) (name : String) : Bool :=
  model.hasStruct name || model.hasEnum name

/-- A member may have this name as its type while files are being read. -/
def isTypeName (model : Model) (name : String) : Bool :=
  model.isDeclared name || model.pending.contains name

def structNames (model : Model) : List String :=
  model.structs.map Struct.name

/-- Changes the first struct of this name. -/
def updateStruct (model : Model) (name : String) (change : Struct → Struct) : Model :=
  { model with structs := go model.structs }
where
  go : List Struct → List Struct
    | [] => []
    | s :: rest => if s.name == name then change s :: rest else s :: go rest

/-- Inserts a name into an ascending list that has no name twice. -/
def insertName (name : String) : List String → List String
  | [] => [name]
  | x :: rest =>
    if name = x then x :: rest
    else if name < x then name :: x :: rest
    else x :: insertName name rest

/-- Announces a name, unless it is declared. -/
def announce (model : Model) (name : String) : Model :=
  if model.isDeclared name then model
  else { model with pending := insertName name model.pending }

/-- Appends a struct; its name is not pending any more. -/
def declareStruct (model : Model) (s : Struct) : Model :=
  { model with
    structs := model.structs ++ [s]
    pending := model.pending.filter (· != s.name) }

/-- Appends an enum; its name is not pending any more. -/
def declareEnum (model : Model) (e : Enumeration) : Model :=
  { model with
    enums := model.enums ++ [e]
    pending := model.pending.filter (· != e.name) }

end Model

end EntitySchema
