import EntitySchema.Generation.Generator
import EntitySchema.Model.StructGraph
import EntitySchema.Sql.Statement

/-!
The generator of SQL. It asks every struct for the operations that store and load it, gives the
elements of arrays a key of the struct that holds the array, and emits the tables in the order of
their dependencies.
-/

namespace EntitySchema

namespace Sql

open Text Number

def generatorName : String := "sql"

def owner : Owner := .generator generatorName

/-- The library that the stored operations are written against. -/
def storeLibrary : String := "schemagen_store"

/-- The largest number of columns for which filtered queries are emitted. -/
def maxQueryColumns : Nat := 20

structure Options where
  dialect : Dialect := .sqlite
  filteredQueries : Bool := false
  deriving DecidableEq, Repr, Inhabited

/-- Whether an argument turns something on. -/
def isAffirmative (argument : String) : Bool :=
  ["true", "1", "yes"].contains argument

/-- Reads the arguments `dialect` and `powerset_queries`; an absent one changes nothing. -/
def Options.configure (o : Options) (arguments : String → Option String) :
    Except GeneratorError Options := do
  let dialect ←
    match arguments "dialect" with
    | none => .ok o.dialect
    | some text =>
      match Dialect.ofName? text with
      | some d => .ok d
      | none => .error (.invalidArgument generatorName "dialect"
          ("unknown dialect `" ++ text ++ "`, expected sqlite, postgres or mysql"))
  let filteredQueries :=
    match arguments "powerset_queries" with
    | none => o.filteredQueries
    | some text => isAffirmative text
  .ok { dialect, filteredQueries }

/-! ## What is injected -/

/-- The name of the column that the elements of an array get for the struct that holds it. -/
def holderKeyName (holder : String) : String := holder ++ "Id"

def holderKey (holder : String) : Member where
  owner := owner
  type := .scalar .int64
  name := holderKeyName holder
  reference := some ⟨holder, keyName⟩

/-- The operations that store and load a struct. -/
def storedOperations : List Operation :=
  [⟨owner, .insert, "insert", some "Insert a new row and assign its id."⟩,
   ⟨owner, .update, "update", some "Write every column of an existing row."⟩,
   ⟨owner, .delete, "delete", some "Delete the row with this id."⟩,
   ⟨owner, .load, "load_by_id", some "Load one row by id."⟩]

/-- Makes a struct one that can be stored. -/
def makeStored (s : Struct) : Struct :=
  ((storedOperations.foldl Struct.addOperation s).addHook ⟨owner, .beforeSetter, .update⟩)
    |>.addRequirement ⟨owner, storeLibrary⟩

/-- The names of what the arrays of a struct hold. -/
def elementNames (s : Struct) : List String :=
  s.members.filterMap (fun m => m.type.elementName?)

/-- Gives each element the key of its holder. What is no struct stays a list column. -/
def linkElements (holder : String) (model : Model) (elements : List String) : Model :=
  elements.foldl (fun model name => model.updateStruct name (·.addMember (holderKey holder))) model

def inject (model : Model) (name : String) : Except GeneratorError Model := do
  let model ← model.changeStruct generatorName name makeStored
  .ok (linkElements name model (((model.struct? name).map elementNames).getD []))

/-! ## What is emitted -/

def header : String := "-- Generated by schemagen. Do not edit.\n"

/-- A statement under its name. -/
def renderNamed (d : Dialect) (name : String) (s : Statement) : String :=
  "\n-- name: " ++ name ++ "\n" ++ s.render d ++ "\n"

/-- The statement of an operation, if it is one of this generator that has a statement. -/
def renderOperation (d : Dialect) (model : Model) (s : Struct) (f : Operation) : Option String :=
  if f.owner == owner then (statement? model s f.role).map (renderNamed d f.name) else none

/-- The file of a struct: what it requires, its table, and its statements. -/
def structFile (d : Dialect) (model : Model) (s : Struct) : String :=
  header ++ String.join (s.requirements.map (fun r => "-- requires: " ++ r.path ++ "\n")) ++ "\n" ++
    (Table.ofStruct model s).render d ++
    String.join (s.operations.filterMap (renderOperation d model s))

/-- The file of the filtered queries of a struct. -/
def queryFile (d : Dialect) (model : Model) (s : Struct) : Except GeneratorError String :=
  let count := (valueMembers model s).length
  if count > maxQueryColumns then
    .error (.failed generatorName ("`" ++ s.name ++ "` has " ++ decimal count ++
      " columns; filtered queries are limited to " ++ decimal maxQueryColumns))
  else
    .ok (header ++ String.join ((queries model s).map (fun q => renderNamed d q.label q.statement)))

/-- The files of a struct. -/
def structArtifacts (o : Options) (model : Model) (s : Struct) :
    Except GeneratorError (List Artifact) := do
  let own := Artifact.mk ⟨s.name ++ ".sql"⟩ (structFile o.dialect model s)
  if o.filteredQueries && !(valueMembers model s).isEmpty then
    let text ← queryFile o.dialect model s
    .ok [own, ⟨⟨s.name ++ "_queries.sql"⟩, text⟩]
  else .ok [own]

/-- The name of the file with all tables. -/
def schemaFile : Path := ⟨"schema.sql"⟩

/-- The structs of the model, each after those it depends on. -/
def orderedStructs (model : Model) : List Struct :=
  (StructGraph.ofModel model).ordered.filterMap model.struct?

/-- The tables of the model, each after those it depends on. -/
def tables (model : Model) : List Table :=
  (orderedStructs model).map (Table.ofStruct model)

/-- Tables in their order, under the name of the dialect. -/
def schemaText (d : Dialect) (tables : List Table) : String :=
  header ++ "-- dialect: " ++ d.name ++ "\n" ++
    String.join (tables.map (fun t => "\n" ++ t.render d))

def emit (o : Options) (model : Model) : Except GeneratorError (List Artifact) := do
  let files ← (orderedStructs model).mapM (structArtifacts o model)
  .ok (files.flatten ++ [⟨schemaFile, schemaText o.dialect (tables model)⟩])

def generator (o : Options) : Generator where
  name := generatorName
  inject := fun _ => inject
  emit := fun _ => emit o

end Sql

end EntitySchema
