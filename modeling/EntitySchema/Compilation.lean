import EntitySchema.Generation.Builtin
import EntitySchema.Generation.Engine
import EntitySchema.Schema.Reader
import EntitySchema.Schema.Rules

/-!
The whole way from a schema to a checked model, and from there to SQL.
-/

namespace EntitySchema

/-- Why a schema gives no output. -/
inductive CompileError where
  | read (e : ReadError)
  | rule (v : Violation)
  | compose (e : ComposeError)
  deriving Repr

namespace CompileError

def message : CompileError → String
  | read e => e.message
  | rule v => v.message
  | compose e => e.message

/-- The messages of what lies behind the failure, the nearest cause first. -/
def causes : CompileError → List String
  | read e => e.causes
  | rule _ => []
  | compose e => e.causes

end CompileError

/-- Checks a model that has been read. -/
def checked : Except ReadError Model → Except CompileError Model
  | .error e => .error (.read e)
  | .ok model =>
    match model.validate with
    | .error v => .error (.rule v)
    | .ok () => .ok model

/-- Reads and checks a schema, which may include files. -/
def compile (source : String) (files : FileSystem := {}) :
    Except CompileError Model :=
  checked (readModel source files)

/-- Reads and checks the schema files of a directory. -/
def compileDirectory (tree : FileTree) (directory : Path) (recursive : Bool) :
    Except CompileError Model :=
  checked (loadDirectory tree directory recursive)

/-- Composes a model with some generators and emits what they make of it. -/
def Engine.generate (engine : Engine) (model : Model) :
    Except ComposeError (List Engine.Emitted) :=
  match engine.compose model with
  | (_, .error e) => .error e
  | (model, .ok registry) => engine.emit model registry

/-- The tables of a schema: the file with all tables, among those emitted. -/
def schemaToSql (source : String) (dialect : Sql.Dialect) (files : FileSystem := {}) :
    Except CompileError String := do
  let model ← compile source files
  let result : Except ComposeError (List Engine.Emitted) := do
    let engine ← Engine.register {} (Sql.generator { dialect })
    engine.generate model
  match result with
  | .error e => .error (.compose e)
  | .ok emitted =>
    let file := emitted.find? (fun e => e.artifact.path.same Sql.schemaFile)
    .ok ((file.map (fun e => e.artifact.contents)).getD "")

/-- The tables of a schema in the dialect of this name, or a message. -/
def renderSql (source : String) (dialect : Option String)
    (files : FileSystem := {}) : Except String String := do
  let dialect ←
    match dialect with
    | none => .ok Sql.Dialect.sqlite
    | some name =>
      match Sql.Dialect.ofName? name with
      | some d => .ok d
      | none => .error ("unknown dialect `" ++ name ++ "`")
  (schemaToSql source dialect files).mapError CompileError.message

end EntitySchema
