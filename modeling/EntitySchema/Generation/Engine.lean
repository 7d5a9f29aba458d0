import EntitySchema.Files.FileTree
import EntitySchema.Generation.Generator

/-!
Generators at work together. First every capability is attached to every struct, and the other
generators add what it takes. Then each generator injects into each struct, in the order of
registration, so that a later one sees what the earlier ones added. Artifacts are emitted only from
the model that all have finished, and each generator has an output directory of its own.
-/

namespace EntitySchema

inductive ComposeError where
  | duplicateGenerator (name : String)
  | invalidGeneratorName (name : String)
  | generator (e : GeneratorError)
  | outsidePath (owner : String) (path : Path)
  | unwritable (path : Path) (cause : FileError)
  deriving DecidableEq, Repr

namespace ComposeError

def message : ComposeError → String
  | duplicateGenerator name => "generator `" ++ name ++ "` is registered twice"
  | invalidGeneratorName name => "generator name `" ++ name ++ "` is not a plain directory name"
  | generator e => e.message
  | outsidePath owner path =>
    owner ++ ": artifact path " ++ path.text ++ " leaves the output directory"
  | unwritable path cause => "failed to write " ++ path.text ++ ": " ++ cause.message

/-- The messages of what lies behind the failure, the nearest cause first. -/
def causes : ComposeError → List String
  | unwritable _ cause => [cause.message]
  | _ => []

end ComposeError

/-- Does one step after the other, up to the first that fails. The state is then the one before the
failing step. -/
def stepThrough {σ α ε : Type} (step : σ → α → Except ε σ) : σ → List α → σ × Except ε Unit
  | s, [] => (s, .ok ())
  | s, a :: rest =>
    match step s a with
    | .ok s => stepThrough step s rest
    | .error e => (s, .error e)

/-- The generators that work together, in the order of registration. -/
structure Engine where
  generators : List Generator := []

namespace Engine

def names (engine : Engine) : List String :=
  engine.generators.map Generator.name

/-- One path component that is a name. -/
def isPlainName (name : String) : Bool :=
  match (Path.mk name).components with
  | [.name _] => true
  | _ => false

/-- Adds a generator. Its name becomes an output directory, so it has to be a plain name, and one
that no other generator has. -/
def register (engine : Engine) (g : Generator) : Except ComposeError Engine :=
  if !isPlainName g.name then .error (.invalidGeneratorName g.name)
  else if engine.names.contains g.name then .error (.duplicateGenerator g.name)
  else .ok { generators := engine.generators ++ [g] }

/-! ## Composition -/

/-- The capability of a generator. One without operations asks for nothing and does not count. -/
def declared? (g : Generator) : Option Capability :=
  match g.capability with
  | some interface => if interface.operations.isEmpty then none else some ⟨g.name, interface⟩
  | none => none

/-- The capabilities of all generators. Of two with one name the first counts. -/
def registry (engine : Engine) : Registry :=
  (engine.generators.filterMap declared?).foldl Registry.insert {}

def context (engine : Engine) (registry : Registry) : Context :=
  ⟨registry, engine.names⟩

/-- Marks a struct with a capability and lets the other generators add to it. -/
def attachTo (engine : Engine) (c : Capability) (s : Struct) :
    Struct × Except GeneratorError Unit :=
  stepThrough (fun s g => if g.name == c.owner then .ok s else g.addContent c s)
    (s.implement c.mark) engine.generators

/-- Attaches a capability to one struct after the other. -/
def attachToAll (engine : Engine) (c : Capability) :
    List Struct → List Struct × Except GeneratorError Unit
  | [] => ([], .ok ())
  | s :: rest =>
    match engine.attachTo c s with
    | (s, .error e) => (s :: rest, .error e)
    | (s, .ok ()) =>
      let (rest, result) := engine.attachToAll c rest
      (s :: rest, result)

/-- Attaches one capability after the other. -/
def attachEach (engine : Engine) :
    List Struct → List Capability → List Struct × Except GeneratorError Unit
  | structs, [] => (structs, .ok ())
  | structs, c :: rest =>
    match engine.attachToAll c structs with
    | (structs, .error e) => (structs, .error e)
    | (structs, .ok ()) => engine.attachEach structs rest

/-- Lets every generator inject into every struct. -/
def injectAll (engine : Engine) (registry : Registry) (model : Model) :
    Model × Except GeneratorError Unit :=
  let work := engine.generators.flatMap (fun g => model.structNames.map (fun name => (g, name)))
  stepThrough (fun model (g, name) => g.inject (engine.context registry) model name) model work

/-- Composes the model: capabilities first, then injections. A failure leaves in the model what was
added before it. -/
def compose (engine : Engine) (model : Model) : Model × Except ComposeError Registry :=
  let registry := engine.registry
  match engine.attachEach model.structs registry.capabilities with
  | (structs, .error e) => ({ model with structs }, .error (.generator e))
  | (structs, .ok ()) =>
    match engine.injectAll registry { model with structs } with
    | (model, .error e) => (model, .error (.generator e))
    | (model, .ok ()) => (model, .ok registry)

/-! ## Emission -/

/-- An artifact and the generator that made it. -/
structure Emitted where
  generator : String
  artifact : Artifact
  deriving DecidableEq, Repr, Inhabited

/-- The artifacts of one generator: those of the capabilities, then its own. -/
def artifactsOf (cx : Context) (model : Model) (g : Generator) :
    Except GeneratorError (List Artifact) := do
  let headers ←
    if g.hasInterfaces then cx.registry.capabilities.mapM (g.emitCapability cx) else .ok []
  let own ← g.emit cx model
  .ok (headers.filterMap id ++ own)

/-- The artifacts of all generators, in the order of registration. -/
def emit (engine : Engine) (model : Model) (registry : Registry) :
    Except ComposeError (List Emitted) :=
  let cx := engine.context registry
  let all := engine.generators.mapM (fun g => do
    let artifacts ← artifactsOf cx model g
    .ok (artifacts.map (fun a => Emitted.mk g.name a)))
  match all with
  | .ok parts => .ok parts.flatten
  | .error e => .error (.generator e)

/-! ## Writing -/

/-- A path that stays below the directory it is joined to: names only, and at least one. -/
def isContained (p : Path) : Bool :=
  p.text != "" && p.components.all (fun c =>
    match c with
    | .name _ => true
    | _ => false)

/-- Writes one artifact below the directory of its generator. -/
def writeOne (tree : FileTree) (root : Path) (e : Emitted) :
    FileTree × Except ComposeError Path :=
  if !isContained e.artifact.path then
    (tree, .error (.outsidePath e.generator e.artifact.path))
  else
    let path := (root.join ⟨e.generator⟩).join e.artifact.path
    let parent := path.parent?.getD ⟨""⟩
    match tree.makeDirectories parent with
    | (tree, .error cause) => (tree, .error (.unwritable parent cause))
    | (tree, .ok ()) =>
      match tree.write path e.artifact.contents with
      | .error cause => (tree, .error (.unwritable path cause))
      | .ok tree => (tree, .ok path)

/-- Writes artifacts and returns the paths of the files. Files written before a failure stay. -/
def write (tree : FileTree) (root : Path) :
    List Emitted → FileTree × Except ComposeError (List Path)
  | [] => (tree, .ok [])
  | e :: rest =>
    match writeOne tree root e with
    | (tree, .error e) => (tree, .error e)
    | (tree, .ok path) =>
      let (tree, result) := write tree root rest
      (tree, result.map (path :: ·))

end Engine

end EntitySchema
