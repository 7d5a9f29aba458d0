import EntitySchema.CommandLine.Arguments
import EntitySchema.Compilation
import EntitySchema.Text.Blank

/-!
A run of the program as a function of its arguments, the environment and the files. A run may end in
a question to the user, whose answer decides how it goes on.
-/

namespace EntitySchema

namespace CommandLine

open Text Number

/-- What a run leaves: its exit code, what it printed, and the files. -/
structure Outcome where
  code : Nat := 0
  output : String := ""
  errors : String := ""
  tree : FileTree
  deriving Repr, Inhabited

/-- A run that has ended, or one that has printed a question and waits for a line of input. -/
inductive Interaction where
  | finished (o : Outcome)
  | question (printed : String) (answer : String → Outcome)

/-- What a run is given. -/
structure Invocation where
  /-- The arguments after the name of the program. -/
  arguments : List String := []
  environment : Environment := []
  tree : FileTree := {}
  deriving Repr, Inhabited

/-! ## Failures -/

/-- A failure and the causes behind it, the outermost first. -/
abbrev Failure := List String

def failed (tree : FileTree) (output : String) (f : Failure) : Outcome :=
  { code := 1, output, errors := "error: " ++ ": ".intercalate f ++ "\n", tree }

def settingsFailure (e : SettingsError) : Failure := [e.message]

def composeFailure (e : ComposeError) : Failure := e.message :: e.causes

def readingFailure (directory : Path) (e : CompileError) : Failure :=
  ("reading " ++ directory.text) :: e.message :: e.causes

/-- No plugin can be opened. -/
def pluginFailure (p : Path) : Failure :=
  let cause := p.text ++ ": cannot open shared object file: No such file or directory"
  ["failed to load plugin " ++ p.text ++ ": " ++ cause, cause]

/-! ## Confirmation -/

/-- What is told before filtered queries are written. -/
def announcement (count : Nat) : String :=
  "Combinatorial emission will generate " ++ decimal count ++ " filtered queries.\n"

def prompt : String := "Continue? [y/N] "

/-- The first line of a text. -/
def firstLine (input : String) : String :=
  String.ofList (input.toList.takeWhile (· != '\n'))

/-- Whether an answer is a yes. No answer at all is none. -/
def isYes (answer : String) : Bool :=
  ["y", "yes"].contains (lowercase (trim answer))

/-- Tells the number of queries and asks whether to go on, unless that is settled. -/
def confirm (count : Nat) (yes : Bool) (input : String) : Bool × String :=
  if yes then (true, announcement count)
  else (isYes (firstLine input), announcement count ++ prompt)

/-! ## Compiling -/

/-- The generators that the settings enable. -/
def engineOf (s : Settings) : Except Failure Engine := do
  let enabled := Builtin.all.filter (fun b => s.enables b.name)
  let engine ← enabled.foldlM (fun (engine : Engine) b => do
    let b ← (b.configure (s.arguments b.name)).mapError (fun e => [e.message])
    (engine.register b.generator).mapError composeFailure) ({} : Engine)
  if engine.generators.isEmpty then
    .error ["no generators enabled; pass --sql, --json-schema, --rust or --plugin"]
  else .ok engine

/-- A model ready to be written, and where to. -/
structure Prepared where
  engine : Engine
  model : Model
  registry : Registry
  directory : Path

/-- Reads the schema and composes its model. -/
def prepare (tree : FileTree) (s : Settings) : Except Failure Prepared := do
  let source ← s.requireSchemaDirectory.mapError settingsFailure
  let directory ← s.requireOutputDirectory.mapError settingsFailure
  let engine ← engineOf s
  let model ← (compileDirectory tree source s.recursive).mapError (readingFailure source)
  match engine.compose model with
  | (_, .error e) => .error (composeFailure e)
  | (model, .ok registry) => .ok { engine, model, registry, directory }

/-- Emits and writes all files. `printed` is what the run has printed before. -/
def finish (tree : FileTree) (printed : String) (p : Prepared) : Outcome :=
  match p.engine.emit p.model p.registry with
  | .error e => failed tree printed (composeFailure e)
  | .ok emitted =>
    match Engine.write tree p.directory emitted with
    | (tree, .error e) => failed tree printed (composeFailure e)
    | (tree, .ok written) =>
      { output := printed ++ "Wrote " ++ decimal written.length ++ " files to " ++
          p.directory.text ++ "\n"
        tree }

/-- The outcome after the user has answered. -/
def answered (tree : FileTree) (printed : String) (p : Prepared) (yes : Bool) : Outcome :=
  if yes then finish tree printed p
  else { output := printed ++ "Aborted; nothing was written.\n", tree }

/-- Compiles the schema that the settings name. Filtered queries are written only when the user
agrees. -/
def compile (tree : FileTree) (s : Settings) (yes : Bool) : Interaction :=
  match prepare tree s with
  | .error f => .finished (failed tree "" f)
  | .ok p =>
    if s.sql.filteredQueries && s.enables Sql.generatorName then
      let count := Sql.queryCount p.model
      if yes then .finished (answered tree (announcement count) p true)
      else
        .question (announcement count ++ prompt) (fun line =>
          answered tree (announcement count ++ prompt) p (isYes line))
    else .finished (finish tree "" p)

/-! ## Running -/

def versionText : String := "schemagen 0.1.0\n"

/-- How a run ends whose arguments are not run. The texts of help and of wrong usage are left to the
caller. -/
def stopped (tree : FileTree) : Stop → Outcome
  | .help => { tree }
  | .version => { output := versionText, tree }
  | .usage => { code := 2, tree }

/-- The plugins of the settings, then those of the arguments that are not among them. -/
def pluginPaths (s : Settings) (early : EarlyOptions) : List Path :=
  early.plugins.foldl (fun paths p => if paths.any p.same then paths else paths ++ [p]) s.plugins

/-- Starts a run: the settings are loaded, then the plugins, and then the arguments are read. -/
def start (i : Invocation) : Interaction :=
  let early := EarlyOptions.scanFrom {} (i.arguments.map .text)
  match Settings.load i.tree early.config i.environment with
  | .error e => .finished (failed i.tree "" (settingsFailure e))
  | .ok settings =>
    match pluginPaths settings early with
    | p :: _ => .finished (failed i.tree "" (pluginFailure p))
    | [] =>
      match Arguments.read i.arguments with
      | .error stop => .finished (stopped i.tree stop)
      | .ok arguments => compile i.tree (arguments.apply settings) (arguments.isOn .yes)

/-- A whole run, with all of its input at hand. -/
def run (i : Invocation) (input : String) : Outcome :=
  match start i with
  | .finished o => o
  | .question _ answer => answer (firstLine input)

end CommandLine

end EntitySchema
