import EntitySchema.CommandLine.EarlyOptions
import EntitySchema.Settings

/-!
The arguments of the program, and what they change in the settings.
-/

namespace EntitySchema

namespace CommandLine

/-- The options that take a value. -/
inductive ValueOption where
  | schemaDir
  | outputDir
  | dialect
  | plugin
  | config
  deriving DecidableEq, Repr

namespace ValueOption

def all : List ValueOption := [schemaDir, outputDir, dialect, plugin, config]

def name : ValueOption → String
  | schemaDir => "--schema-dir"
  | outputDir => "--output-dir"
  | dialect => "--dialect"
  | plugin => "--plugin"
  | config => "--config"

def ofName? (name : String) : Option ValueOption := all.find? (fun o => o.name == name)

/-- The value is a path, which is never empty. -/
def isPath : ValueOption → Bool
  | dialect => false
  | _ => true

def isRepeatable : ValueOption → Bool
  | plugin => true
  | _ => false

end ValueOption

inductive Switch where
  | recursive
  | sql
  | jsonSchema
  | rust
  | allowCombinatorial
  | yes
  deriving DecidableEq, Repr

namespace Switch

def all : List Switch := [recursive, sql, jsonSchema, rust, allowCombinatorial, yes]

def name : Switch → String
  | recursive => "--recursive"
  | sql => "--sql"
  | jsonSchema => "--json-schema"
  | rust => "--rust"
  | allowCombinatorial => "--allow-combinatorial"
  | yes => "--yes"

def ofName? (name : String) : Option Switch := all.find? (fun s => s.name == name)

end Switch

structure Arguments where
  values : List (ValueOption × String) := []
  switches : List Switch := []
  deriving DecidableEq, Repr, Inhabited

/-- Why the arguments are not run. -/
inductive Stop where
  | help
  | version
  /-- The arguments are wrong. -/
  | usage
  deriving DecidableEq, Repr

namespace Arguments

def value? (a : Arguments) (o : ValueOption) : Option String := a.values.lookup o

def isOn (a : Arguments) (s : Switch) : Bool := a.switches.contains s

/-- Sets an option. Most options can be set once only. -/
def setValue (a : Arguments) (o : ValueOption) (value : String) : Except Stop Arguments :=
  if o.isPath && value == "" then .error .usage
  else if !o.isRepeatable && (a.value? o).isSome then .error .usage
  else .ok { a with values := a.values ++ [(o, value)] }

def turnOn (a : Arguments) (s : Switch) : Except Stop Arguments :=
  if a.isOn s then .error .usage else .ok { a with switches := a.switches ++ [s] }

/-- Reads the letters after a single dash. -/
def readLetters (a : Arguments) : List Char → Except Stop Arguments
  | [] => .ok a
  | 'v' :: rest => a.readLetters rest
  | 'y' :: rest => do (← a.turnOn .yes).readLetters rest
  | 'h' :: _ => .error .help
  | 'V' :: _ => .error .version
  | _ => .error .usage

/-- Reads an argument of two dashes that takes no value. -/
def readSwitch (a : Arguments) (name : String) (inline : Option String) : Except Stop Arguments :=
  if inline.isSome then .error .usage
  else
    match name with
    | "--help" => .error .help
    | "--version" => .error .version
    | "--verbose" => .ok a
    | name =>
      match Switch.ofName? name with
      | some s => a.turnOn s
      | none => .error .usage

/-- An argument that can be the value of the option before it. -/
def isValue (argument : String) : Bool :=
  argument == "-" || argument.toList.head? != some '-'

/-- Reads the arguments in their order, up to the first that stops it. Nothing but options is read,
so after `--` nothing may follow. -/
def readFrom (a : Arguments) : List String → Except Stop Arguments
  | [] => .ok a
  | argument :: rest =>
    match argument.toList with
    | ['-', '-'] => if rest.isEmpty then .ok a else .error .usage
    | '-' :: '-' :: _ =>
      let (name, inline) := splitOption argument
      match ValueOption.ofName? name with
      | some o =>
        match inline, rest with
        | some value, rest => do (← a.setValue o value).readFrom rest
        | none, value :: rest =>
          if isValue value then do (← a.setValue o value).readFrom rest else .error .usage
        | none, [] => .error .usage
      | none => do (← a.readSwitch name inline).readFrom rest
    | '-' :: letter :: letters => do (← a.readLetters (letter :: letters)).readFrom rest
    | _ => .error .usage

/-- Reads the arguments after the name of the program. -/
def read (arguments : List String) : Except Stop Arguments := readFrom {} arguments

/-- Lays the arguments over the settings. -/
def apply (a : Arguments) (s : Settings) : Settings :=
  let enableIf (switch : Switch) (generator : String) (s : Settings) : Settings :=
    if a.isOn switch then s.enable generator else s
  let s := { s with
    schemaDirectory := ((a.value? .schemaDir).map Path.mk).or s.schemaDirectory
    outputDirectory := ((a.value? .outputDir).map Path.mk).or s.outputDirectory
    recursive := s.recursive || a.isOn .recursive
    sql := {
      dialect := (a.value? .dialect).or s.sql.dialect
      filteredQueries := s.sql.filteredQueries || a.isOn .allowCombinatorial } }
  enableIf .rust Rust.generatorName
    (enableIf .jsonSchema JsonSchema.generatorName (enableIf .sql Sql.generatorName s))

end Arguments

end CommandLine

end EntitySchema
