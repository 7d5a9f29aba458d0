import EntitySchema.Files.FileTree
import EntitySchema.Generation.Builtin
import EntitySchema.Json.Reader
import EntitySchema.Settings.Environment
import EntitySchema.Settings.Ini
import EntitySchema.Settings.Json5
import EntitySchema.Settings.Ron
import EntitySchema.Settings.Yaml
import EntitySchema.Toml.Reader

/-!
The settings of the program. They come from files in the working directory, from a file that is
asked for, and from the environment; what comes later counts.
-/

namespace EntitySchema

structure SqlSettings where
  dialect : Option String := none
  filteredQueries : Bool := false
  deriving DecidableEq, Repr, Inhabited

structure Settings where
  schemaDirectory : Option Path := none
  outputDirectory : Option Path := none
  /-- Schema files in subdirectories are read too. -/
  recursive : Bool := false
  generators : List String := []
  plugins : List Path := []
  sql : SqlSettings := {}
  deriving DecidableEq, Repr, Inhabited

inductive SettingsError where
  /-- A file cannot be read, or a value is not of its kind. -/
  | unloadable
  /-- A key leads to an item that a list cannot have, or is neither a text nor a number. -/
  | badKey
  | noSchemaDirectory
  | noOutputDirectory
  | unknownGenerator (name : String)
  deriving DecidableEq, Repr

namespace SettingsError

def missing (what option key : String) : String :=
  "no " ++ what ++ " given; pass `--" ++ option ++ "` or set `" ++ key ++ "` in schemagen.toml"

def message : SettingsError → String
  | unloadable | badKey => "failed to load configuration: "
  | noSchemaDirectory => missing "schema directory" "schema-dir" "schema_dir"
  | noOutputDirectory => missing "output directory" "output-dir" "output_dir"
  | unknownGenerator name =>
    "unknown generator `" ++ name ++ "`, expected one of: " ++ ", ".intercalate Builtin.names

end SettingsError

/-! ## Files -/

inductive SettingsFormat where
  | toml
  | json
  | yaml
  | ini
  | ron
  | json5
  deriving DecidableEq, Repr

namespace SettingsFormat

def all : List SettingsFormat := [toml, json, yaml, ini, ron, json5]

/-- The endings of files in the format. -/
def extensions : SettingsFormat → List String
  | toml => ["toml"]
  | json => ["json"]
  | yaml => ["yaml", "yml"]
  | ini => ["ini"]
  | ron => ["ron"]
  | json5 => ["json5"]

def ofExtension? (extension : String) : Option SettingsFormat :=
  all.find? (fun f => f.extensions.contains extension)

/-- Reads a text in the format. -/
def readValue (format : SettingsFormat) (text : String) :
    Except SettingValue.SourceError SettingValue :=
  let orUnreadable := fun (value : Option SettingValue) =>
    match value with
    | some value => .ok value
    | none => .error .unreadable
  match format with
  | toml => orUnreadable ((Toml.read? text).bind SettingValue.ofTomlTable?)
  | json => orUnreadable ((JsonValue.read? text).map SettingValue.ofJson)
  | yaml => SettingValue.readYaml text
  | ini => orUnreadable (Ini.read? text)
  | ron => orUnreadable (Ron.read? text)
  | json5 => orUnreadable (Json5.read? text)

/-- Reads a text in the format. Only a table is settings. -/
def read (format : SettingsFormat) (text : String) : Except SettingsError SettingValue.Fields :=
  match format.readValue text with
  | .ok (.table fields) => .ok fields
  | .ok _ => .error .unloadable
  | .error .unreadable => .error .unloadable
  | .error .badKey => .error .badKey

end SettingsFormat

/-- A path with an ending added to its file name. -/
def withEnding (p : Path) (ending : String) : Option Path :=
  p.fileName?.map (fun name => (p.parent?.getD ⟨""⟩).join ⟨name ++ "." ++ ending⟩)

/-- The file that a path stands for, and its format: the file itself, whose ending tells the format,
or else one that has an ending added. -/
def settingsFile? (tree : FileTree) (p : Path) : Option (Path × SettingsFormat) :=
  if tree.isFile p then
    (p.extension?.bind SettingsFormat.ofExtension?).map (fun format => (p, format))
  else
    SettingsFormat.all.findSome? (fun format =>
      format.extensions.findSome? (fun ending =>
        match withEnding p ending with
        | some p => if tree.isFile p then some (p, format) else none
        | none => none))

/-- The settings in the file that a path stands for; `none` if there is no such file, or no text in
it. -/
def settingsAt (tree : FileTree) (p : Path) :
    Option (Except SettingsError SettingValue.Fields) := do
  let (p, format) ← settingsFile? tree p
  let contents ← tree.contents? p
  match contents with
  | .text s => some (format.read s)
  | .bytes _ => none

/-! ## Loading -/

namespace Settings

/-- The files that are read without being asked for. -/
def standardFiles : List Path := [⟨"schemagen.toml"⟩, ⟨".schemagen.toml"⟩]

/-- All sources, each laid over those before it. A standard file may be missing; the file that is
asked for must be there. -/
def sources (tree : FileTree) (file : Option Path) (env : Environment) :
    Except SettingsError SettingValue.Fields := do
  let standard ← standardFiles.mapM (fun p => (settingsAt tree p).getD (.ok []))
  let asked ←
    match file with
    | some p => (settingsAt tree p).getD (.error .unloadable)
    | none => .ok []
  match (standard ++ [asked, env.settings]).foldlM SettingValue.overlay [] with
  | some fields => .ok fields
  | none => .error .badKey

/-- Reads a field if it is there. -/
def field {α : Type} (fields : SettingValue.Fields) (key : String) (standard : α)
    (read : SettingValue → Option α) : Except SettingsError α :=
  match fields.lookup key with
  | none => .ok standard
  | some value =>
    match read value with
    | some a => .ok a
    | none => .error .unloadable

/-- A text that may be unset. -/
def optionalText : SettingValue → Option (Option String)
  | .unset => some none
  | value => value.asText?.map some

/-- The settings for SQL: a table, or a list with the values in order. -/
def readSql (value : SettingValue) : Option SqlSettings :=
  match value with
  | .table fields =>
    let read : Except SettingsError SqlSettings := do
      let dialect ← field fields "dialect" none optionalText
      let filteredQueries ← field fields "powerset_queries" false SettingValue.asBool?
      .ok { dialect, filteredQueries }
    read.toOption
  | .list items => do
    let dialect ←
      match items[0]? with
      | some value => optionalText value
      | none => some none
    let filteredQueries ←
      match items[1]? with
      | some value => value.asBool?
      | none => some false
    some { dialect, filteredQueries }
  | _ => none

def ofFields (fields : SettingValue.Fields) : Except SettingsError Settings := do
  let schemaDirectory ← field fields "schema_dir" none optionalText
  let outputDirectory ← field fields "output_dir" none optionalText
  let recursive ← field fields "recursive" false SettingValue.asBool?
  let generators ← field fields "generators" [] SettingValue.asTexts?
  let plugins ← field fields "plugins" [] SettingValue.asTexts?
  let sql ← field fields "sql" {} readSql
  .ok {
    schemaDirectory := schemaDirectory.map Path.mk
    outputDirectory := outputDirectory.map Path.mk
    recursive
    generators
    plugins := plugins.map Path.mk
    sql }

/-- Every generator that settings name has to be one that comes with the program. -/
def checkGenerators (s : Settings) : Except SettingsError Settings :=
  match s.generators.find? (fun name => !Builtin.names.contains name) with
  | some name => .error (.unknownGenerator name)
  | none => .ok s

/-- Loads the settings from the standard files, from `file` and from the environment. -/
def load (tree : FileTree) (file : Option Path) (env : Environment) :
    Except SettingsError Settings := do
  let fields ← sources tree file env
  let settings ← ofFields fields
  settings.checkGenerators

/-! ## Use -/

def requireSchemaDirectory (s : Settings) : Except SettingsError Path :=
  match s.schemaDirectory with
  | some p => .ok p
  | none => .error .noSchemaDirectory

def requireOutputDirectory (s : Settings) : Except SettingsError Path :=
  match s.outputDirectory with
  | some p => .ok p
  | none => .error .noOutputDirectory

def enables (s : Settings) (generator : String) : Bool :=
  s.generators.contains generator

/-- Enables a generator, unless it is enabled. -/
def enable (s : Settings) (generator : String) : Settings :=
  if s.enables generator then s else { s with generators := s.generators ++ [generator] }

/-- The arguments of a generator. Only that of SQL has any. -/
def arguments (s : Settings) (generator argument : String) : Option String :=
  if generator == Sql.generatorName then
    match argument with
    | "dialect" => s.sql.dialect
    | "powerset_queries" => some (if s.sql.filteredQueries then "true" else "false")
    | _ => none
  else none

end Settings

end EntitySchema
