import EntitySchema.Files.FileSystem
import EntitySchema.Schema.Grammar.Declaration
import EntitySchema.Schema.ReadError

/-!
Reading schema files into one model. A file is read together with the files it includes, and no file
is read twice. Reading that fails keeps what was declared before the failure.
-/

namespace EntitySchema

/-- The state of reading: the model so far, the files being read, innermost last, and the files
that are finished. A file is finished when its reading ends, however it ends. -/
structure Reader where
  model : Model := {}
  reading : List Location := []
  finished : List Location := []
  deriving DecidableEq, Repr, Inhabited

namespace Reader

/-- What reading gives: the state it ends in, and whether it failed. -/
abbrev Outcome := Reader × Except ReadError Unit

/-! ## Announcing -/

/-- Announces every name that follows the word `struct` or `enum`. A name can then be the type of a
member before the struct or enum is declared. -/
def announceTokens (model : Model) : List Token → Model
  | t :: name :: rest =>
    let model :=
      if (t.is "struct" || t.is "enum") && Grammar.isIdentifier name then model.announce name.text
      else model
    announceTokens model (name :: rest)
  | _ => model

/-! ## One file -/

/-- The path that an include leads to from the directory of the file that holds it. -/
def includeTarget (directory : Path) (written : String) : Path :=
  if (Path.mk written).isAbsolute then ⟨written⟩
  else
    match written.toList with
    | '.' :: '/' :: rest => directory.join ⟨String.ofList rest⟩
    | _ => directory.join ⟨written⟩

/-- Reads the declarations of a file. Inclusions are left to `inclusion`. -/
def declarations (inclusion : Reader → Position → Path → Outcome) (file : Path)
    (r : Reader) (ts : List Token) : Outcome :=
  match ts with
  | [] => (r, .ok ())
  | t :: rest =>
    match _h : Grammar.declaration r.model t rest with
    | .error e => (r, .error (.grammar file.text e))
    | .ok (.struct s, after) =>
      declarations inclusion file { r with model := r.model.declareStruct s } after
    | .ok (.enumeration e, after) =>
      declarations inclusion file { r with model := r.model.declareEnum e } after
    | .ok (.config, after) => declarations inclusion file r after
    | .ok (.includes position written, after) =>
      match inclusion r position (includeTarget (file.parent?.getD ⟨""⟩) written) with
      | (r, .ok ()) => declarations inclusion file r after
      | (r, .error e) => (r, .error e)
termination_by ts.length
decreasing_by
  all_goals have := Grammar.declaration_shorter _h; simp only [List.length_cons]; omega

/-- Reads a text as the contents of a file: its names are announced, then its declarations read. -/
def sourceWith (inclusion : Reader → Position → Path → Outcome) (r : Reader) (source : String)
    (file : Path) : Outcome :=
  match tokenize file.text source with
  | .error e => (r, .error (.lexical e))
  | .ok ts => declarations inclusion file { r with model := announceTokens r.model ts } ts

/-- Reads the file at a location. -/
def fileWith (inclusion : Reader → Position → Path → Outcome) (files : FileSystem) (r : Reader)
    (path : Path) (l : Location) : Outcome :=
  match files.readText path with
  | .error e => (r, .error (.unreadable path e))
  | .ok source =>
    let (r, result) := sourceWith inclusion { r with reading := r.reading ++ [l] } source path
    ({ r with reading := r.reading.dropLast, finished := r.finished ++ [l] }, result)

/-! ## Included files -/

/-- Reads an included file, unless it is finished. A file that is being read includes itself.

The number bounds how deep inclusions may nest. Each level reads another file, so when there are
more levels than files, some file is inside itself. -/
def inclusion (files : FileSystem) : Nat → Reader → Position → Path → Outcome
  | 0, r, position, path => (r, .error (.includeCycle position path))
  | depth + 1, r, position, path =>
    match files.resolve path with
    | .error e => (r, .error (.missingInclude position path e))
    | .ok l =>
      if r.reading.contains l then (r, .error (.includeCycle position path))
      else if r.finished.contains l then (r, .ok ())
      else fileWith (inclusion files depth) files r path l

/-- Inclusions of any depth that the files allow. -/
def inclusionIn (files : FileSystem) : Reader → Position → Path → Outcome :=
  inclusion files (files.locations.length + 1)

/-! ## Reading -/

/-- Reads a text as if it were the contents of `file`. -/
def readSource (files : FileSystem) (r : Reader) (source : String) (file : Path) : Outcome :=
  sourceWith (inclusionIn files) r source file

/-- Reads a file and what it includes, unless it is finished. -/
def readPath (files : FileSystem) (r : Reader) (path : Path) : Outcome :=
  match files.resolve path with
  | .error e => (r, .error (.unreadable path e))
  | .ok l =>
    if r.finished.contains l then (r, .ok ())
    else fileWith (inclusionIn files) files r path l

/-- Announces the names of a file without reading its declarations, so that files read before it can
use them. -/
def announcePath (files : FileSystem) (r : Reader) (path : Path) : Outcome :=
  match files.readText path with
  | .error e => (r, .error (.unreadable path e))
  | .ok source =>
    match tokenize path.text source with
    | .error e => (r, .error (.lexical e))
    | .ok ts => ({ r with model := announceTokens r.model ts }, .ok ())

/-- Does one thing after the other to a list of files, up to the first failure. -/
def forEach (action : Reader → Path → Outcome) : Reader → List Path → Outcome
  | r, [] => (r, .ok ())
  | r, path :: rest =>
    match action r path with
    | (r, .ok ()) => forEach action r rest
    | (r, .error e) => (r, .error e)

end Reader

/-! ## Whole schemas -/

/-- The endings of schema files. -/
def schemaExtensions : List String := ["schema", "schemaLang"]

/-- The schema files in a directory, or below it, in the order in which they are read. -/
def schemaFiles (tree : FileTree) (directory : Path) (recursive : Bool) :
    Except ReadError (List Path) :=
  match tree.locate directory with
  | .error e => .error (.walk directory e)
  | .ok l =>
    let files := tree.filesWithin (if recursive then tree.height else 1) l directory
    .ok ((files.map Prod.fst).filter (fun p =>
      p.extension?.any (fun ending => schemaExtensions.contains ending)))

/-- The model of all schema files of a directory. The names of every file are announced before any
is read, so each file may use the names of all others. -/
def loadDirectory (tree : FileTree) (directory : Path) (recursive : Bool) :
    Except ReadError Model := do
  let files ← schemaFiles tree directory recursive
  let (announced, result) := Reader.forEach (Reader.announcePath tree) {} files
  result
  let (r, result) := Reader.forEach (Reader.readPath tree) announced files
  result
  .ok r.model

/-- The name of a source that is not a file. -/
def inputName : Path := ⟨"<input>"⟩

/-- The model of a source, which may include files. Unless some are given, there are none. -/
def readModel (source : String) (files : FileSystem := {}) :
    Except ReadError Model :=
  match Reader.readSource files {} source inputName with
  | (r, .ok ()) => .ok r.model
  | (_, .error e) => .error e

end EntitySchema
