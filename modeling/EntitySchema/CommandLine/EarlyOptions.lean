import EntitySchema.Files.Path
import EntitySchema.Text.Utf8

/-!
The options that are needed before the arguments are read for good: the settings file, the plugins,
and how much is logged. They are found even among arguments that turn out to be wrong.
-/

namespace EntitySchema

namespace CommandLine

/-- An argument as it is passed: text, or bytes that are no text. -/
inductive Argument where
  | text (s : String)
  | bytes (bs : List UInt8)
  deriving DecidableEq, Repr, Inhabited

/-- The path that an argument gives. Paths are text, so bytes that are none are replaced. -/
def Argument.path : Argument → Path
  | text s => ⟨s⟩
  | bytes bs => ⟨Text.decodeLossy bs⟩

/-- What can be passed as an argument. -/
class ToArgument (α : Type) where
  toArgument : α → Argument

instance : ToArgument String := ⟨.text⟩

instance : ToArgument Argument := ⟨id⟩

/-- The arguments without the first, which names the program. -/
def given {α : Type} [ToArgument α] (arguments : List α) : List Argument :=
  arguments.tail.map ToArgument.toArgument

/-- An argument that starts with two dashes, cut at its first equals sign. -/
def splitOption (argument : String) : String × Option String :=
  match argument.toList.span (· != '=') with
  | ('-' :: '-' :: name, '=' :: value) =>
    (String.ofList ('-' :: '-' :: name), some (String.ofList value))
  | _ => (argument, none)

/-- The largest verbosity. -/
def maxVerbosity : Nat := 255

structure EarlyOptions where
  config : Option Path := none
  plugins : List Path := []
  verbosity : Nat := 0
  deriving DecidableEq, Repr, Inhabited

namespace EarlyOptions

def raise (early : EarlyOptions) (n : Nat) : EarlyOptions :=
  { early with verbosity := min (early.verbosity + n) maxVerbosity }

def setPath (early : EarlyOptions) (name : String) (value : Path) : EarlyOptions :=
  if name == "--plugin" then { early with plugins := early.plugins ++ [value] }
  else { early with config := some value }

/-- How often `v` stands in an argument of one dash and letters `v` and `y`, counted in one byte. -/
def lettersV (argument : String) : Nat :=
  match argument.toList with
  | '-' :: '-' :: _ => 0
  | '-' :: letters =>
    if letters.all (fun c => c == 'v' || c == 'y') then letters.count 'v' % 256 else 0
  | _ => 0

/-- Looks through the arguments up to `--`, past those that are no text. The argument after
`--plugin` or `--config` is its value, whatever it looks like; where there is none, nothing more is
looked at. -/
def scanFrom (early : EarlyOptions) : List Argument → EarlyOptions
  | [] => early
  | .bytes _ :: rest => scanFrom early rest
  | .text argument :: rest =>
    if argument == "--" then early
    else
      let (name, inline) := splitOption argument
      if name == "--plugin" || name == "--config" then
        match inline, rest with
        | some value, rest => scanFrom (early.setPath name ⟨value⟩) rest
        | none, value :: rest => scanFrom (early.setPath name value.path) rest
        | none, [] => early
      else if name == "--verbose" then scanFrom (early.raise 1) rest
      else scanFrom (early.raise (lettersV name)) rest

/-- Looks through all arguments, the first of which names the program. -/
def scan {α : Type} [ToArgument α] (arguments : List α) : EarlyOptions :=
  scanFrom {} (given arguments)

end EarlyOptions

end CommandLine

end EntitySchema
