import EntitySchema.CommandLine.Run
import EntitySchema.Text.Utf8

/-!
The command line. Files are taken in before a run and those that it changed are written after it;
everything between is a function.
-/

namespace EntitySchema

namespace CommandLine

/-- What an entry of a directory holds, and all that lies below it. -/
partial def takeIn (l : Location) (entry : IO.FS.DirEntry) : IO (List (Location × Entry)) := do
  let l := l ++ [entry.fileName]
  if ← entry.path.isDir then
    let below ← (← entry.path.readDir).toList.mapM (takeIn l)
    return (l, .directory) :: below.flatten
  else
    let bytes ← IO.FS.readBinFile entry.path
    let contents :=
      match String.fromUTF8? bytes with
      | some s => Contents.text s
      | none => .bytes bytes.data.toList
    return [(l, .file contents)]

/-- The working directory with all that lies below it. -/
def workingTree : IO FileTree := do
  let directory ← IO.currentDir
  let l : Location := (Path.mk directory.toString).components.filterMap (fun c =>
    match c with
    | .name name => some name
    | _ => none)
  let below ← (← directory.readDir).toList.mapM (takeIn l)
  let start : FileTree := { workingDirectory := l }
  let tree := start.add l .directory
  return { tree with entries := tree.entries ++ below.flatten }

/-- The variables of the environment, as the system lists them. -/
def environment : IO Environment := do
  let bytes ← IO.FS.readBinFile "/proc/self/environ"
  let text := Text.decodeLossy bytes.data.toList
  return (text.toList.splitOn '\x00').filterMap (fun entry =>
    match entry.span (· != '=') with
    | (name, _ :: value) => some (String.ofList name, String.ofList value)
    | _ => none)

/-- Writes what a run has changed. -/
def writeBack (before after : FileTree) : IO Unit := do
  for (l, e) in after.entries do
    if before.entry? l != some e then
      let path := "/" ++ "/".intercalate l
      match e with
      | .directory => IO.FS.createDirAll path
      | .file (.text s) => IO.FS.writeFile path s
      | .file (.bytes bs) => IO.FS.writeBinFile path ⟨bs.toArray⟩

/-- The options, for those who ask and for those who got them wrong. -/
def usage : String :=
  "Usage: schemagen [OPTIONS]\n\n" ++
    String.join (ValueOption.all.map (fun o => "  " ++ o.name ++ " <VALUE>\n")) ++
    String.join (Switch.all.map (fun s => "  " ++ s.name ++ "\n")) ++
    "  --verbose\n  --help\n  --version\n"

end CommandLine

end EntitySchema

open EntitySchema CommandLine in
def main (arguments : List String) : IO UInt32 := do
  let tree ← workingTree
  let stdout ← IO.getStdout
  let stderr ← IO.getStderr
  let outcome ←
    match start { arguments, environment := ← environment, tree } with
    | .finished o => do
      stdout.putStr o.output
      pure o
    | .question printed answer => do
      stdout.putStr printed
      stdout.flush
      let o := answer (← (← IO.getStdin).getLine)
      stdout.putStr (String.ofList (o.output.toList.drop printed.length))
      pure o
  writeBack tree outcome.tree
  stderr.putStr outcome.errors
  match Arguments.read arguments with
  | .error .help => if outcome.code == 0 then stdout.putStr usage
  | .error .usage => if outcome.code == 2 then stderr.putStr usage
  | _ => pure ()
  return outcome.code.toUInt32
