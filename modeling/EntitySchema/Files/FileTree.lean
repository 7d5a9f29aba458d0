import EntitySchema.Files.Path

/-!
A file system as a value: the directories and files it holds and the directory that relative paths
start from. Reading and writing are functions on it, and each fails with the error that the
operating system gives.
-/

namespace EntitySchema

/-- Why an operation on files fails. -/
inductive FileError where
  | notFound
  | alreadyExists
  | notADirectory
  | isADirectory
  /-- A name on the way, or the path as a whole, is too long. -/
  | nameTooLong
  /-- A path holds the character zero. -/
  | zeroInPath
  /-- A file that was to be read as text is not valid UTF-8. -/
  | notText
  deriving DecidableEq, Repr, Inhabited

def FileError.message : FileError → String
  | notFound => "No such file or directory (os error 2)"
  | alreadyExists => "File exists (os error 17)"
  | notADirectory => "Not a directory (os error 20)"
  | isADirectory => "Is a directory (os error 21)"
  | nameTooLong => "File name too long (os error 36)"
  | zeroInPath => "file name contained an unexpected NUL byte"
  | notText => "stream did not contain valid UTF-8"

/-- What a file holds: text, or bytes that are no text. -/
inductive Contents where
  | text (s : String)
  | bytes (bs : List UInt8)
  deriving DecidableEq, Repr, Inhabited

inductive Entry where
  | directory
  | file (contents : Contents)
  deriving DecidableEq, Repr, Inhabited

/-- The one true place of a file or directory: the names that lead to it from the root. -/
abbrev Location := List String

/-- The entries below the root, each at its location, and the directory that relative paths start
from. Every directory on the way to an entry is an entry too. -/
structure FileTree where
  workingDirectory : Location := []
  entries : List (Location × Entry) := []
  deriving DecidableEq, Repr, Inhabited

namespace FileTree

def entry? (tree : FileTree) (l : Location) : Option Entry :=
  if l = [] then some .directory else tree.entries.lookup l

def isDirectory (tree : FileTree) (l : Location) : Bool :=
  tree.entry? l == some .directory

/-- Puts an entry at a location, in place of what was there. -/
def put (tree : FileTree) (l : Location) (e : Entry) : FileTree :=
  if tree.entries.any (fun x => x.1 == l) then
    { tree with entries := tree.entries.map (fun x => if x.1 == l then (l, e) else x) }
  else { tree with entries := tree.entries ++ [(l, e)] }

/-- Puts the directories in that lead to a location from the directory `l`. -/
def putDirectories (tree : FileTree) (l : Location) : List String → FileTree
  | [] => tree
  | name :: rest =>
    let next := l ++ [name]
    let tree := if (tree.entry? next).isSome then tree else tree.put next .directory
    putDirectories tree next rest

/-- The tree with one more entry and the directories that lead to it. -/
def add (tree : FileTree) (l : Location) (e : Entry) : FileTree :=
  let tree := tree.putDirectories [] l.dropLast
  if e = .directory ∧ (tree.entry? l).isSome then tree else tree.put l e

/-! ## Following paths -/

/-- The longest name of an entry, in bytes. -/
def maxNameSize : Nat := 255

/-- The longest path that an operation is asked to follow, in bytes. -/
def maxPathSize : Nat := 4095

/-- Whether a segment is longer than any name can be. -/
def isOverlong (segment : List Char) : Bool :=
  maxNameSize < (String.ofList segment).utf8ByteSize

/-- From the entry at `l` along one segment of a path. -/
def follow (tree : FileTree) (l : Location) (segment : List Char) : Except FileError Location :=
  if !tree.isDirectory l then .error .notADirectory
  else if Path.isVoid segment then .ok l
  else if segment = ['.', '.'] then .ok l.dropLast
  else if isOverlong segment then .error .nameTooLong
  else
    let next := l ++ [String.ofList segment]
    if (tree.entry? next).isSome then .ok next else .error .notFound

/-- The directory that a path starts from, and the segments that lead on from there. -/
def origin (tree : FileTree) (p : Path) : Location × List (List Char) :=
  if p.isAbsolute then ([], p.segments.tail) else (tree.workingDirectory, p.segments)

/-- A path leads somewhere only if it is not empty and has no zero in it. -/
def checkPath (p : Path) : Except FileError Unit :=
  if p.text.toList.contains '\x00' then .error .zeroInPath
  else if p.text = "" then .error .notFound
  else .ok ()

/-- A path that is handed over as a whole has to keep to the greatest length as well. -/
def checkWholePath (p : Path) : Except FileError Unit := do
  checkPath p
  if maxPathSize < p.text.utf8ByteSize then .error .nameTooLong else .ok ()

/-- The location that a path leads to, found step by step. -/
def resolve (tree : FileTree) (p : Path) : Except FileError Location := do
  checkPath p
  let (start, segments) := tree.origin p
  segments.foldlM tree.follow start

/-- The location that a path leads to, found in one step. -/
def locate (tree : FileTree) (p : Path) : Except FileError Location := do
  checkWholePath p
  tree.resolve p

/-- What the file holds that a path leads to. -/
def contents? (tree : FileTree) (p : Path) : Option Contents :=
  match tree.locate p with
  | .ok l =>
    match tree.entry? l with
    | some (.file contents) => some contents
    | _ => none
  | .error _ => none

def isFile (tree : FileTree) (p : Path) : Bool :=
  (tree.contents? p).isSome

/-- The text of the file that a path leads to. -/
def readText (tree : FileTree) (p : Path) : Except FileError String := do
  let l ← tree.locate p
  match tree.entry? l with
  | some (.file (.text s)) => .ok s
  | some (.file (.bytes _)) => .error .notText
  | some .directory => .error .isADirectory
  | none => .error .notFound

/-! ## Walking -/

/-- The names of the entries in a directory, in ascending order. -/
def children (tree : FileTree) (l : Location) : List String :=
  let names := tree.entries.filterMap (fun (k, _) =>
    match k.getLast? with
    | some name => if k = l ++ [name] then some name else none
    | none => none)
  names.mergeSort (fun a b => decide (a ≤ b))

/-- The files at most `depth` levels below a location, each with the path that leads to it. -/
def filesWithin (tree : FileTree) : Nat → Location → Path → List (Path × Contents)
  | depth, l, p =>
    match tree.entry? l with
    | none => []
    | some (.file contents) => [(p, contents)]
    | some .directory =>
      match depth with
      | 0 => []
      | depth + 1 =>
        (tree.children l).flatMap (fun name =>
          tree.filesWithin depth (l ++ [name]) (p.join ⟨name⟩))

/-- No entry lies deeper than this. -/
def height (tree : FileTree) : Nat :=
  tree.entries.foldl (fun height (l, _) => max height l.length) 0

/-! ## Writing -/

/-- The directory that holds the last segment of a path, and that segment. A path without segments
leads to the root. -/
def parentOf (tree : FileTree) (start : Location) (segments : List (List Char)) :
    Except FileError (Location × List Char) := do
  let parent ← segments.dropLast.foldlM tree.follow start
  if tree.isDirectory parent then .ok (parent, segments.getLast?.getD [])
  else .error .notADirectory

/-- The segments of a path without the slashes at its end. -/
def withoutSlashes (segments : List (List Char)) : List (List Char) :=
  (segments.reverse.dropWhile (· == [])).reverse

/-- Makes one directory. Slashes at the end of the path do not matter. -/
def makeDirectory (tree : FileTree) (p : Path) : Except FileError FileTree := do
  checkWholePath p
  let (start, segments) := tree.origin p
  let (parent, last) ← tree.parentOf start (withoutSlashes segments)
  if Path.isVoid last || last == ['.', '.'] then .error .alreadyExists
  else if isOverlong last then .error .nameTooLong
  else
    let l := parent ++ [String.ofList last]
    if (tree.entry? l).isSome then .error .alreadyExists else .ok (tree.put l .directory)

/-- Whether a path leads to a directory. -/
def leadsToDirectory (tree : FileTree) (p : Path) : Bool :=
  match tree.locate p with
  | .ok l => tree.isDirectory l
  | .error _ => false

/-- Makes a directory and those on the way to it, as far as they are missing. Those made before a
failure stay. The first argument bounds the number of directories on the way. -/
def makeDirectoriesWithin : Nat → FileTree → Path → FileTree × Except FileError Unit
  | bound, tree, p =>
    if p.text = "" then (tree, .ok ())
    else
      match tree.makeDirectory p with
      | .ok tree => (tree, .ok ())
      | .error .notFound =>
        match bound, p.parent? with
        | bound + 1, some parent =>
          match makeDirectoriesWithin bound tree parent with
          | (tree, .error e) => (tree, .error e)
          | (tree, .ok ()) =>
            match tree.makeDirectory p with
            | .ok tree => (tree, .ok ())
            | .error e => (tree, if tree.leadsToDirectory p then .ok () else .error e)
        | _, _ => (tree, .error .notFound)
      | .error e => (tree, if tree.leadsToDirectory p then .ok () else .error e)

def makeDirectories (tree : FileTree) (p : Path) : FileTree × Except FileError Unit :=
  makeDirectoriesWithin p.segments.length tree p

/-- Writes a file, in place of what it held. Its directory has to be there, and a path that ends
with a slash names no file. -/
def write (tree : FileTree) (p : Path) (contents : String) : Except FileError FileTree := do
  checkWholePath p
  let (start, segments) := tree.origin p
  let named := withoutSlashes segments
  let (parent, last) ← tree.parentOf start named
  if named.length < segments.length || Path.isVoid last || last == ['.', '.'] then
    .error .isADirectory
  else if isOverlong last then .error .nameTooLong
  else
    let l := parent ++ [String.ofList last]
    if tree.isDirectory l then .error .isADirectory
    else .ok (tree.put l (.file (.text contents)))

end FileTree

end EntitySchema
