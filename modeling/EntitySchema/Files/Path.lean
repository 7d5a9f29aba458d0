/-!
Paths as text, and the parts they are made of. A path is kept as it was written, since messages show
it so; only its components are normalised: repeated and trailing slashes vanish, and so do dots
other than a leading one.
-/

namespace EntitySchema

structure Path where
  text : String
  deriving DecidableEq, Repr, Inhabited

namespace Path

/-- A part of a path. -/
inductive Component where
  | root
  | current
  | parent
  | name (text : String)
  deriving DecidableEq, Repr

/-- What stands between the slashes of a path. -/
def segments (p : Path) : List (List Char) :=
  p.text.toList.splitOn '/'

/-- A segment that names nothing: two slashes in a row, or a dot. -/
def isVoid (segment : List Char) : Bool :=
  segment == [] || segment == ['.']

/-- The component of a segment other than the first. -/
def component? (segment : List Char) : Option Component :=
  if isVoid segment then none
  else if segment = ['.', '.'] then some .parent
  else some (.name (String.ofList segment))

def components (p : Path) : List Component :=
  match p.segments with
  | [[]] => []
  | [] :: body => .root :: body.filterMap component?
  | ['.'] :: body => .current :: body.filterMap component?
  | segments => segments.filterMap component?

def isAbsolute (p : Path) : Bool :=
  p.text.toList.head? == some '/'

/-- The path `p` seen from `base`. An absolute path stays as it is. -/
def join (base p : Path) : Path :=
  if p.isAbsolute then p
  else if base.text == "" || base.text.toList.getLast? == some '/' then ⟨base.text ++ p.text⟩
  else ⟨base.text ++ "/" ++ p.text⟩

/-- The segments without those at the end that name nothing. -/
def trimEnd (segments : List (List Char)) : List (List Char) :=
  (segments.reverse.dropWhile isVoid).reverse

/-- The segments as text again. -/
def ofSegments (segments : List (List Char)) : Path :=
  ⟨"/".intercalate (segments.map String.ofList)⟩

/-- The path without its last component. The parent of a bare name is the empty path; the root and
the empty path have none. -/
def parent? (p : Path) : Option Path :=
  match p.segments with
  | [[]] => none
  | [] :: body =>
    match trimEnd body with
    | [] => none
    | named => some (ofSegments ([] :: orRoot (trimEnd named.dropLast)))
  | ['.'] :: body =>
    match trimEnd body with
    | [] => some ⟨""⟩
    | named => some (ofSegments (['.'] :: trimEnd named.dropLast))
  | segments => some (ofSegments (trimEnd (trimEnd segments).dropLast))
where
  orRoot : List (List Char) → List (List Char)
    | [] => [[]]
    | segments => segments

/-- The last component, if it is a name. -/
def fileName? (p : Path) : Option String :=
  match p.components.getLast? with
  | some (.name text) => some text
  | _ => none

/-- What follows the last dot of the file name, unless that dot is its first character. -/
def extension? (p : Path) : Option String :=
  match p.fileName? with
  | none => none
  | some name =>
    let reversed := name.toList.reverse
    let ending := reversed.takeWhile (· ≠ '.')
    if ending.length + 1 < reversed.length then some (String.ofList ending.reverse) else none

/-- Two paths with the same components lead to the same place. -/
def same (p q : Path) : Bool :=
  p.components == q.components

end Path

end EntitySchema
