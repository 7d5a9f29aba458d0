import EntitySchema.Yaml.Token

/-!
A place in a YAML text, with what has been read before it: the tokens, the levels of blocks that are
open, and the tokens that may turn out to be keys of mappings.
-/

namespace EntitySchema.Yaml

/-- A level of blocks that is open, by the column that counted before it. -/
structure Level where
  outer : Int
  /-- Whether it is the level of a block, which a token ends. Others only ask for a column. -/
  ofBlock : Bool
  deriving DecidableEq, Repr, Inhabited

/-- A token that is the key of a mapping if a colon follows. -/
structure KeyCandidate where
  isOpen : Bool := false
  /-- Without a colon, the text is wrong. -/
  isRequired : Bool := false
  /-- The number of tokens before it. -/
  number : Nat := 0
  index : Nat := 0
  line : Nat := 0
  column : Nat := 0
  deriving DecidableEq, Repr, Inhabited

inductive FlowKind where
  | sequence
  | mapping
  deriving DecidableEq, Repr

structure Cursor where
  rest : List Char
  index : Nat := 0
  line : Nat := 0
  column : Nat := 0
  /-- There are only blanks before this place in its line. -/
  isLeading : Bool := true
  /-- The tokens so far, the latest first. -/
  tokens : List Token := []
  /-- The column of the innermost block. -/
  indent : Int := -1
  levels : List Level := []
  keyAllowed : Bool := true
  /-- A candidate for each flow collection that is open, and one for the blocks around them. -/
  candidates : List KeyCandidate := [{}]
  flows : List FlowKind := []
  /-- The place at which a colon needs no blank after it. -/
  adjacentAt : Option Nat := none
  deriving Repr, Inhabited

namespace Cursor

def current (s : Cursor) : Option Char := s.rest.head?

def following (s : Cursor) : Option Char := s.rest.tail.head?

def inFlow (s : Cursor) : Bool := !s.flows.isEmpty

/-! ## Moving on -/

/-- Goes past a blank. -/
def skipBlank (s : Cursor) : Cursor :=
  { s with rest := s.rest.tail, index := s.index + 1, column := s.column + 1 }

/-- Goes past a character that is neither a blank nor a line break. -/
def skip (s : Cursor) : Cursor := { s.skipBlank with isLeading := false }

/-- Goes past a number of such characters. -/
def skipMany (n : Nat) (s : Cursor) : Cursor :=
  { s with
    rest := s.rest.drop n
    index := s.index + n
    column := s.column + n
    isLeading := s.isLeading && n == 0 }

/-- Goes past a line break, which may consist of two characters. -/
def skipBreak (s : Cursor) : Cursor :=
  let width := if s.rest.take 2 == ['\r', '\n'] then 2 else 1
  { s with
    rest := s.rest.drop width
    index := s.index + width
    line := s.line + 1
    column := 0
    isLeading := true }

/-- Goes past the characters that a condition holds of. -/
def skipWhile (holds : Char → Bool) (s : Cursor) : Cursor :=
  s.skipMany (s.rest.takeWhile holds).length

/-- Goes past a comment. -/
def skipComment (s : Cursor) : Cursor := s.skipWhile (fun c => !isBreak c)

/-- Goes past blanks, and past a comment if there are any. A comment right here is wrong. The flags
tell whether there are tabs and whether there are spaces. -/
def skipLine? (s : Cursor) : Option (Cursor × Bool × Bool) :=
  let blanks := s.rest.takeWhile isBlank
  let s := blanks.foldl (fun s _ => s.skipBlank) s
  if s.current == some '#' then
    if blanks.isEmpty then none else some (s.skipComment, blanks.contains '\t', blanks.contains ' ')
  else some (s, blanks.contains '\t', blanks.contains ' ')

/-- Goes to the next token. A tab is no indentation of a block. `fuel` bounds the number of
steps. -/
def toToken? : Nat → Cursor → Option Cursor
  | 0, s => some s
  | fuel + 1, s =>
    match s.current with
    | some '\t' =>
      if !s.levels.isEmpty && s.isLeading && (s.column : Int) < s.indent then do
        let (s, _) ← s.skipLine?
        if isLineEnd s.current then toToken? fuel s else none
      else toToken? fuel s.skipBlank
    | some ' ' => toToken? fuel s.skipBlank
    | some '#' => toToken? fuel s.skipComment
    | some c =>
      if isBreak c then
        let s := s.skipBreak
        toToken? fuel (if s.inFlow then s else { s with keyAllowed := true })
      else some s
    | none => some s

/-- Whether a mark of documents is here: three of a character at the start of a line. -/
def atDocumentMark (mark : Char) (s : Cursor) : Bool :=
  s.column == 0 && s.rest.take 3 == [mark, mark, mark] && isGap (s.rest.drop 3).head?

/-- Whether a document ends or starts here. -/
def atDocumentEdge (s : Cursor) : Bool := s.atDocumentMark '-' || s.atDocumentMark '.'

/-! ## Tokens and levels -/

def push (s : Cursor) (token : Token) : Cursor := { s with tokens := token :: s.tokens }

/-- Puts a token behind the first `number` ones. -/
def insertAt (s : Cursor) (number : Nat) (token : Token) : Cursor :=
  let (later, earlier) := s.tokens.splitAt (s.tokens.length - number)
  { s with tokens := later ++ token :: earlier }

/-- Ends the blocks that start right of a column. -/
def closeLevels (column : Int) : Nat → Cursor → Cursor
  | 0, s => s
  | fuel + 1, s =>
    match s.levels with
    | level :: levels =>
      if s.indent > column then
        let s' := { s with indent := level.outer, levels }
        closeLevels column fuel (if level.ofBlock then s'.push .blockEnd else s')
      else s
    | [] => s

/-- Ends the blocks that start right of a column, unless a flow collection is open. -/
def unroll (column : Int) (s : Cursor) : Cursor :=
  if s.inFlow then s else closeLevels column s.levels.length s

/-- Ends the innermost levels that are not of blocks. -/
def unrollColumns (s : Cursor) : Cursor :=
  let columns := s.levels.takeWhile (fun level => !level.ofBlock)
  { s with
    indent := (columns.getLast?.map Level.outer).getD s.indent
    levels := s.levels.drop columns.length }

/-- Starts a block at a column, unless it has started. Its token goes behind the first `number`
ones, or to the end. -/
def roll (column : Nat) (number : Option Nat) (token : Token) (s : Cursor) : Cursor :=
  if s.inFlow then s
  else
    let s :=
      match s.levels with
      | level :: levels =>
        if s.indent ≤ (column : Int) && !level.ofBlock then
          { s with indent := level.outer, levels }
        else s
      | [] => s
    if s.indent < (column : Int) then
      let s := { s with indent := (column : Int), levels := ⟨s.indent, true⟩ :: s.levels }
      match number with
      | some n => s.insertAt n token
      | none => s.push token
    else s

/-- Asks for a column right of the innermost block. -/
def rollColumn (s : Cursor) : Cursor :=
  match s.levels with
  | level :: _ =>
    if !s.inFlow && level.ofBlock then
      { s with indent := s.indent + 1, levels := ⟨s.indent, false⟩ :: s.levels }
    else s
  | [] => s

/-! ## Candidates for keys -/

/-- Candidates in an earlier line or too far back are none any more. -/
def dropStale? (s : Cursor) : Option Cursor :=
  if s.inFlow then some s
  else
    let isStale := fun (k : KeyCandidate) =>
      k.isOpen && (k.line < s.line || k.index + 1024 < s.index)
    if s.candidates.any (fun k => isStale k && k.isRequired) then none
    else
      let close := fun (k : KeyCandidate) => if isStale k then { k with isOpen := false } else k
      some { s with candidates := s.candidates.map close }

/-- The token that starts here may be a key. -/
def saveKey (s : Cursor) : Cursor :=
  if s.keyAllowed then
    let isRequired := !s.inFlow && s.indent == s.column && s.levels.head?.any Level.ofBlock
    { s with
      candidates :=
        ⟨true, isRequired, s.tokens.length, s.index, s.line, s.column⟩ :: s.candidates.tail }
  else s

/-- The innermost candidate is none any more. -/
def removeKey? (s : Cursor) : Option Cursor :=
  match s.candidates with
  | k :: others =>
    if k.isOpen && k.isRequired then none
    else some { s with candidates := { k with isOpen := false } :: others }
  | [] => some s

def allowKey (s : Cursor) : Cursor := { s with keyAllowed := true }

def refuseKey (s : Cursor) : Cursor := { s with keyAllowed := false }

end Cursor

end EntitySchema.Yaml
