import EntitySchema.Text.Hexadecimal
import EntitySchema.Yaml.Token.Cursor

/-!
The texts of YAML: plain ones, those in quotes, and blocks of lines.
-/

namespace EntitySchema.Yaml

open Text (hexChar?)

/-- What stands between two parts of a text: blanks in a line, or line breaks. -/
structure Fold where
  blanks : List Char := []
  /-- The line goes on in another one. -/
  isBroken : Bool := false
  /-- The line breaks after the first. -/
  breaks : Nat := 0
  deriving DecidableEq, Repr, Inhabited

/-- A single line break is read as a blank, and of several the first does not count. -/
def Fold.render (f : Fold) : List Char :=
  if f.isBroken then if f.breaks = 0 then [' '] else List.replicate f.breaks '\n'
  else f.blanks ++ List.replicate f.breaks '\n'

namespace Cursor

/-! ## Plain texts -/

/-- Whether a plain text goes on with the first of two characters. -/
def isPlainChar (inFlow : Bool) (c : Char) (next : Option Char) : Bool :=
  if isBlank c || isBreak c then false
  else if c == ':' then !(isGap next || (inFlow && endsOr isFlowMark next))
  else !(inFlow && isFlowMark c)

/-- The part of a plain text up to a blank or to its end. -/
def plainPart (inFlow : Bool) : List Char → List Char
  | [] => []
  | c :: rest => if isPlainChar inFlow c rest.head? then c :: plainPart inFlow rest else []

/-- Goes past what is between two parts of a plain text. `fuel` bounds the number of steps. -/
def plainFold? (indent : Int) : Nat → Fold → Cursor → Option (Fold × Cursor)
  | 0, f, s => some (f, s)
  | fuel + 1, f, s =>
    match s.current with
    | some c =>
      if isBlank c then
        if !s.isLeading then plainFold? indent fuel { f with blanks := f.blanks ++ [c] } s.skipBlank
        else if (s.column : Int) < indent && c == '\t' then do
          let (s, _) ← s.skipLine?
          if isLineEnd s.current then plainFold? indent fuel f s else none
        else plainFold? indent fuel f s.skipBlank
      else if isBreak c then
        let f := if s.isLeading then { f with breaks := f.breaks + 1 } else ⟨[], true, f.breaks⟩
        plainFold? indent fuel f s.skipBreak
      else some (f, s)
    | none => some (f, s)

/-- The parts of a plain text after what is read of it. `fuel` bounds their number. -/
def plainParts? (indent : Int) : Nat → List Char → Fold → Cursor → Option (List Char × Cursor)
  | 0, _, _, _ => none
  | fuel + 1, text, f, s =>
    if s.atDocumentEdge || s.current == some '#' then some (text, s)
    else if s.inFlow && s.current == some '-' && s.following.any isFlowMark then none
    else
      let part := plainPart s.inFlow s.rest
      let (text, f) := if part.isEmpty then (text, f) else (text ++ f.render ++ part, {})
      let s := s.skipMany part.length
      match s.current with
      | some c =>
        if isBlank c || isBreak c then do
          let (f, s) ← plainFold? indent (s.rest.length + 1) f s
          if !s.inFlow && (s.column : Int) < indent then some (text, s)
          else plainParts? indent fuel text f s
        else some (text, s)
      | none => some (text, s)

def plain? (s : Cursor) : Option Cursor := do
  let s := s.saveKey.refuseKey.unrollColumns
  let indent := s.indent + 1
  if s.inFlow && (s.column : Int) < indent then none
  else
    let (text, s) ← plainParts? indent (s.rest.length + 1) [] {} s
    let s := if s.isLeading then s.allowKey else s
    if text.isEmpty then none else some (s.push (.scalar true (String.ofList text)))

/-! ## Texts in quotes -/

/-- The character that follows a backslash, and the number of characters it takes. -/
def escape? : List Char → Option (Char × Nat)
  | '0' :: _ => some ('\x00', 1)
  | 'a' :: _ => some ('\x07', 1)
  | 'b' :: _ => some ('\x08', 1)
  | 't' :: _ => some ('\t', 1)
  | '\t' :: _ => some ('\t', 1)
  | 'n' :: _ => some ('\n', 1)
  | 'v' :: _ => some ('\x0b', 1)
  | 'f' :: _ => some ('\x0c', 1)
  | 'r' :: _ => some ('\r', 1)
  | 'e' :: _ => some ('\x1b', 1)
  | ' ' :: _ => some (' ', 1)
  | '"' :: _ => some ('"', 1)
  | '/' :: _ => some ('/', 1)
  | '\\' :: _ => some ('\\', 1)
  | 'N' :: _ => some ('\u0085', 1)
  | '_' :: _ => some ('\u00a0', 1)
  | 'L' :: _ => some ('\u2028', 1)
  | 'P' :: _ => some ('\u2029', 1)
  | 'x' :: cs => (hexChar? 2 cs).map (fun (c, _) => (c, 3))
  | 'u' :: cs => (hexChar? 4 cs).map (fun (c, _) => (c, 5))
  | 'U' :: cs => (hexChar? 8 cs).map (fun (c, _) => (c, 9))
  | _ => none

/-- The part of a text in quotes up to a blank or to its end. The flag tells whether a backslash
before a line break ends it. `fuel` bounds the number of characters. -/
def quotedPart? (quote : Char) : Nat → List Char → Cursor → Option (List Char × Bool × Cursor)
  | 0, text, s => some (text, false, s)
  | fuel + 1, text, s =>
    match s.current with
    | none => some (text, false, s)
    | some c =>
      if isBlank c || isBreak c then some (text, false, s)
      else if c == quote then
        if quote == '\'' && s.following == some '\'' then
          quotedPart? quote fuel (text ++ [c]) (s.skipMany 2)
        else some (text, false, s)
      else if c == '\\' && quote == '"' then
        match s.following with
        | some next =>
          if isBreak next then some (text, true, s.skip.skipBreak)
          else do
            let (c, width) ← escape? s.rest.tail
            quotedPart? quote fuel (text ++ [c]) (s.skipMany (width + 1))
        | none => none
      else quotedPart? quote fuel (text ++ [c]) s.skip

/-- Goes past what is between two parts of a text in quotes. The flag tells whether a line has
ended. `fuel` bounds the number of steps. -/
def quotedFold? : Nat → Bool → Fold → Cursor → Option (Fold × Cursor)
  | 0, _, f, s => some (f, s)
  | fuel + 1, ended, f, s =>
    match s.current with
    | some c =>
      if isBlank c then
        if ended then
          if c == '\t' && (s.column : Int) < s.indent then none
          else quotedFold? fuel ended f s.skipBlank
        else quotedFold? fuel ended { f with blanks := f.blanks ++ [c] } s.skipBlank
      else if isBreak c then
        let f := if ended then { f with breaks := f.breaks + 1 } else ⟨[], true, f.breaks⟩
        quotedFold? fuel true f s.skipBreak
      else some (f, s)
    | none => some (f, s)

/-- The rest of a text in quotes, up to the closing quote. `fuel` bounds the number of parts. -/
def quotedParts? (quote : Char) : Nat → List Char → Cursor → Option (List Char × Cursor)
  | 0, _, _ => none
  | fuel + 1, text, s =>
    if s.atDocumentEdge || s.current.isNone || (s.column : Int) < s.indent then none
    else do
      let (text, ended, s) ← quotedPart? quote (s.rest.length + 1) text s
      if s.current == some quote then some (text, s.skip)
      else
        let (f, s) ← quotedFold? (s.rest.length + 1) ended {} s
        quotedParts? quote fuel (text ++ f.render) s

/-- Whether the text in quotes that starts in this line may be followed by what is here. -/
def endsQuoted (line : Nat) (s : Cursor) : Bool :=
  match s.current with
  | none => true
  | some c =>
    isBreak c || (s.inFlow && (c == ',' || c == '\x7d' || c == ']' || c == ':')) ||
      (c == ':' && !s.inFlow && line == s.line)

def quoted? (quote : Char) (s : Cursor) : Option Cursor := do
  let s := s.saveKey.refuseKey
  let line := s.line
  let (text, s) ← quotedParts? quote (s.rest.length + 1) [] s.skip
  let (s, _) ← s.skipLine?
  if s.endsQuoted line then
    let s ← toToken? (s.rest.length + 1) s
    some ({ s with adjacentAt := some s.index }.push (.scalar false (String.ofList text)))
  else none

/-! ## Blocks of lines -/

/-- What happens to the line breaks at the end of a block. -/
inductive Chomping where
  | strip
  | clip
  | keep
  deriving DecidableEq, Repr

/-- How a block of lines is read. -/
structure BlockHeader where
  chomping : Chomping := .clip
  /-- The columns by which the lines are moved in, if the header tells. -/
  increment : Nat := 0
  deriving DecidableEq, Repr

def chomping? : Option Char → Option Chomping
  | some '+' => some .keep
  | some '-' => some .strip
  | _ => none

/-- A digit that is not zero. -/
def increment? : Option Char → Option Nat
  | some c => if c.isDigit && c != '0' then some (c.toNat - '0'.toNat) else none
  | none => none

/-- The header of a block, whose marks stand in any order. -/
def blockHeader? (s : Cursor) : Option (BlockHeader × Cursor) :=
  let finish := fun (header : BlockHeader) (s : Cursor) =>
    if s.current == some '0' then none else some (header, s)
  match chomping? s.current, increment? s.current with
  | some chomping, _ =>
    match increment? s.skip.current with
    | some n => some (⟨chomping, n⟩, s.skip.skip)
    | none => finish ⟨chomping, 0⟩ s.skip
  | none, some n =>
    match chomping? s.skip.current with
    | some chomping => some (⟨chomping, n⟩, s.skip.skip)
    | none => some (⟨.clip, n⟩, s.skip)
  | none, none => finish {} s

/-- Goes past the indentation of the next line that is not empty, at most `indent` columns wide.
`fuel` bounds the number of lines. -/
def skipIndent (indent : Nat) : Nat → Nat → Cursor → Nat × Cursor
  | 0, breaks, s => (breaks, s)
  | fuel + 1, breaks, s =>
    let width := ((s.rest.takeWhile (· == ' ')).take (indent - s.column)).length
    let s := { s.skipMany width with isLeading := s.isLeading }
    if s.current.any isBreak then skipIndent indent fuel (breaks + 1) s.skipBreak
    else (breaks, s)

/-- Goes past the indentation of the first line that is not empty, and tells the widest one up to
there. `fuel` bounds the number of lines. -/
def skipFirstIndent : Nat → Nat → Nat → Cursor → Nat × Nat × Cursor
  | 0, widest, breaks, s => (widest, breaks, s)
  | fuel + 1, widest, breaks, s =>
    let width := (s.rest.takeWhile (· == ' ')).length
    let s := { s.skipMany width with isLeading := s.isLeading }
    let widest := max widest s.column
    if s.current.any isBreak then
      skipFirstIndent fuel widest (breaks + 1) s.skipBreak
    else (widest, breaks, s)

/-- The lines of a block so far, and the line breaks after them. -/
structure BlockText where
  text : List Char := []
  /-- The last line has ended. -/
  isBroken : Bool := false
  /-- The line breaks after that. -/
  breaks : Nat := 0
  /-- The last line starts with a blank. -/
  isIndented : Bool := false
  deriving DecidableEq, Repr

/-- What stands between the lines so far and the next one. -/
def BlockText.join (literal nextIndented : Bool) (b : BlockText) : List Char :=
  let breaks := List.replicate b.breaks '\n'
  if !literal && b.isBroken && !b.isIndented && !nextIndented then
    if b.breaks = 0 then [' '] else breaks
  else (if b.isBroken then ['\n'] else []) ++ breaks

/-- The lines of a block that starts at a column. `fuel` bounds their number. -/
def blockLines (literal : Bool) (indent : Nat) : Nat → BlockText → Cursor → BlockText × Cursor
  | 0, b, s => (b, s)
  | fuel + 1, b, s =>
    match s.current with
    | none => (b, s)
    | some c =>
      if s.column != indent || (indent == 0 && s.atDocumentEdge) then (b, s)
      else
        let line := s.rest.takeWhile (fun c => !isBreak c)
        let text := b.text ++ b.join literal (isBlank c) ++ line
        let s := s.skipMany line.length
        if s.current.isNone then (⟨text, false, 0, isBlank c⟩, s)
        else
          let (breaks, s) := skipIndent indent (s.rest.length + 1) 0 s.skipBreak
          blockLines literal indent fuel ⟨text, true, breaks, isBlank c⟩ s

/-- The line breaks at the end of a block. -/
def BlockText.tail (chomping : Chomping) (indent : Nat) (s : Cursor) (b : BlockText) : List Char :=
  let last :=
    (if b.isBroken then ['\n'] else []) ++
      (if s.current.isNone && s.column ≥ max indent 1 then ['\n'] else [])
  match chomping with
  | .strip => []
  | .clip => last
  | .keep => last ++ List.replicate b.breaks '\n'

/-- The text of a block without lines at the end of the text, after `breaks` line breaks. -/
def emptyBlock (chomping : Chomping) (hasBreak : Bool) (breaks : Nat) : List Char :=
  match chomping with
  | .strip => []
  | .clip => if hasBreak then ['\n'] else []
  | .keep => if hasBreak then List.replicate (max breaks 1) '\n' else []

def block? (literal : Bool) (s : Cursor) : Option Cursor := do
  let s := s.saveKey.allowKey.skip.unrollColumns
  let (header, s) ← s.blockHeader?
  let (s, _) ← s.skipLine?
  if !isLineEnd s.current then none
  else
    let hasBreak := s.current.isSome
    let s := if hasBreak then s.skipBreak else s
    if s.current == some '\t' then none
    else
      let (indent, breaks, s) :=
        if header.increment > 0 then
          let indent := (if s.indent ≥ 0 then s.indent.toNat else 0) + header.increment
          let (breaks, s) := skipIndent indent (s.rest.length + 1) 0 s
          (indent, breaks, s)
        else
          let (widest, breaks, s) := skipFirstIndent (s.rest.length + 1) 0 0 s
          (max widest (s.indent + 1).toNat, breaks, s)
      if s.current.isNone then
        let text := emptyBlock header.chomping hasBreak breaks
        some (s.push (.scalar false (String.ofList text)))
      else if s.column < indent && (s.column : Int) > s.indent then none
      else
        let (b, s) := blockLines literal indent (s.rest.length + 1) { breaks } s
        let text := b.text ++ b.tail header.chomping indent s
        some (s.push (.scalar false (String.ofList text)))

end Cursor

end EntitySchema.Yaml
