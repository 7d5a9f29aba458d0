import EntitySchema.Yaml.Token.Scalar

/-!
The tokens of a YAML text.
-/

namespace EntitySchema.Yaml

namespace Cursor

/-! ## Documents and directives -/

/-- A mark of documents. -/
def documentMark? (token : Token) (s : Cursor) : Option Cursor := do
  let s ← (s.unroll (-1)).removeKey?
  some ((s.refuseKey.skipMany 3).push token)

/-- The mark at the end of a document, after which the line ends. -/
def documentEnd? (s : Cursor) : Option Cursor := do
  let s ← s.documentMark? .documentEnd
  let (s, _) ← s.skipLine?
  if isLineEnd s.current then some s else none

/-- Digits at the start of a text. -/
def digits? (s : Cursor) : Option Cursor :=
  if s.current.any Char.isDigit then some (s.skipWhile Char.isDigit) else none

/-- The version that a text asks for. -/
def version? (s : Cursor) : Option Cursor := do
  let s ← digits? (s.skipWhile isBlank)
  if s.current == some '.' then do
    let s ← digits? s.skip
    some (s.push .version)
  else none

/-- The meaning of a handle. -/
def tagMeaning? (s : Cursor) : Option Cursor :=
  let s := s.skipWhile isBlank
  let handle := s.rest.takeWhile (fun c => c == '!' || isWordChar c)
  let s := s.skipMany handle.length
  let isHandle :=
    handle == ['!'] ||
      (handle.head? == some '!' && handle.getLast? == some '!' &&
        (handle.drop 1).dropLast.all isWordChar)
  if isHandle && s.current.any isBlank then
    let s := s.skipWhile isBlank
    let meaning := s.rest.takeWhile isUriChar
    let s := s.skipMany meaning.length
    if meaning.isEmpty || !isGap s.current then none
    else some (s.push (.tagMeaning (String.ofList handle) (String.ofList meaning)))
  else none

/-- A line that starts with `%`. One with another name is left out. -/
def directive? (s : Cursor) : Option Cursor := do
  let s ← (s.unroll (-1)).removeKey?
  let s := s.refuseKey.skip
  let name := s.rest.takeWhile (fun c => !isBlank c && !isBreak c)
  let s := s.skipMany name.length
  let s ←
    match String.ofList name with
    | "" => none
    | "YAML" => s.version?
    | "TAG" => s.tagMeaning?
    | _ => some (s.skipComment.push (.tagMeaning "" ""))
  let (s, _) ← s.skipLine?
  if isLineEnd s.current then some (if s.current.isSome then s.skipBreak else s) else none

/-! ## Flow collections -/

def openFlow? (kind : FlowKind) (token : Token) (s : Cursor) : Option Cursor := do
  let s := s.saveKey.rollColumn
  let s := { s with candidates := {} :: s.candidates, flows := kind :: s.flows }
  let (s, _) ← s.allowKey.skip.skipLine?
  some (s.push token)

def closeFlow? (token : Token) (s : Cursor) : Option Cursor := do
  let s ← s.removeKey?
  let s := if s.inFlow then { s with candidates := s.candidates.tail, flows := s.flows.tail } else s
  let (s, _) ← s.refuseKey.skip.skipLine?
  some ({ s with adjacentAt := if s.inFlow then some s.index else s.adjacentAt }.push token)

def flowEntry? (s : Cursor) : Option Cursor := do
  let s ← s.removeKey?
  let (s, _) ← s.allowKey.skip.skipLine?
  some (s.push .flowEntry)

/-! ## Blocks -/

/-- The dash before an item of a block. -/
def blockEntry? (s : Cursor) : Option Cursor := do
  if s.inFlow || !s.keyAllowed then none
  else
    let column := s.column
    let (s, tabs, _) ← (s.skip.roll column none .blockSequence).skipLine?
    if tabs && s.current == some '-' && isGap s.following then none
    else
      let s := if s.current.any (fun c => isBreak c || isFlowMark c) then s.rollColumn else s
      let s ← s.removeKey?
      some (s.allowKey.push .blockEntry)

/-- A question mark before a key. -/
def keyMark? (s : Cursor) : Option Cursor := do
  if !s.inFlow && !s.keyAllowed then none
  else
    let s ← (s.roll s.column none .blockMapping).removeKey?
    let s := if s.inFlow then s.refuseKey else s.allowKey
    let s := s.skip
    let spaces := s.rest.takeWhile (· == ' ')
    let s := spaces.foldl (fun s _ => s.skipBlank) s
    if s.current == some '\t' then none else some (s.push .key)

/-- Goes past a colon. A tab alone does not separate it from a text. -/
def skipColon? (s : Cursor) : Option Cursor :=
  let s := s.skip
  if s.current == some '\t' then do
    let (s, _, spaces) ← s.skipLine?
    if !spaces && s.current.any (fun c => c == '-' || c.isAlphanum) then none else some s
  else some s

/-- A colon, which makes a key of the candidate before it. -/
def valueMark? (s : Cursor) : Option Cursor := do
  let column := s.column
  let line := s.line
  let s ← s.skipColon?
  match s.candidates with
  | [] => none
  | k :: others =>
    if k.isOpen then
      if s.flows.head? == some .sequence && k.line < line then none
      else
        let s := (s.insertAt k.number .key).roll k.column (some k.number) .blockMapping
        let s := { s.rollColumn with candidates := { k with isOpen := false } :: others }
        some (s.refuseKey.push .value)
    else if s.inFlow then some (s.refuseKey.push .value)
    else if s.keyAllowed then
      some ((s.roll column none .blockMapping).rollColumn.allowKey.push .value)
    else none

/-! ## Names and tags -/

/-- An anchor or an alias. -/
def reference? (token : String → Token) (s : Cursor) : Option Cursor :=
  let s := s.saveKey.refuseKey.skip
  let name := s.rest.takeWhile isAnchorChar
  if name.isEmpty then none
  else some ((s.skipMany name.length).push (token (String.ofList name)))

/-- The handle and the suffix of a tag, and the number of its characters. -/
def tagParts? (cs : List Char) : Option (String × String × Nat) :=
  match cs with
  | '!' :: '<' :: rest =>
    let (uri, rest) := rest.span isUriChar
    if uri.isEmpty || rest.head? != some '>' then none
    else some ("", String.ofList uri, uri.length + 3)
  | '!' :: rest =>
    let (word, after) := rest.span isWordChar
    match after with
    | '!' :: after =>
      let suffix := after.takeWhile isTagChar
      if suffix.isEmpty then none
      else
        let width := word.length + suffix.length + 2
        some ("!" ++ String.ofList word ++ "!", String.ofList suffix, width)
    | _ =>
      let suffix := rest.takeWhile isTagChar
      if suffix.isEmpty then some ("", "!", 1)
      else some ("!", String.ofList suffix, suffix.length + 1)
  | _ => none

def tag? (s : Cursor) : Option Cursor := do
  let s := s.saveKey.refuseKey
  let (handle, suffix, width) ← tagParts? s.rest
  let s := s.skipMany width
  if isGap s.current || (s.inFlow && s.current.any isFlowMark) then
    some (s.push (.tag handle suffix))
  else none

/-! ## All tokens -/

/-- Ends all blocks at the end of the text. -/
def finish? (s : Cursor) : Option Cursor :=
  if s.candidates.any (fun k => k.isOpen && k.isRequired) then none
  else some (s.unroll (-1))

/-- Reads a token that starts with a character. -/
def token? (c : Char) (s : Cursor) : Option Cursor :=
  let next := s.following
  if c == '[' then s.openFlow? .sequence .flowSequence
  else if c == '\x7b' then s.openFlow? .mapping .flowMapping
  else if c == ']' then s.closeFlow? .flowSequenceEnd
  else if c == '\x7d' then s.closeFlow? .flowMappingEnd
  else if c == ',' then s.flowEntry?
  else if c == '-' && isGap next then s.blockEntry?
  else if c == '?' && isGap next then s.keyMark?
  else if c == ':' && (isGap next ||
      (s.inFlow && (endsOr isFlowMark next || s.adjacentAt == some s.index))) then
    s.valueMark?
  else if c == '*' then s.reference? .alias
  else if c == '&' then s.reference? .anchor
  else if c == '!' then s.tag?
  else if c == '|' && !s.inFlow then s.block? true
  else if c == '>' && !s.inFlow then s.block? false
  else if c == '\'' || c == '"' then s.quoted? c
  else if c == '%' || c == '@' || c == '\x60' then none
  else s.plain?

/-- Reads the tokens up to the end of the text. `fuel` bounds their number. -/
def tokens? : Nat → Cursor → Option Cursor
  | 0, _ => none
  | fuel + 1, s => do
    let s ← toToken? (s.rest.length + 1) s
    let s ← s.dropStale?
    let s := s.unroll s.column
    match s.current with
    | none => s.finish?
    | some c =>
      if s.column == 0 && c == '%' then s.directive?.bind (tokens? fuel)
      else if s.atDocumentMark '-' then (s.documentMark? .documentStart).bind (tokens? fuel)
      else if s.atDocumentMark '.' then s.documentEnd?.bind (tokens? fuel)
      else if (s.column : Int) < s.indent then none
      else (s.token? c).bind (tokens? fuel)

end Cursor

/-- The tokens of a text. It ends at the first zero character. -/
def Token.read? (text : String) : Option (List Token) :=
  let cs := text.toList.takeWhile (· != '\x00')
  (Cursor.tokens? (cs.length + 1) { rest := cs }).map (fun s => s.tokens.reverse)

end EntitySchema.Yaml
