import EntitySchema.Number.Double
import EntitySchema.Yaml.Token.Lexer

/-!
The values that a YAML text describes, one for each document in it.
-/

namespace EntitySchema.Yaml

open Number

inductive Node where
  | null
  /-- A value that its tag does not fit, or a reference to a value within itself. -/
  | invalid
  | bool (b : Bool)
  | integer (n : Int)
  /-- A number with a fraction or a power, as it is written. -/
  | real (text : String)
  | text (s : String)
  | sequence (items : List Node)
  | mapping (fields : List (Node × Node))
  deriving Repr, Inhabited, BEq

namespace Node

/-! ## Texts that stand for something else -/

def infinities : List String := [".inf", ".Inf", ".INF", "+.inf", "+.Inf", "+.INF"]

def negativeInfinities : List String := ["-.inf", "-.Inf", "-.INF"]

def notNumbers : List String := [".nan", "NaN", ".NAN"]

/-- Whether a text is written as a number with a fraction or a power. -/
def isReal (s : String) : Bool :=
  (infinities ++ negativeInfinities ++ notNumbers).contains s ||
    (s.toList.any Char.isDigit && (Double.read? s).isSome)

/-- A number in another base. It may have a sign after the mark of the base. -/
def ofBase? (base : Nat) (cs : List Char) : Option Node := do
  let (negative, digits) := Double.sign cs
  let values ← digits.mapM Text.hexValue?
  let size := values.foldl (fun n v => n * base + v) 0
  let n : Int := if negative then -(size : Int) else size
  if values.isEmpty || values.any (· ≥ base) || n < minSigned || n > maxSigned then none
  else some (integer n)

def ofMarkedBase? (s : String) : Option Node :=
  match s.toList with
  | '0' :: 'x' :: rest => ofBase? 16 rest
  | '0' :: 'o' :: rest => ofBase? 8 rest
  | '+' :: rest => (readSigned (String.ofList rest)).map integer
  | _ => none

/-- What a plain text without a tag stands for. -/
def ofPlain (s : String) : Node :=
  match ofMarkedBase? s with
  | some node => node
  | none =>
    if s == "" || s == "~" || s == "null" then null
    else if s == "true" then bool true
    else if s == "false" then bool false
    else
      match readSigned s with
      | some n => integer n
      | none => if isReal s then real s else text s

/-- What a plain text with one of the common tags stands for. -/
def ofTagged (suffix s : String) : Node :=
  match suffix with
  | "bool" => if s == "true" then bool true else if s == "false" then bool false else invalid
  | "int" =>
    match readSigned s with
    | some n => integer n
    | none => invalid
  | "float" => if isReal s then real s else invalid
  | "null" => if s == "~" || s == "null" then null else invalid
  | _ => text s

/-! ## Reading tokens -/

/-- The meaning of the common tags. -/
def commonTag : String := "tag:yaml.org,2002:"

/-- What is known while a document is read. -/
structure Names where
  /-- The meanings of handles. -/
  handles : List (String × String) := []
  /-- The values that have a name, the latest first. -/
  anchors : List (String × Node) := []
  deriving Repr, Inhabited

/-- The meaning of a tag: that of its handle, and its suffix. -/
def Names.resolve? (names : Names) (handle suffix : String) : Option (String × String) :=
  match names.handles.lookup handle with
  | some meaning => some (meaning, suffix)
  | none =>
    if handle == "!!" then some (commonTag, suffix)
    else if handle.length ≥ 2 then none
    else some (handle, suffix)

/-- The anchor and the tag before a value. -/
structure Properties where
  anchor : Option String := none
  tag : Option (String × String) := none
  deriving DecidableEq, Repr, Inhabited

/-- The value of a text with these properties. -/
def Properties.scalar (p : Properties) (plain : Bool) (s : String) : Node :=
  match plain, p.tag with
  | false, _ => text s
  | true, some (meaning, suffix) => if meaning == commonTag then ofTagged suffix s else text s
  | true, none => ofPlain s

/-- An anchor and a tag at the start of the tokens, in any order. -/
def properties? (names : Names) (tokens : List Token) : Option (Properties × List Token) :=
  match tokens with
  | .anchor name :: .tag handle suffix :: rest
  | .tag handle suffix :: .anchor name :: rest =>
    (names.resolve? handle suffix).map (fun tag => (⟨some name, some tag⟩, rest))
  | .anchor name :: rest => some (⟨some name, none⟩, rest)
  | .tag handle suffix :: rest =>
    (names.resolve? handle suffix).map (fun tag => (⟨none, some tag⟩, rest))
  | rest => some ({}, rest)

/-- A value may be a block, and a block may be a sequence at the column of its key. -/
structure Place where
  allowsBlock : Bool
  allowsEntries : Bool := false
  deriving DecidableEq, Repr

def inFlow : Place := ⟨false, false⟩

def inSequence : Place := ⟨true, false⟩

def inMapping : Place := ⟨true, true⟩

/-- Adds a field. No key may be there twice. -/
def addField? (fields : List (Node × Node)) (key value : Node) : Option (List (Node × Node)) :=
  if fields.any (fun f => f.1 == key) then none else some (fields ++ [(key, value)])

/-- Whether the first token is one of some. -/
def startsWith (marks : List Token) (tokens : List Token) : Bool :=
  match tokens with
  | token :: _ => marks.contains token
  | [] => true

/-- The state of reading: what is known, and the tokens that are left. -/
abbrev Rest := Names × List Token

mutual

/-- A value at the start of the tokens. `fuel` bounds the number of steps. -/
def node? : Nat → Place → Rest → Option (Node × Rest)
  | 0, _, _ => none
  | _ + 1, _, (names, .alias name :: rest) =>
    (names.anchors.lookup name).map (fun node => (node, names, rest))
  | fuel + 1, place, (names, tokens) => do
    let (p, tokens) ← properties? names tokens
    let names :=
      match p.anchor with
      | some name => { names with anchors := (name, invalid) :: names.anchors }
      | none => names
    let (node, names, tokens) ← content? fuel place p (names, tokens)
    match p.anchor with
    | some name => some (node, { names with anchors := (name, node) :: names.anchors }, tokens)
    | none => some (node, names, tokens)

/-- A value after its properties. With properties it may be empty. -/
def content? : Nat → Place → Properties → Rest → Option (Node × Rest)
  | 0, _, _, _ => none
  | fuel + 1, place, p, (names, tokens) =>
    match tokens with
    | .scalar plain s :: rest => some (p.scalar plain s, names, rest)
    | .flowSequence :: rest => flowItems? fuel true [] (names, rest)
    | .flowMapping :: rest => flowFields? fuel true [] (names, rest)
    | .blockSequence :: rest =>
      if place.allowsBlock then blockItems? fuel [] (names, rest) else none
    | .blockMapping :: rest =>
      if place.allowsBlock then blockFields? fuel [] (names, rest) else none
    | .blockEntry :: _ =>
      if place.allowsEntries then entries? fuel [] (names, tokens)
      else if p == {} then none
      else some (p.scalar true "", names, tokens)
    | tokens => if p == {} then none else some (p.scalar true "", names, tokens)

/-- A value, or none before one of some tokens. -/
def nodeOrNull? : Nat → Place → List Token → Rest → Option (Node × Rest)
  | 0, _, _, _ => none
  | fuel + 1, place, marks, (names, tokens) =>
    if startsWith marks tokens then some (null, names, tokens)
    else node? fuel place (names, tokens)

/-- The items of a block, up to its end. -/
def blockItems? : Nat → List Node → Rest → Option (Node × Rest)
  | 0, _, _ => none
  | fuel + 1, items, (names, tokens) =>
    match tokens with
    | .blockEnd :: rest => some (sequence items, names, rest)
    | .blockEntry :: rest => do
      let (item, rest) ← nodeOrNull? fuel inSequence [.blockEntry, .blockEnd] (names, rest)
      blockItems? fuel (items ++ [item]) rest
    | _ => none

/-- The items of a sequence at the column of its key. -/
def entries? : Nat → List Node → Rest → Option (Node × Rest)
  | 0, _, _ => none
  | fuel + 1, items, (names, tokens) =>
    match tokens with
    | .blockEntry :: rest => do
      let (item, rest) ←
        nodeOrNull? fuel inSequence [.blockEntry, .key, .value, .blockEnd] (names, rest)
      entries? fuel (items ++ [item]) rest
    | tokens => some (sequence items, names, tokens)

/-- The fields of a block, up to its end. -/
def blockFields? : Nat → List (Node × Node) → Rest → Option (Node × Rest)
  | 0, _, _ => none
  | fuel + 1, fields, (names, tokens) =>
    match tokens with
    | .blockEnd :: rest => some (mapping fields, names, rest)
    | .key :: rest => do
      let (key, rest) ← nodeOrNull? fuel inMapping [.key, .value, .blockEnd] (names, rest)
      let (value, rest) ← blockValue? fuel rest
      let fields ← addField? fields key value
      blockFields? fuel fields rest
    | .value :: _ => do
      let (value, rest) ← blockValue? fuel (names, tokens)
      let fields ← addField? fields null value
      blockFields? fuel fields rest
    | _ => none

/-- The value of a field of a block. -/
def blockValue? : Nat → Rest → Option (Node × Rest)
  | 0, _ => none
  | fuel + 1, (names, tokens) =>
    match tokens with
    | .value :: rest => nodeOrNull? fuel inMapping [.key, .value, .blockEnd] (names, rest)
    | tokens => some (null, names, tokens)

/-- The items of a flow collection, up to its end. -/
def flowItems? : Nat → Bool → List Node → Rest → Option (Node × Rest)
  | 0, _, _, _ => none
  | fuel + 1, first, items, (names, tokens) =>
    let tokens? :=
      match first, tokens with
      | true, tokens => some tokens
      | false, .flowEntry :: rest => some rest
      | false, .flowSequenceEnd :: rest => some (.flowSequenceEnd :: rest)
      | false, _ => none
    match tokens? with
    | none => none
    | some (.flowSequenceEnd :: rest) => some (sequence items, names, rest)
    | some (.key :: rest) => do
      let marks := [Token.value, .flowEntry, .flowSequenceEnd]
      let (key, rest) ← nodeOrNull? fuel inFlow marks (names, rest)
      let (value, rest) ← flowValue? fuel rest
      flowItems? fuel false (items ++ [mapping [(key, value)]]) rest
    | some (.value :: rest) => do
      let (value, rest) ← flowValue? fuel (names, .value :: rest)
      flowItems? fuel false (items ++ [mapping [(null, value)]]) rest
    | some tokens => do
      let (item, rest) ← node? fuel inFlow (names, tokens)
      flowItems? fuel false (items ++ [item]) rest

/-- The fields of a flow collection, up to its end. -/
def flowFields? : Nat → Bool → List (Node × Node) → Rest → Option (Node × Rest)
  | 0, _, _, _ => none
  | fuel + 1, first, fields, (names, tokens) =>
    let tokens? :=
      match first, tokens with
      | true, tokens => some tokens
      | false, .flowEntry :: rest => some rest
      | false, .flowMappingEnd :: rest => some (.flowMappingEnd :: rest)
      | false, _ => none
    match tokens? with
    | none => none
    | some (.flowMappingEnd :: rest) => some (mapping fields, names, rest)
    | some (.key :: rest) => do
      let marks := [Token.value, .flowEntry, .flowMappingEnd]
      let (key, rest) ← nodeOrNull? fuel inFlow marks (names, rest)
      let (value, rest) ← flowValue? fuel rest
      let fields ← addField? fields key value
      flowFields? fuel false fields rest
    | some (.value :: rest) => do
      let (value, rest) ← flowValue? fuel (names, .value :: rest)
      let fields ← addField? fields null value
      flowFields? fuel false fields rest
    | some tokens => do
      let (key, rest) ← node? fuel inFlow (names, tokens)
      let fields ← addField? fields key null
      flowFields? fuel false fields rest

/-- The value of a field of a flow collection. -/
def flowValue? : Nat → Rest → Option (Node × Rest)
  | 0, _ => none
  | fuel + 1, (names, tokens) =>
    match tokens with
    | .value :: rest =>
      nodeOrNull? fuel inFlow [.flowEntry, .flowMappingEnd, .flowSequenceEnd] (names, rest)
    | tokens => some (null, names, tokens)

end

/-! ## Documents -/

/-- The directives before a document: whether there is a version, and the meanings of handles. -/
def directives? : Bool → List (String × String) → List Token →
    Option (List (String × String) × List Token)
  | hasVersion, handles, .version :: rest =>
    if hasVersion then none else directives? true handles rest
  | hasVersion, handles, .tagMeaning handle meaning :: rest =>
    if (handles.lookup handle).isSome then none
    else directives? hasVersion ((handle, meaning) :: handles) rest
  | _, handles, tokens => some (handles, tokens)

/-- Whether a document has nothing in it. -/
def startsEmpty : List Token → Bool
  | [] => true
  | .version :: _ => true
  | .tagMeaning _ _ :: _ => true
  | .documentStart :: _ => true
  | .documentEnd :: _ => true
  | _ => false

/-- The value of a document after its start. -/
def document? (handles : List (String × String)) (tokens : List Token) :
    Option (Node × List Token) :=
  if startsEmpty tokens then some (null, tokens)
  else
    (node? (4 * tokens.length + 4) inSequence ({ handles }, tokens)).map
      (fun (node, _, tokens) => (node, tokens))

/-- The documents of a text. One that follows another without an end needs a start. `fuel` bounds
their number. -/
def documents? : Nat → Bool → List Token → Option (List Node)
  | 0, _, _ => none
  | fuel + 1, ended, tokens =>
    match tokens.dropWhile (· == .documentEnd) with
    | [] => some []
    | tokens' => do
      let ended := ended || tokens.head? == some .documentEnd
      let (handles, rest) ← directives? false [] tokens'
      let rest ←
        match rest with
        | .documentStart :: rest => some rest
        | rest => if ended && rest.length == tokens'.length then some rest else none
      let (node, rest) ← document? handles rest
      let (ended, rest) ←
        match rest with
        | .documentEnd :: rest => some (true, rest)
        | .version :: _ => none
        | .tagMeaning _ _ :: _ => none
        | rest => some (false, rest)
      let others ← documents? fuel ended rest
      some (node :: others)

/-- Reads the documents of a text. -/
def read? (text : String) : Option (List Node) := do
  let tokens ← Token.read? text
  documents? (tokens.length + 1) true tokens

end Node

end EntitySchema.Yaml
