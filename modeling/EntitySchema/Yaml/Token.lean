/-!
The marks and texts that a YAML text consists of. The levels of blocks, which the text shows by
columns only, are tokens too.
-/

namespace EntitySchema.Yaml

inductive Token where
  | version
  /-- What a tag that starts with `handle` stands for. -/
  | tagMeaning (handle meaning : String)
  | documentStart
  | documentEnd
  | blockSequence
  | blockMapping
  | blockEnd
  | flowSequence
  | flowSequenceEnd
  | flowMapping
  | flowMappingEnd
  | blockEntry
  | flowEntry
  | key
  | value
  | alias (name : String)
  | anchor (name : String)
  | tag (handle suffix : String)
  /-- A text. Only a plain one can stand for something else than a text. -/
  | scalar (plain : Bool) (text : String)
  deriving DecidableEq, Repr, Inhabited

/-! ## Characters -/

def isBlank (c : Char) : Bool := c == ' ' || c == '\t'

def isBreak (c : Char) : Bool := c == '\n' || c == '\r'

/-- A mark of a flow collection. -/
def isFlowMark (c : Char) : Bool :=
  c == ',' || c == '[' || c == ']' || c == '\x7b' || c == '\x7d'

/-- Whether there is no character, or one that a condition holds of. -/
def endsOr (holds : Char → Bool) : Option Char → Bool
  | none => true
  | some c => holds c

/-- A blank, a line break or the end of the text. -/
def isGap (c : Option Char) : Bool := endsOr (fun c => isBlank c || isBreak c) c

/-- A line break or the end of the text. -/
def isLineEnd (c : Option Char) : Bool := endsOr isBreak c

def isWordChar (c : Char) : Bool := c.isAlphanum || c == '_' || c == '-'

/-- A character of the name of an anchor. -/
def isAnchorChar (c : Char) : Bool := !isBlank c && !isBreak c && !isFlowMark c

def isUriChar (c : Char) : Bool := isWordChar c || "#;/?:@&=+$,.!~*'()[]%".toList.contains c

def isTagChar (c : Char) : Bool := isUriChar c && !isFlowMark c && c != '!'

end EntitySchema.Yaml
