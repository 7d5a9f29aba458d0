import EntitySchema.Number.Decimal

/-!
The tokens of the schema language and the places they stand at.
-/

namespace EntitySchema

/-- A place in a source: its file, and the line and the column, both counted from 1. Columns count
characters. -/
structure Position where
  file : String
  line : Nat
  column : Nat
  deriving DecidableEq, Repr, Inhabited

/-- The place as it stands in messages. -/
def Position.render (p : Position) : String :=
  p.file ++ ":" ++ Number.decimal p.line ++ ":" ++ Number.decimal p.column

/-- A token is a word, a punctuation mark or a quoted text. Quoted text never counts as a word of
the grammar, whatever it says. -/
structure Token where
  text : String
  position : Position
  quoted : Bool
  deriving DecidableEq, Repr, Inhabited

namespace Token

/-- The characters that are tokens by themselves. -/
def punctuation : List Char :=
  ['\x7b', '\x7d', '(', ')', ',', ';', ':', '<', '>', '=', '.']

def isPunctuationChar (c : Char) : Bool :=
  punctuation.contains c

/-- The token is this word of the grammar. -/
def is (t : Token) (word : String) : Bool :=
  !t.quoted && t.text == word

/-- The token is a punctuation mark. An escaped mark that stands alone counts as one. -/
def isPunctuation (t : Token) : Bool :=
  punctuation.any (fun c => t.is (String.singleton c))

/-- The token as it stands in messages. -/
def shown (t : Token) : String :=
  if t.quoted then "\"" ++ t.text ++ "\"" else t.text

end Token

end EntitySchema
