import EntitySchema.Token

/-!
From source text to tokens. Blanks separate tokens, a punctuation mark is a token by itself, two
slashes start a comment that runs to the end of the line, a backslash takes the next character as it
is, and double quotes enclose a text in which nothing but the backslash is special.
-/

namespace EntitySchema

/-- The one way in which reading tokens fails: a quote opened at this place is never closed. -/
inductive LexError where
  | unterminatedText (position : Position)
  deriving DecidableEq, Repr

def LexError.message : LexError → String
  | .unterminatedText position => position.render ++ ": unterminated string literal"

namespace Lexer

/-- A place in the text being read. -/
structure Cursor where
  line : Nat
  column : Nat
  deriving DecidableEq, Repr

namespace Cursor

def start : Cursor := ⟨1, 1⟩

/-- The place after one character. -/
def next (k : Cursor) (c : Char) : Cursor :=
  if c = '\n' then ⟨k.line + 1, 1⟩ else ⟨k.line, k.column + 1⟩

/-- The place after a run of characters. -/
def past (k : Cursor) (cs : List Char) : Cursor :=
  cs.foldl next k

/-- The place, named with its file. -/
def inFile (k : Cursor) (file : String) : Position :=
  ⟨file, k.line, k.column⟩

end Cursor

/-- The blanks between tokens. Other blanks of Unicode are ordinary characters. -/
def isSpace (c : Char) : Bool :=
  c == ' ' || c == '\n' || c == '\t' || c == '\r'

def startsComment : List Char → Bool
  | '/' :: '/' :: _ => true
  | _ => false

/-- Whether a word stops before these characters. -/
def endsWord : List Char → Bool
  | [] => true
  | c :: rest =>
    isSpace c || startsComment (c :: rest) || Token.isPunctuationChar c || c == '"'

/-- A text that was read, the characters after it, and the place where they start. -/
structure Piece where
  text : List Char
  rest : List Char
  cursor : Cursor

/-- The same piece with one more character in front. -/
def Piece.cons (c : Char) (p : Piece) : Piece :=
  { p with text := c :: p.text }

/-- The rest of a word whose first character has been read. -/
def word (k : Cursor) : List Char → Piece
  | [] => ⟨[], [], k⟩
  | ['\\'] => ⟨[], [], k.next '\\'⟩
  | '\\' :: c :: rest => (word ((k.next '\\').next c) rest).cons c
  | c :: rest =>
    if endsWord (c :: rest) then ⟨[], c :: rest, k⟩ else (word (k.next c) rest).cons c

/-- The rest of a quoted text whose opening quote has been read, if the text is closed. -/
def quotedText (k : Cursor) : List Char → Option Piece
  | [] => none
  | ['\\'] => none
  | '\\' :: c :: rest => (quotedText ((k.next '\\').next c) rest).map (Piece.cons c)
  | '"' :: rest => some ⟨[], rest, k.next '"'⟩
  | c :: rest => (quotedText (k.next c) rest).map (Piece.cons c)

theorem word_rest_length (k : Cursor) (cs : List Char) :
    (word k cs).rest.length ≤ cs.length := by
  fun_induction word k cs with
  | case1 => simp
  | case2 => simp
  | case3 k c rest ih => simp only [Piece.cons, List.length_cons]; omega
  | case4 => simp
  | case5 k c rest _ _ _ ih => simp only [Piece.cons, List.length_cons]; omega

theorem quotedText_rest_length {k : Cursor} {cs : List Char} {p : Piece}
    (h : quotedText k cs = some p) : p.rest.length < cs.length := by
  fun_induction quotedText k cs generalizing p with
  | case1 => simp at h
  | case2 => simp at h
  | case3 k c rest ih =>
    obtain ⟨q, hq, rfl⟩ := Option.map_eq_some_iff.1 h
    have := ih hq
    simp only [Piece.cons, List.length_cons]; omega
  | case4 k rest => simp at h; subst h; simp
  | case5 k c rest _ _ _ ih =>
    obtain ⟨q, hq, rfl⟩ := Option.map_eq_some_iff.1 h
    have := ih hq
    simp only [Piece.cons, List.length_cons]; omega

theorem dropWhile_length_le (p : Char → Bool) (cs : List Char) :
    (cs.dropWhile p).length ≤ cs.length :=
  (List.dropWhile_sublist p).length_le

/-- The tokens of the characters that start at `k`. -/
def tokensFrom (file : String) (k : Cursor) (cs : List Char) : Except LexError (List Token) :=
  match cs with
  | [] => .ok []
  | c :: rest =>
    if isSpace c then tokensFrom file (k.next c) rest
    else if startsComment (c :: rest) then
      tokensFrom file ((k.next c).past (rest.takeWhile (· ≠ '\n'))) (rest.dropWhile (· ≠ '\n'))
    else if Token.isPunctuationChar c then
      (tokensFrom file (k.next c) rest).map
        (⟨String.singleton c, k.inFile file, false⟩ :: ·)
    else if c = '"' then
      match _h : quotedText (k.next c) rest with
      | none => .error (.unterminatedText (k.inFile file))
      | some p =>
        (tokensFrom file p.cursor p.rest).map (⟨String.ofList p.text, k.inFile file, true⟩ :: ·)
    else if c = '\\' then
      match rest with
      | [] => .ok []
      | e :: more =>
        let p := word ((k.next c).next e) more
        (tokensFrom file p.cursor p.rest).map
          (⟨String.ofList (e :: p.text), k.inFile file, false⟩ :: ·)
    else
      let p := word (k.next c) rest
      (tokensFrom file p.cursor p.rest).map
        (⟨String.ofList (c :: p.text), k.inFile file, false⟩ :: ·)
termination_by cs.length
decreasing_by
  all_goals simp only [List.length_cons]
  · omega
  · have := dropWhile_length_le (· ≠ '\n') rest; omega
  · omega
  · have := quotedText_rest_length _h; omega
  · have := word_rest_length ((k.next c).next e) more; omega
  · have := word_rest_length (k.next c) rest; omega

end Lexer

/-- The tokens of a source. -/
def tokenize (file : String) (source : String) : Except LexError (List Token) :=
  Lexer.tokensFrom file .start source.toList

end EntitySchema
