import EntitySchema.Text.Alphabetic
import EntitySchema.Text.LetterCase

/-!
Names in snake case: the words of a name in lowercase, joined by underscores. A name is cut into
words at every character that is neither letter nor number, between a lowercase letter and an
uppercase one, and before the last of several uppercase letters when a lowercase one follows, so
that `XMLNode` has the words `xml` and `node`.
-/

namespace EntitySchema.Text

/-- The case of the letters of the word being read, as far as it has any. -/
inductive WordCase where
  | boundary
  | lower
  | upper
  deriving DecidableEq, Repr

/-- The case of the word after `c`. -/
def WordCase.after (c : Char) (case : WordCase) : WordCase :=
  if isLowercase c then .lower
  else if isUppercase c then .upper
  else case

/-- The words of a piece of letters and numbers that is not empty. The word being read is `word`,
its last character first. -/
def wordsOfPiece (case : WordCase) (word : List Char) : List Char → List (List Char)
  | [] => [word.reverse]
  | [c] => [(c :: word).reverse]
  | c :: n :: rest =>
    let next := case.after c
    if next = .lower ∧ isUppercase n then
      (c :: word).reverse :: wordsOfPiece .boundary [] (n :: rest)
    else if case = .upper ∧ isUppercase c ∧ isLowercase n then
      word.reverse :: wordsOfPiece .boundary [c] (n :: rest)
    else wordsOfPiece next (c :: word) (n :: rest)

/-- The maximal runs of letters and numbers. -/
def piecesOf : List Char → List (List Char)
  | [] => [[]]
  | c :: rest =>
    match piecesOf rest with
    | [] => [[]]
    | piece :: pieces =>
      if isAlphanumeric c then (c :: piece) :: pieces else [] :: piece :: pieces

/-- The words of a name. -/
def wordsOf (cs : List Char) : List (List Char) :=
  ((piecesOf cs).filter (fun piece => !piece.isEmpty)).flatMap (wordsOfPiece .boundary [])

/-- A word in lowercase. A capital sigma that ends the word takes its final form. -/
def lowercaseWord : List Char → List Char
  | [] => []
  | [c] => if c = 'Σ' then ['ς'] else lowercaseChar c
  | c :: rest => lowercaseChar c ++ lowercaseWord rest

/-- The name in snake case. -/
def snakeCase (s : String) : String :=
  "_".intercalate ((wordsOf s.toList).map (fun word => String.ofList (lowercaseWord word)))

end EntitySchema.Text
