import EntitySchema.Files.FileTree
import EntitySchema.Schema.SyntaxError
import EntitySchema.Token.Lexer

/-!
Why reading schema files fails.
-/

namespace EntitySchema

inductive ReadError where
  | lexical (e : LexError)
  | grammar (file : String) (e : SyntaxError)
  /-- A file includes itself, directly or through others. -/
  | includeCycle (position : Position) (path : Path)
  | missingInclude (position : Position) (path : Path) (cause : FileError)
  | unreadable (path : Path) (cause : FileError)
  | walk (directory : Path) (cause : FileError)
  deriving DecidableEq, Repr

namespace ReadError

/-- The failure of a walk without the words that say what the walk was for. -/
def walkText (directory : Path) (cause : FileError) : String :=
  "IO error for operation on " ++ directory.text ++ ": " ++ cause.message

def message : ReadError → String
  | lexical e => e.message
  | grammar file e => e.message file
  | includeCycle position path => position.render ++ ": include cycle through " ++ path.text
  | missingInclude position path cause =>
    position.render ++ ": cannot include " ++ path.text ++ ": " ++ cause.message
  | unreadable path cause => "failed to read " ++ path.text ++ ": " ++ cause.message
  | walk directory cause => "failed to walk schema directory: " ++ walkText directory cause

/-- The messages of what lies behind the failure, the nearest cause first. -/
def causes : ReadError → List String
  | missingInclude _ _ cause => [cause.message]
  | unreadable _ cause => [cause.message]
  | walk directory cause => [walkText directory cause, cause.message]
  | _ => []

end ReadError

end EntitySchema
