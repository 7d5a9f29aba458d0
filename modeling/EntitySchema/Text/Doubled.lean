/-!
Quoting by doubling: a text stands between two marks, and a mark inside it is written twice.
-/

namespace EntitySchema.Text.Doubled

/-- Writes every mark twice. -/
def encode (mark : Char) : List Char → List Char
  | [] => []
  | c :: rest => if c = mark then mark :: mark :: encode mark rest else c :: encode mark rest

/-- The text between two marks. -/
def quote (mark : Char) (text : String) : String :=
  String.ofList (mark :: encode mark text.toList ++ [mark])

end EntitySchema.Text.Doubled
