/-!
Lines of text whose cells stand in columns. Every cell but the last of its line is filled up to the
width of its column, so that the next one starts at the same place in all lines.
-/

namespace EntitySchema.Text

/-- How columns are laid out: how far lines are indented, how much room separates two columns, and
how wide a text is taken to be. -/
structure Layout where
  indent : Nat
  gap : Nat
  width : String → Nat

namespace Layout

variable (layout : Layout)

/-- The widths of two lists of columns taken together: the greater one, column by column. -/
def widest : List Nat → List Nat → List Nat
  | [], ws => ws
  | vs, [] => vs
  | v :: vs, w :: ws => max v w :: widest vs ws

/-- The widest cell of every column, over rows of possibly uneven length. -/
def columnWidths (rows : List (List String)) : List Nat :=
  rows.foldl (fun widths row => widest widths (row.map layout.width)) []

/-- A run of spaces. -/
def spaces (n : Nat) : String :=
  String.ofList (List.replicate n ' ')

/-- The text followed by enough spaces to fill `width` cells and the gap. -/
def pad (text : String) (width : Nat) : String :=
  text ++ spaces (width - layout.width text + layout.gap)

/-- The cells of a line, each but the last filled up to its column. A column without a width has
the width zero. -/
def cells : List String → List Nat → String
  | [], _ => ""
  | [last], _ => last
  | cell :: rest, widths => layout.pad cell (widths.headD 0) ++ cells rest widths.tail

/-- One indented line. -/
def line (row : List String) (widths : List Nat) : String :=
  spaces layout.indent ++ layout.cells row widths

end Layout

end EntitySchema.Text
