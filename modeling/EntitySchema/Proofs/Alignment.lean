import EntitySchema.Text.Columns
import Mathlib.Algebra.GroupWithZero.Nat
import Mathlib.Algebra.Order.Group.Nat

/-!
Why columns line up. The widths of columns are the greatest of their cells, over rows of any
lengths; they can be collected cell by cell, at the index of each cell, without an index ever being
out of range. The main result is that the cells of a column then begin at one place in all lines,
which is the indentation and the widths and gaps of the columns before it.
-/

namespace EntitySchema.Text

namespace Layout

variable (layout : Layout)

/-! ## Widths by index -/

/-- Takes a cell of width `w` into account at an index: the first one after the last column makes a
new column. Any greater index is out of range. -/
def putWidth (widths : List Nat) (i w : Nat) : Option (List Nat) :=
  if i = widths.length then some (widths ++ [w])
  else widths[i]?.map (fun v => if v < w then widths.set i w else widths)

/-- Takes the cells of a row into account, one after the other. -/
def putRow (widths : List Nat) (row : List String) : Option (List Nat) :=
  row.zipIdx.foldlM (fun widths x => putWidth widths x.2 (layout.width x.1)) widths

/-- The widths of columns as they are collected cell by cell; none if an index is out of range. -/
def widthsByIndex (rows : List (List String)) : Option (List Nat) :=
  rows.foldlM layout.putRow []

/-- At the end of the columns that are done, a cell widens the next column or makes a new one. -/
theorem putWidth_append (done rest : List Nat) (w : Nat) :
    putWidth (done ++ rest) done.length w = some (done ++ max (rest.headD 0) w :: rest.tail) := by
  cases rest with
  | nil => simp [putWidth]
  | cons v rest =>
    by_cases h : v < w
    · simp [putWidth, h, Nat.max_eq_right (Nat.le_of_lt h)]
    · simp [putWidth, h, Nat.max_eq_left (Nat.le_of_not_lt h)]

theorem widest_cons (widths : List Nat) (w : Nat) (ws : List Nat) :
    widest widths (w :: ws) = max (widths.headD 0) w :: widest widths.tail ws := by
  cases widths with
  | nil => cases ws <;> simp [widest]
  | cons v widths => simp [widest]

theorem widest_nil (widths : List Nat) : widest widths [] = widths := by
  cases widths <;> rfl

theorem putRow_eq (widths : List Nat) (row : List String) :
    layout.putRow widths row = some (widest widths (row.map layout.width)) := by
  -- The cells before an index have widened the columns before it, which are done.
  have run : ∀ (row : List String) (done rest : List Nat),
      (row.zipIdx done.length).foldlM (fun widths x => putWidth widths x.2 (layout.width x.1))
        (done ++ rest) = some (done ++ widest rest (row.map layout.width)) := by
    intro row
    induction row with
    | nil => intro done rest; simp [widest_nil]
    | cons cell row ih =>
      intro done rest
      have hNext := ih (done ++ [max (rest.headD 0) (layout.width cell)]) rest.tail
      rw [List.length_append, List.length_singleton, List.append_assoc, List.append_assoc] at hNext
      rw [List.zipIdx_cons, List.foldlM_cons, putWidth_append, Option.bind_eq_bind,
        Option.bind_some, List.map_cons, widest_cons]
      exact hNext
  exact run row [] widths

theorem widthsByIndex_eq (rows : List (List String)) :
    layout.widthsByIndex rows = some (layout.columnWidths rows) := by
  have run : ∀ widths, rows.foldlM layout.putRow widths =
      some (rows.foldl (fun widths row => widest widths (row.map layout.width)) widths) := by
    induction rows with
    | nil => exact fun widths => rfl
    | cons row rows ih =>
      intro widths
      rw [List.foldlM_cons, putRow_eq, Option.bind_eq_bind, Option.bind_some, ih, List.foldl_cons]
  exact run []

/-! ## The widths of columns -/

theorem getElem?_widest (vs ws : List Nat) (i : Nat) :
    (widest vs ws)[i]? = Option.merge max vs[i]? ws[i]? := by
  induction vs, ws using widest.induct generalizing i with
  | case1 ws => simp [widest]
  | case2 vs h => cases vs <;> simp [widest]
  | case3 v vs w ws ih => cases i <;> simp [widest, ih]

theorem length_widest (vs ws : List Nat) : (widest vs ws).length = max vs.length ws.length := by
  induction vs, ws using widest.induct with
  | case1 ws => simp [widest]
  | case2 vs h => cases vs <;> simp [widest]
  | case3 v vs w ws ih => simp [widest, ih]

/-- The widths of the cells at an index, over the rows that have one. -/
def column (rows : List (List String)) (i : Nat) : List Nat :=
  (rows.filterMap (fun row => row[i]?)).map layout.width

theorem max?_column_cons (row : List String) (rows : List (List String)) (i : Nat) :
    (layout.column (row :: rows) i).max? =
      Option.merge max (row.map layout.width)[i]? (layout.column rows i).max? := by
  cases hCell : row[i]? with
  | none => simp [column, hCell]
  | some cell =>
    have hColumn : layout.column (row :: rows) i = layout.width cell :: layout.column rows i := by
      simp [column, hCell]
    rw [hColumn, List.max?_cons, List.getElem?_map, hCell, Option.map_some]
    cases (layout.column rows i).max? <;> rfl

theorem getElem?_columnWidths (rows : List (List String)) (i : Nat) :
    (layout.columnWidths rows)[i]? = (layout.column rows i).max? := by
  have run : ∀ widths : List Nat,
      (rows.foldl (fun widths row => widest widths (row.map layout.width)) widths)[i]? =
        Option.merge max widths[i]? (layout.column rows i).max? := by
    -- The widths so far stand for the rows before, so they come first in the maximum.
    induction rows with
    | nil => intro widths; simp [column]
    | cons row rows ih =>
      intro widths
      rw [List.foldl_cons, ih, getElem?_widest, max?_column_cons,
        (Option.associative_merge max).assoc]
  rw [columnWidths, run, List.getElem?_nil, Option.merge_none_left]

theorem length_columnWidths (rows : List (List String)) :
    (layout.columnWidths rows).length = (rows.map List.length).max?.getD 0 := by
  have run : ∀ widths : List Nat,
      (rows.foldl (fun widths row => widest widths (row.map layout.width)) widths).length =
        (rows.map List.length).foldl max widths.length := by
    induction rows with
    | nil => exact fun widths => rfl
    | cons row rows ih =>
      intro widths
      rw [List.foldl_cons, ih, length_widest, List.length_map, List.map_cons, List.foldl_cons]
  rw [columnWidths, run]
  cases rows with
  | nil => rfl
  | cons row rows => rw [List.map_cons, List.max?_cons', List.foldl_cons, List.length_nil,
      Nat.zero_max, Option.getD_some]

/-! ## Lines in pieces -/

/-- A part of a line: a cell, or spaces that fill it up. -/
inductive Piece where
  | cell (text : String)
  | blank (n : Nat)

namespace Piece

def text : Piece → String
  | cell text => text
  | blank n => spaces n

def cell? : Piece → Option String
  | cell text => some text
  | blank _ => none

end Piece

/-- The pieces of a row after its indentation. -/
def cellPieces : List String → List Nat → List Piece
  | [], _ => []
  | [last], _ => [.cell last]
  | cell :: rest, widths =>
    .cell cell :: .blank (widths.headD 0 - layout.width cell + layout.gap) ::
      cellPieces rest widths.tail

/-- The pieces of a line. -/
def pieces (row : List String) (widths : List Nat) : List Piece :=
  .blank layout.indent :: layout.cellPieces row widths

/-- Where the cells among the pieces begin, when the first piece begins at `start`. Each begins
after the widths of the cells and the spaces before it. -/
def starts (start : Nat) : List Piece → List Nat
  | [] => []
  | .cell text :: rest => start :: starts (start + layout.width text) rest
  | .blank n :: rest => starts (start + n) rest

theorem join_cellPieces (row : List String) (widths : List Nat) :
    String.join ((layout.cellPieces row widths).map Piece.text) = layout.cells row widths := by
  fun_induction cellPieces layout row widths with
  | case1 => rfl
  | case2 last => simp [cells, Piece.text]
  | case3 cell rest widths hRest ih =>
    obtain ⟨next, rest, rfl⟩ := List.exists_cons_of_ne_nil hRest
    simp only [List.map_cons, String.join_cons, ih, Piece.text, cells, pad, String.append_assoc]

theorem join_pieces (row : List String) (widths : List Nat) :
    String.join ((layout.pieces row widths).map Piece.text) = layout.line row widths := by
  rw [pieces, List.map_cons, String.join_cons, join_cellPieces]
  rfl

theorem cells_cellPieces (row : List String) (widths : List Nat) :
    (layout.cellPieces row widths).filterMap Piece.cell? = row := by
  fun_induction cellPieces layout row widths with
  | case1 => rfl
  | case2 last => rfl
  | case3 cell rest widths hRest ih => exact congrArg (cell :: ·) ih

/-- The columns are at least as wide as the cells of the row. -/
def Fits (row : List String) (widths : List Nat) : Prop :=
  ∀ (i : Nat) (cell : String), row[i]? = some cell →
    ∃ w, widths[i]? = some w ∧ layout.width cell ≤ w

theorem fits_columnWidths {rows : List (List String)} {row : List String} (h : row ∈ rows) :
    layout.Fits row (layout.columnWidths rows) := by
  intro i cell hCell
  have hMem : layout.width cell ∈ layout.column rows i :=
    List.mem_map_of_mem (List.mem_filterMap.2 ⟨row, h, hCell⟩)
  obtain ⟨w, hw⟩ := Option.isSome_iff_exists.1 (List.isSome_max?_of_mem hMem)
  exact ⟨w, (layout.getElem?_columnWidths rows i).trans hw, (List.max?_eq_some_iff.1 hw).2 _ hMem⟩

/-- The first column is as wide as the first cell, and the other columns fit the rest. -/
theorem Fits.uncons {layout : Layout} {cell : String} {row : List String} {widths : List Nat}
    (h : layout.Fits (cell :: row) widths) :
    ∃ w ws, widths = w :: ws ∧ layout.width cell ≤ w ∧ layout.Fits row ws := by
  obtain ⟨w, hw, hLe⟩ := h 0 cell rfl
  cases widths with
  | nil => cases hw
  | cons v ws =>
    cases hw
    exact ⟨w, ws, rfl, hLe, fun i cell hCell => h (i + 1) cell hCell⟩

/-- Padding makes up for what a cell lacks of its column, so that the next one begins after the
whole width of the column and the gap. -/
theorem starts_cellPieces {row : List String} {widths : List Nat} (h : layout.Fits row widths)
    (start i : Nat) (hi : i < row.length) :
    (layout.starts start (layout.cellPieces row widths))[i]? =
      some (start + ((widths.take i).map (· + layout.gap)).sum) := by
  fun_induction cellPieces layout row widths generalizing start i with
  | case1 => cases hi
  | case2 last widths =>
    obtain rfl : i = 0 := by simpa using hi
    rfl
  | case3 cell rest widths hRest ih =>
    obtain ⟨w, ws, rfl, hLe, hFits⟩ := h.uncons
    cases i with
    | zero => rfl
    | succ i =>
      -- The subtraction of the padding is exact only because the cell fits in its column.
      have hStart : start + layout.width cell + (w - layout.width cell + layout.gap) =
          start + (w + layout.gap) := by omega
      have hRest := ih hFits (start + (w + layout.gap)) i (by simpa using hi)
      simp only [starts, List.headD_cons, List.tail_cons, List.getElem?_cons_succ, hStart,
        List.take_succ_cons, List.map_cons, List.sum_cons, ← Nat.add_assoc] at hRest ⊢
      exact hRest

/-- The widths of columns are the greatest widths of their cells, and collecting them never leaves
the range of the columns. A line of the table consists of its cells with spaces before and between
them, and the cell at index `i` begins after the indentation and the widths and gaps of the `i`
columns before it. -/
theorem columns_line_up (layout : Layout) (rows : List (List String)) :
    layout.widthsByIndex rows = some (layout.columnWidths rows) ∧
    (layout.columnWidths rows).length = (rows.map List.length).max?.getD 0 ∧
    (∀ i, (layout.columnWidths rows)[i]? = (layout.column rows i).max?) ∧
    ∀ row ∈ rows,
      let pieces := layout.pieces row (layout.columnWidths rows)
      String.join (pieces.map Piece.text) = layout.line row (layout.columnWidths rows) ∧
      pieces.filterMap Piece.cell? = row ∧
      ∀ i < row.length, (layout.starts 0 pieces)[i]? =
        some (layout.indent + (((layout.columnWidths rows).take i).map (· + layout.gap)).sum) := by
  refine ⟨layout.widthsByIndex_eq rows, layout.length_columnWidths rows,
    layout.getElem?_columnWidths rows, ?_⟩
  intro row hRow
  refine ⟨layout.join_pieces row _, layout.cells_cellPieces row _, ?_⟩
  intro i hi
  have hStarts := layout.starts_cellPieces (layout.fits_columnWidths hRow) (0 + layout.indent) i hi
  exact hStarts.trans (by rw [Nat.zero_add])

/-- Rows of uneven length, of which a short one has the widest cell. -/
def unevenRows : List (List String) :=
  [["int8:", "a;"], ["array<x>:", "bb;"], ["// all of them"]]

theorem unevenRows_line_up :
    ["int8:", "a;"] ∈ unevenRows ∧
      ((⟨4, 1, String.length⟩ : Layout).starts 0 ((⟨4, 1, String.length⟩ : Layout).pieces
        ["int8:", "a;"] ((⟨4, 1, String.length⟩ : Layout).columnWidths unevenRows)))[1]? =
          some 19 := by
  have hRow : ["int8:", "a;"] ∈ unevenRows := by decide
  obtain ⟨-, -, -, hLines⟩ := columns_line_up ⟨4, 1, String.length⟩ unevenRows
  obtain ⟨-, -, hStarts⟩ := hLines _ hRow
  exact ⟨hRow, (hStarts 1 (by decide)).trans (by decide)⟩

end Layout

end EntitySchema.Text
