/-!
Classes of characters as sorted tables of runs of code points, and the search in them.
-/

namespace EntitySchema.Text

variable {α : Type}

/-- The search in the part of the table from `lo` up to `hi`; every entry before `lo` starts at or
before `c`, and none from `hi` on does. -/
def lastAtOrBelowFrom (first : α → Nat) (table : Array α) (c lo hi : Nat) : Option α :=
  if h : lo < hi ∧ hi ≤ table.size then
    let mid := (lo + hi) / 2
    if first table[mid] ≤ c then lastAtOrBelowFrom first table c (mid + 1) hi
    else lastAtOrBelowFrom first table c lo mid
  else if lo = 0 then none
  else table[lo - 1]?
termination_by hi - lo

/-- The last entry of a sorted table that starts at or before `c`. -/
def lastAtOrBelow (first : α → Nat) (table : Array α) (c : Nat) : Option α :=
  lastAtOrBelowFrom first table c 0 table.size

/-- Whether `c` lies in one of the ranges `(first, last)`. -/
def inRanges (table : Array (Nat × Nat)) (c : Nat) : Bool :=
  match lastAtOrBelow (fun range => range.1) table c with
  | some (_, last) => c ≤ last
  | none => false

/-- Whether `c` lies in one of the runs `(first, last, step)`, which hold every `step`-th code
point. -/
def inRuns (table : Array (Nat × Nat × Nat)) (c : Nat) : Bool :=
  match lastAtOrBelow (fun run => run.1) table c with
  | some (first, last, step) => c ≤ last && (c - first) % step == 0
  | none => false

end EntitySchema.Text
