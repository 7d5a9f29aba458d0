/-!
The lines of a text, as what is emitted is read by. Line breaks stand between lines, so a text that
ends with one has an empty line at its end.
-/

namespace EntitySchema.Text

/-- The lines of a text. -/
def lines (text : String) : List String :=
  (text.toList.splitOn '\n').map String.ofList

/-- The text of some lines, each with a line break at its end. -/
def unlines (ls : List String) : String :=
  String.join (ls.map (· ++ "\n"))

theorem lines_append (above below : String) :
    lines (above ++ ("\n" ++ below)) = lines above ++ lines below := by
  have hText : (above ++ ("\n" ++ below)).toList = above.toList ++ '\n' :: below.toList := by simp
  unfold lines
  rw [hText, List.splitOn_append_cons_self, List.map_append]

theorem lines_of_not_mem {line : String} (h : '\n' ∉ line.toList) : lines line = [line] := by
  unfold lines
  rw [List.splitOn_eq_singleton h, List.map_singleton, String.ofList_toList]

theorem lines_ne_nil (text : String) : lines text ≠ [] := by
  simp [lines, List.splitOn_ne_nil]

/-- What stands before a text without a line break is on its first line. -/
theorem lines_append_of_not_mem {front : String} (hFront : '\n' ∉ front.toList) (text : String) :
    lines (front ++ text) = (lines text).modifyHead (front ++ ·) := by
  have run : ∀ front : List Char, '\n' ∉ front → ∀ text : List Char,
      (front ++ text).splitOn '\n' = (text.splitOn '\n').modifyHead (front ++ ·) := by
    intro front
    induction front with
    | nil =>
      intro _ text
      rw [List.nil_append]
      cases text.splitOn '\n' <;> rfl
    | cons c front ih =>
      intro hFront text
      obtain ⟨hc, hFront⟩ := not_or.1 (mt List.mem_cons.2 hFront)
      rw [List.cons_append, List.splitOn_cons_eq_if_modifyHead, if_neg (by simpa using Ne.symm hc),
        ih hFront, List.modifyHead_modifyHead]
      rfl
  unfold lines
  rw [String.toList_append, run front.toList hFront]
  cases text.toList.splitOn '\n' <;> simp

theorem unlines_append (ls ls' : List String) :
    unlines (ls ++ ls') = unlines ls ++ unlines ls' := by
  simp [unlines]

theorem unlines_cons (l : String) (ls : List String) :
    unlines (l :: ls) = l ++ ("\n" ++ unlines ls) := by
  rw [unlines, List.map_cons, String.join_cons, String.append_assoc, unlines]

theorem unlines_nil : unlines [] = "" := rfl

theorem unlines_flatMap {α : Type} (as : List α) (f : α → List String) :
    unlines (as.flatMap f) = String.join (as.map (fun a => unlines (f a))) := by
  induction as with
  | nil => rfl
  | cons a as ih => rw [List.flatMap_cons, unlines_append, ih, List.map_cons, String.join_cons]

/-- The lines of texts that each have a line break at their end are those of each text. -/
theorem lines_unlines (ls : List String) : lines (unlines ls) = ls.flatMap lines ++ [""] := by
  induction ls with
  | nil => exact lines_of_not_mem (by decide)
  | cons l ls ih => rw [unlines_cons, lines_append, ih, List.flatMap_cons, List.append_assoc]

/-- Lines are found again. -/
theorem lines_unlines_of_not_mem {ls : List String} (h : ∀ l ∈ ls, '\n' ∉ l.toList) :
    lines (unlines ls) = ls ++ [""] := by
  have hEach : ls.flatMap lines = ls := by
    induction ls with
    | nil => rfl
    | cons l ls ih =>
      obtain ⟨hLine, hRest⟩ := List.forall_mem_cons.1 h
      rw [List.flatMap_cons, lines_of_not_mem hLine, ih hRest, List.singleton_append]
  rw [lines_unlines, hEach]

end EntitySchema.Text
