import EntitySchema.Proofs.Layering
import Mathlib.Order.Bounds.Basic

/-!
Which level a struct is on. A struct from which no dependencies lead into a cycle is on the level
whose number is the length of the longest chain of dependencies that starts at it. All others are
together on the last level.
-/

namespace EntitySchema

namespace StructGraph

/-! ## Rows and chains -/

/-- The name stands in the row with this number, counted from zero. -/
def InRow (rows : List (List String)) (k : Nat) (n : String) : Prop :=
  ∃ row, rows[k]? = some row ∧ n ∈ row

/-- The lengths of the chains of steps that start at a name. -/
def chainLengths (r : String → String → Prop) (n : String) : Set Nat :=
  {k | ∃ chain : List String, chain.length = k ∧ (n :: chain).IsChain r}

section Rows

variable {rows : List (List String)} {row : List String} {k : Nat} {n : String}

theorem inRow_zero : InRow (row :: rows) 0 n ↔ n ∈ row := by
  simp [InRow]

theorem inRow_succ : InRow (row :: rows) (k + 1) n ↔ InRow rows k n := by
  simp [InRow]

theorem InRow.mem_flatten (h : InRow rows k n) : n ∈ rows.flatten := by
  obtain ⟨row, hRow, hn⟩ := h
  exact List.mem_flatten.2 ⟨row, List.mem_of_getElem? hRow, hn⟩

theorem exists_inRow (h : n ∈ rows.flatten) : ∃ k, InRow rows k n := by
  obtain ⟨row, hRow, hn⟩ := List.mem_flatten.1 h
  obtain ⟨k, hk⟩ := List.mem_iff_getElem?.1 hRow
  exact ⟨k, row, hk, hn⟩

theorem inRow_unique (hOnce : rows.flatten.Nodup) {i j : Nat} (hi : InRow rows i n)
    (hj : InRow rows j n) : i = j := by
  induction rows generalizing i j with
  | nil => exact absurd hi.mem_flatten (by simp)
  | cons row rows ih =>
    rw [List.flatten_cons, List.nodup_append] at hOnce
    obtain ⟨-, hRest, hApart⟩ := hOnce
    cases i with
    | zero =>
      cases j with
      | zero => rfl
      | succ j => exact absurd rfl (hApart n (inRow_zero.1 hi) n (inRow_succ.1 hj).mem_flatten)
    | succ i =>
      cases j with
      | zero => exact absurd rfl (hApart n (inRow_zero.1 hj) n (inRow_succ.1 hi).mem_flatten)
      | succ j => rw [ih hRest (inRow_succ.1 hi) (inRow_succ.1 hj)]

end Rows

/-! ## Longest chains -/

section Chains

variable {r : String → String → Prop} {n : String} {k : Nat}

/-- Where there is no step, only the empty chain starts. -/
theorem isGreatest_zero_of_no_step (h : ∀ d, ¬ r n d) : IsGreatest (chainLengths r n) 0 := by
  refine ⟨⟨[], rfl, .singleton n⟩, ?_⟩
  rintro _ ⟨chain, rfl, hChain⟩
  cases chain with
  | nil => exact Nat.le_refl 0
  | cons d chain => exact absurd (List.isChain_cons_cons.1 hChain).1 (h d)

/-- The longest chain goes on from the step that has the longest. -/
theorem isGreatest_succ_of_steps (hMost : ∃ d, r n d ∧ IsGreatest (chainLengths r d) k)
    (hAll : ∀ d, r n d → ∃ j ≤ k, IsGreatest (chainLengths r d) j) :
    IsGreatest (chainLengths r n) (k + 1) := by
  constructor
  · obtain ⟨d, hStep, ⟨chain, hLength, hChain⟩, -⟩ := hMost
    exact ⟨d :: chain, by simp [hLength], List.isChain_cons_cons.2 ⟨hStep, hChain⟩⟩
  · rintro _ ⟨chain, rfl, hChain⟩
    cases chain with
    | nil => exact Nat.zero_le _
    | cons d chain =>
      obtain ⟨hStep, hRest⟩ := List.isChain_cons_cons.1 hChain
      obtain ⟨j, hj, -, hUpper⟩ := hAll d hStep
      exact Nat.succ_le_succ ((hUpper ⟨chain, rfl, hRest⟩).trans hj)

/-- Chains that lead into a cycle are of any length. -/
theorem Tangled.mem_chainLengths (h : Tangled r n) : k ∈ chainLengths r n := by
  induction k generalizing n with
  | zero => exact ⟨[], rfl, .singleton n⟩
  | succ k ih =>
    obtain ⟨d, hStep, hd⟩ := h.exists_step
    obtain ⟨chain, hLength, hChain⟩ := ih hd
    exact ⟨d :: chain, by simp [hLength], List.isChain_cons_cons.2 ⟨hStep, hChain⟩⟩

theorem not_tangled_of_isGreatest (h : IsGreatest (chainLengths r n) k) : ¬ Tangled r n := by
  intro hn
  have := h.2 (hn.mem_chainLengths (k := k + 1))
  omega

end Chains

section Levels

variable {dependencies : String → List String} {remaining : List String} {n : String} {k : Nat}

/-- A dependency that remains. -/
def DependsWithin (dependencies : String → List String) (remaining : List String)
    (a b : String) : Prop :=
  DependsOn dependencies a b ∧ b ∈ remaining

theorem mem_waiting_iff :
    n ∈ waiting dependencies remaining ↔
      n ∈ remaining ∧ ∃ d, DependsWithin dependencies remaining n d := by
  simp only [waiting, List.mem_filter, Bool.not_eq_true', isFree_eq_false_iff, DependsWithin,
    and_comm]

/-- No chain of dependencies that remain starts at a free struct. -/
theorem isGreatest_zero_of_free (hn : n ∈ free dependencies remaining) :
    IsGreatest (chainLengths (DependsWithin dependencies remaining) n) 0 := by
  refine isGreatest_zero_of_no_step ?_
  intro d hStep
  have hWaits := isFree_eq_false_iff.2 ⟨d, hStep.2, hStep.1⟩
  rw [(List.mem_filter.1 hn).2] at hWaits
  cases hWaits

/-- What a chain leads through waits, but for its end. -/
theorem isChain_dropLast {chain : List String}
    (h : (n :: chain).IsChain (DependsWithin dependencies remaining)) :
    (n :: chain.dropLast).IsChain
      (DependsWithin dependencies (waiting dependencies remaining)) := by
  induction chain generalizing n with
  | nil => exact .singleton n
  | cons d chain ih =>
    obtain ⟨hStep, hRest⟩ := List.isChain_cons_cons.1 h
    cases chain with
    | nil => exact .singleton n
    | cons e chain =>
      have hNext := (List.isChain_cons_cons.1 hRest).1
      rw [List.dropLast_cons_cons]
      refine List.isChain_cons_cons.2 ⟨⟨hStep.1, ?_⟩, ih hRest⟩
      exact mem_waiting_iff.2 ⟨hStep.2, e, hNext⟩

/-- Each chain of structs that wait goes on by one dependency, which remains. -/
theorem exists_longer_chain {chain : List String} (hn : n ∈ waiting dependencies remaining)
    (h : (n :: chain).IsChain (DependsWithin dependencies (waiting dependencies remaining))) :
    ∃ d, (n :: (chain ++ [d])).IsChain (DependsWithin dependencies remaining) := by
  induction chain generalizing n with
  | nil =>
    obtain ⟨-, d, hStep⟩ := mem_waiting_iff.1 hn
    exact ⟨d, List.isChain_cons_cons.2 ⟨hStep, .singleton d⟩⟩
  | cons e chain ih =>
    obtain ⟨hStep, hRest⟩ := List.isChain_cons_cons.1 h
    obtain ⟨d, hLonger⟩ := ih hStep.2 hRest
    have he := (mem_waiting_iff.1 hStep.2).1
    exact ⟨d, List.isChain_cons_cons.2 ⟨⟨hStep.1, he⟩, hLonger⟩⟩

/-- One level: what waits has chains longer by one than without the structs that are free. -/
theorem isGreatest_succ_of_waiting (hn : n ∈ waiting dependencies remaining)
    (h : IsGreatest
      (chainLengths (DependsWithin dependencies (waiting dependencies remaining)) n) k) :
    IsGreatest (chainLengths (DependsWithin dependencies remaining) n) (k + 1) := by
  obtain ⟨⟨chain, hLength, hChain⟩, hUpper⟩ := h
  constructor
  · obtain ⟨d, hLonger⟩ := exists_longer_chain hn hChain
    exact ⟨chain ++ [d], by simp [hLength], hLonger⟩
  · rintro _ ⟨chain', rfl, hChain'⟩
    have hShorter := hUpper ⟨chain'.dropLast, rfl, isChain_dropLast hChain'⟩
    rw [List.length_dropLast] at hShorter
    omega

/-- All levels: the number of the level is the length of the longest chain. -/
theorem isGreatest_of_inRow (h : InRow (levelsOf dependencies remaining) k n)
    (hNot : ¬ Tangled (DependsOn dependencies) n) :
    IsGreatest (chainLengths (DependsWithin dependencies remaining) n) k := by
  fun_induction levelsOf dependencies remaining generalizing k with
  | case1 => exact absurd h.mem_flatten (by simp)
  | case2 remaining hNone _ =>
    have hn : n ∈ remaining := by simpa using h.mem_flatten
    exact absurd (tangled_of_free_eq_nil hNone hn) hNot
  | case3 remaining _ ih =>
    cases k with
    | zero => exact isGreatest_zero_of_free (inRow_zero.1 h)
    | succ k =>
      have hLater := inRow_succ.1 h
      have hn := (perm_levelsOf dependencies (waiting dependencies remaining)).mem_iff.1
        hLater.mem_flatten
      exact isGreatest_succ_of_waiting hn (ih hLater)

/-- What is tangled waits at every level, until nothing else is left. -/
theorem getLast?_levelsOf (hRemain : ∀ n, Tangled (DependsOn dependencies) n → n ∈ remaining)
    (hn : Tangled (DependsOn dependencies) n) :
    ∃ row, (levelsOf dependencies remaining).getLast? = some row ∧
      ∀ m, m ∈ row ↔ Tangled (DependsOn dependencies) m := by
  fun_induction levelsOf dependencies remaining with
  | case1 => exact absurd (hRemain n hn) List.not_mem_nil
  | case2 remaining hNone _ =>
    exact ⟨remaining, rfl, fun m => ⟨fun hm => tangled_of_free_eq_nil hNone hm, hRemain m⟩⟩
  | case3 remaining _ ih =>
    obtain ⟨row, hLast, hRow⟩ := ih (mem_waiting_of_tangled hRemain)
    exact ⟨row, by rw [List.getLast?_cons, hLast, Option.getD_some], hRow⟩

theorem row_levelsOf (hSorted : remaining.Pairwise (· < ·)) {row : List String}
    (hRow : row ∈ levelsOf dependencies remaining) : row ≠ [] ∧ row.Pairwise (· < ·) := by
  fun_induction levelsOf dependencies remaining with
  | case1 => cases hRow
  | case2 remaining _ hSome =>
    obtain rfl := List.mem_singleton.1 hRow
    exact ⟨hSome, hSorted⟩
  | case3 remaining hFree ih =>
    rcases List.mem_cons.1 hRow with rfl | hRow
    · exact ⟨hFree, hSorted.sublist List.filter_sublist⟩
    · exact ih (hSorted.sublist List.filter_sublist) hRow

end Levels

/-! ## The levels of a graph -/

/-- The rows put names in the order of what they depend on. -/
structure IsLayering (depends : String → String → Prop) (names : List String)
    (rows : List (List String)) : Prop where
  /-- Each name stands in one row, once. -/
  once : rows.flatten.Nodup
  mem_iff : ∀ n, n ∈ rows.flatten ↔ n ∈ names
  nonempty : ∀ row ∈ rows, row ≠ []
  ascending : ∀ row ∈ rows, row.Pairwise (· < ·)
  /-- The row of a name that does not lead into a cycle is told by its longest chain. -/
  longest : ∀ n ∈ names, ¬ Tangled depends n →
    ∀ k, InRow rows k n ↔ IsGreatest (chainLengths depends n) k
  /-- All other names are the last row. -/
  last : (∃ n, Tangled depends n) →
    ∃ row, rows.getLast? = some row ∧ ∀ n, n ∈ row ↔ Tangled depends n
  /-- A name that does not lead into a cycle comes after all that it depends on. -/
  after : ∀ a b, depends a b → ¬ Tangled depends a →
    ∀ i j, InRow rows i a → InRow rows j b → j < i

/-- The levels of the structs of a model, whatever its links are. -/
theorem isLayering_levels (model : Model) :
    IsLayering (ofModel model).StoresKeyOf model.structNames (ofModel model).levels := by
  let g := ofModel model
  let names := (g.nodes.mergeSort (fun a b => decide (a ≤ b))).eraseDups
  have hMem : ∀ n, n ∈ g.levels.flatten ↔ n ∈ model.structNames := fun n => mem_ordered
  have hRow : ∀ row ∈ g.levels, row ≠ [] ∧ row.Pairwise (· < ·) :=
    fun _ h => row_levelsOf (pairwise_nodes g) h
  have hNames : ∀ n, n ∈ names ↔ n ∈ g.nodes := by simp [names]
  rw [← dependsOn_eq_storesKeyOf]
  -- The links of a model are between its structs, so all dependencies remain at the start.
  have hWithin : DependsWithin g.dependencies names = DependsOn g.dependencies := by
    funext a b
    simp only [DependsWithin, eq_iff_iff, and_iff_left_iff_imp]
    intro hab
    exact (hNames b).2 (mem_nodes_of_dependsOn hab).2
  have hGreatest : ∀ n, ¬ Tangled (DependsOn g.dependencies) n → ∀ k, InRow g.levels k n →
      IsGreatest (chainLengths (DependsOn g.dependencies) n) k := by
    intro n hn k hk
    rw [← hWithin]
    exact isGreatest_of_inRow hk hn
  refine ⟨nodup_ordered g, hMem, fun row h => (hRow row h).1, fun row h => (hRow row h).2,
    ?_, ?_, ?_⟩
  · intro n hName hn k
    refine ⟨hGreatest n hn k, fun hk => ?_⟩
    obtain ⟨j, hj⟩ := exists_inRow ((hMem n).2 hName)
    rwa [hk.unique (hGreatest n hn j hj)]
  · rintro ⟨n, hn⟩
    refine getLast?_levelsOf (fun m hm => ?_) hn
    obtain ⟨d, hmd, -⟩ := hm.exists_step
    exact (hNames m).2 (mem_nodes_of_dependsOn hmd).1
  · intro a b hab ha i j hi hj
    have hb : ¬ Tangled (DependsOn g.dependencies) b := by
      rintro ⟨c, hc, hCycle⟩
      exact ha ⟨c, .head hab hc, hCycle⟩
    -- The longest chain from `b` is continued backwards to `a`.
    obtain ⟨chain, rfl, hChain⟩ := (hGreatest b hb j hj).1
    exact (hGreatest a ha i hi).2 ⟨b :: chain, rfl, List.isChain_cons_cons.2 ⟨hab, hChain⟩⟩

end StructGraph

end EntitySchema
