import EntitySchema.Proofs.Levels

/-!
Levels by number. A struct without dependencies has the number zero. Then all structs are visited in
ascending order, again and again, and a struct whose dependencies are all numbered gets the number
after the greatest of theirs, which is seen at once by the structs that are visited after it. When
nothing changes any more, what is left gets the number after the greatest one, and the names are put
into rows by their numbers. The main result is that this ends, that no row is missing, and that the
rows are the levels.
-/

namespace EntitySchema

namespace StructGraph

/-! ## Numbers -/

/-- Names with numbers. -/
abbrev Numbering := List (String × Nat)

/-- Gives a number to a name, which goes to its place in ascending order. -/
def Numbering.put (name : String) (k : Nat) : Numbering → Numbering
  | [] => [(name, k)]
  | (n, j) :: rest =>
    if name < n then (name, k) :: (n, j) :: rest
    else if name = n then (name, k) :: rest
    else (n, j) :: put name k rest

/-- The numbers of those names that have one. -/
def Numbering.known (numbers : Numbering) (names : List String) : List Nat :=
  names.filterMap (fun n => numbers.lookup n)

/-- The names without a number. -/
def Numbering.missing (numbers : Numbering) (names : List String) : List String :=
  names.filter (fun n => (numbers.lookup n).isNone)

namespace Numbering

variable {numbers : Numbering} {name n : String} {k : Nat}

theorem lookup_put (name : String) (k : Nat) (numbers : Numbering) (n : String) :
    (numbers.put name k).lookup n = if n = name then some k else numbers.lookup n := by
  induction numbers with
  | nil => simp [put, List.lookup_cons]; grind
  | cons x numbers ih =>
    obtain ⟨m, j⟩ := x
    simp only [put]
    split
    · simp only [List.lookup_cons]; grind
    · split
      · simp only [List.lookup_cons]; grind
      · simp only [List.lookup_cons]; grind

theorem length_known_iff (numbers : Numbering) (names : List String) :
    (numbers.known names).length = names.length ↔
      ∀ n ∈ names, ∃ k, numbers.lookup n = some k := by
  simp only [known, List.filterMap_length_eq_length, Option.isSome_iff_exists]

/-- The names stand in ascending order, each once. -/
def Ascending (numbers : Numbering) : Prop :=
  (numbers.map Prod.fst).Pairwise (· < ·)

theorem mem_map_put {x : String} (h : x ∈ (numbers.put name k).map Prod.fst) :
    x = name ∨ x ∈ numbers.map Prod.fst := by
  induction numbers with
  | nil => simpa [put] using h
  | cons y numbers ih =>
    simp only [put] at h
    grind

theorem Ascending.put (h : numbers.Ascending) (name : String) (k : Nat) :
    (numbers.put name k).Ascending := by
  induction numbers with
  | nil => simp [Ascending, Numbering.put]
  | cons y numbers ih =>
    obtain ⟨m, j⟩ := y
    obtain ⟨hFirst, hRest⟩ := List.pairwise_cons.1 h
    simp only [Numbering.put]
    split
    · rename_i hLess
      refine List.pairwise_cons.2 ⟨?_, h⟩
      intro x hx
      rcases List.mem_cons.1 hx with rfl | hx
      · exact hLess
      · exact String.lt_trans hLess (hFirst x hx)
    · split
      · rename_i hSame
        subst hSame
        exact List.pairwise_cons.2 ⟨hFirst, hRest⟩
      · rename_i hLess hNe
        refine List.pairwise_cons.2 ⟨?_, ih hRest⟩
        intro x hx
        rcases mem_map_put hx with rfl | hx
        · exact Std.lt_of_le_of_ne (Std.not_lt.1 hLess) (Ne.symm hNe)
        · exact hFirst x hx

theorem Ascending.mem_iff (h : numbers.Ascending) :
    (n, k) ∈ numbers ↔ numbers.lookup n = some k := by
  induction numbers with
  | nil => simp
  | cons y numbers ih =>
    obtain ⟨m, j⟩ := y
    obtain ⟨hFirst, hRest⟩ := List.pairwise_cons.1 h
    rw [List.mem_cons, ih hRest, List.lookup_cons]
    by_cases hn : n = m
    · subst hn
      -- The names after it are greater, so it has no second number.
      have hOnce : numbers.lookup n ≠ some k := by
        intro hk
        have hMem := List.mem_map_of_mem (f := Prod.fst) ((ih hRest).2 hk)
        exact Std.lt_irrefl (hFirst n hMem)
      simp [hOnce, eq_comm]
    · have hOther : (n == m) = false := by simpa using hn
      simp [hOther, hn]

end Numbering

/-! ## Visits and passes -/

section Loop

variable (dependencies : String → List String) (names : List String)

/-- Numbers a struct that has no dependencies. -/
def start (numbers : Numbering) (n : String) : Numbering :=
  if dependencies n = [] then numbers.put n 0 else numbers

def firstNumbers : Numbering :=
  names.foldl (start dependencies) []

/-- Numbers a struct if that is possible. The truth value says whether anything has changed. -/
def visit (state : Numbering × Bool) (n : String) : Numbering × Bool :=
  if (state.1.lookup n).isSome then state
  else if (state.1.known (dependencies n)).length = (dependencies n).length then
    (state.1.put n ((state.1.known (dependencies n)).max?.getD 0 + 1), true)
  else state

/-- Visits all structs once. -/
def pass (numbers : Numbering) : Numbering × Bool :=
  names.foldl (visit dependencies) (numbers, false)

variable {dependencies names} {state : Numbering × Bool} {numbers : Numbering} {n : String}
  {k : Nat}

/-- What a visit does. -/
theorem visit_cases (dependencies : String → List String) (state : Numbering × Bool) (n : String) :
    visit dependencies state n = state ∧
        (state.1.lookup n = none → ∃ d ∈ dependencies n, state.1.lookup d = none) ∨
      state.1.lookup n = none ∧ (∀ d ∈ dependencies n, ∃ k, state.1.lookup d = some k) ∧
        visit dependencies state n =
          (state.1.put n ((state.1.known (dependencies n)).max?.getD 0 + 1), true) := by
  unfold visit
  split
  · rename_i h
    refine Or.inl ⟨rfl, fun hNone => ?_⟩
    simp [hNone] at h
  · rename_i h
    split
    · rename_i hReady
      have hKnown := (Numbering.length_known_iff _ _).1 hReady
      exact Or.inr ⟨Option.not_isSome_iff_eq_none.1 h, hKnown, rfl⟩
    · rename_i hReady
      rw [Numbering.length_known_iff] at hReady
      refine Or.inl ⟨rfl, fun _ => ?_⟩
      push Not at hReady
      obtain ⟨d, hd, hNone⟩ := hReady
      exact ⟨d, hd, Option.eq_none_iff_forall_ne_some.2 hNone⟩

/-- A number stays. -/
theorem lookup_visit (h : state.1.lookup n = some k) (m : String) :
    (visit dependencies state m).1.lookup n = some k := by
  rcases visit_cases dependencies state m with ⟨hSame, _⟩ | ⟨hNone, _, hPut⟩
  · rw [hSame, h]
  · rw [hPut, Numbering.lookup_put, if_neg, h]
    rintro rfl
    simp [hNone] at h

theorem lookup_foldl_visit (h : state.1.lookup n = some k) :
    (names.foldl (visit dependencies) state).1.lookup n = some k := by
  induction names generalizing state with
  | nil => exact h
  | cons m names ih => exact ih (lookup_visit h m)

/-- What visits do that change anything: a struct that had no number has one. -/
theorem exists_of_changed (hState : state.2 = false)
    (h : (names.foldl (visit dependencies) state).2 = true) :
    ∃ n ∈ names, state.1.lookup n = none ∧
      (names.foldl (visit dependencies) state).1.lookup n ≠ none := by
  induction names generalizing state with
  | nil => simp [hState] at h
  | cons m names ih =>
    rw [List.foldl_cons] at h ⊢
    rcases visit_cases dependencies state m with ⟨hSame, _⟩ | ⟨hNone, _, hPut⟩
    · rw [hSame] at h ⊢
      obtain ⟨n, hn, hOld, hNew⟩ := ih hState h
      exact ⟨n, List.mem_cons_of_mem _ hn, hOld, hNew⟩
    · have hm : (visit dependencies state m).1.lookup m =
          some ((state.1.known (dependencies m)).max?.getD 0 + 1) := by
        rw [hPut, Numbering.lookup_put, if_pos rfl]
      exact ⟨m, List.mem_cons_self, hNone, by simp [lookup_foldl_visit hm]⟩

/-- What visits do that change nothing: every struct without a number waits for one without. -/
theorem stuck_of_unchanged (h : (names.foldl (visit dependencies) state).2 = false) :
    (names.foldl (visit dependencies) state).1 = state.1 ∧
      ∀ n ∈ names, state.1.lookup n = none → ∃ d ∈ dependencies n, state.1.lookup d = none := by
  induction names generalizing state with
  | nil => simp
  | cons m names ih =>
    rw [List.foldl_cons] at h ⊢
    rcases visit_cases dependencies state m with ⟨hSame, hWaits⟩ | ⟨_, _, hPut⟩
    · rw [hSame] at h ⊢
      obtain ⟨hNumbers, hStuck⟩ := ih h
      exact ⟨hNumbers, List.forall_mem_cons.2 ⟨hWaits, hStuck⟩⟩
    · -- Once something has changed, that is not forgotten.
      have hKeeps : ∀ (names : List String) (state : Numbering × Bool), state.2 = true →
          (names.foldl (visit dependencies) state).2 = true := by
        intro names
        induction names with
        | nil => exact fun _ h => h
        | cons m names ih =>
          intro state hState
          refine ih _ ?_
          rcases visit_cases dependencies state m with ⟨hSame, _⟩ | ⟨_, _, hPut⟩
          · rw [hSame, hState]
          · rw [hPut]
      rw [hKeeps names _ (by rw [hPut])] at h
      cases h

theorem pass_unchanged (h : (pass dependencies names numbers).2 = false) :
    (pass dependencies names numbers).1 = numbers ∧
      ∀ n ∈ names, numbers.lookup n = none → ∃ d ∈ dependencies n, numbers.lookup d = none :=
  stuck_of_unchanged h

/-- After a pass that changes anything, fewer names have no number. -/
theorem missing_pass (h : (pass dependencies names numbers).2 = true) :
    ((pass dependencies names numbers).1.missing names).length <
      (numbers.missing names).length := by
  obtain ⟨n, hn, hOld, hNew⟩ := exists_of_changed rfl h
  have hSub : (pass dependencies names numbers).1.missing names =
      (numbers.missing names).filter
        (fun n => ((pass dependencies names numbers).1.lookup n).isNone) := by
    unfold Numbering.missing
    rw [List.filter_filter]
    apply List.filter_congr
    intro m _
    cases hm : numbers.lookup m with
    | none => simp
    | some k =>
      have hKeeps : (pass dependencies names numbers).1.lookup m = some k := lookup_foldl_visit hm
      simp [hKeeps]
  rw [hSub]
  refine List.length_filter_lt_length_iff_exists.2 ⟨n, ?_, ?_⟩
  · exact List.mem_filter.2 ⟨hn, by rw [hOld]; rfl⟩
  · rw [Option.isNone_iff_eq_none]
    exact hNew

end Loop

/-- Makes passes until one changes nothing. -/
def numbersFrom (dependencies : String → List String) (names : List String)
    (numbers : Numbering) : Numbering :=
  if (pass dependencies names numbers).2 then
    numbersFrom dependencies names (pass dependencies names numbers).1
  else (pass dependencies names numbers).1
termination_by (numbers.missing names).length
decreasing_by exact missing_pass ‹_›

/-! ## What numbers say -/

/-- The numbers are those of longest chains of dependencies, and what has none is numbered. -/
structure Numbering.Sound (dependencies : String → List String) (names : List String)
    (numbers : Numbering) : Prop where
  ascending : numbers.Ascending
  within : ∀ n k, numbers.lookup n = some k → n ∈ names
  started : ∀ n ∈ names, numbers.lookup n = none → dependencies n ≠ []
  longest : ∀ n k, numbers.lookup n = some k →
    IsGreatest (chainLengths (DependsOn dependencies) n) k

section Sound

variable {dependencies : String → List String} {names : List String} {numbers : Numbering}
  {state : Numbering × Bool} {n : String} {k : Nat}

theorem lookup_firstNumbers (n : String) :
    (firstNumbers dependencies names).lookup n =
      if n ∈ names ∧ dependencies n = [] then some 0 else none := by
  have run : ∀ (names : List String) (numbers : Numbering),
      (names.foldl (start dependencies) numbers).lookup n =
        if n ∈ names ∧ dependencies n = [] then some 0 else numbers.lookup n := by
    intro names
    induction names with
    | nil => simp
    | cons m names ih =>
      intro numbers
      rw [List.foldl_cons, ih, start]
      by_cases hm : dependencies m = []
      · rw [if_pos hm, Numbering.lookup_put]
        grind
      · rw [if_neg hm]
        grind
  exact run names []

theorem sound_firstNumbers (dependencies : String → List String) (names : List String) :
    (firstNumbers dependencies names).Sound dependencies names where
  ascending := by
    have run : ∀ (names : List String) (numbers : Numbering), numbers.Ascending →
        (names.foldl (start dependencies) numbers).Ascending := by
      intro names
      induction names with
      | nil => exact fun _ h => h
      | cons m names ih =>
        intro numbers h
        refine ih _ ?_
        unfold start
        split
        · exact h.put m 0
        · exact h
    exact run names [] .nil
  within n k h := by
    rw [lookup_firstNumbers] at h
    split at h
    · rename_i hn
      exact hn.1
    · cases h
  started n hn h hNone := by
    rw [lookup_firstNumbers, if_pos ⟨hn, hNone⟩] at h
    cases h
  longest n k h := by
    rw [lookup_firstNumbers] at h
    split at h
    · rename_i hn
      obtain rfl := Option.some.inj h
      refine isGreatest_zero_of_no_step ?_
      intro d hd
      simp [DependsOn, hn.2] at hd
    · cases h

/-- One visit keeps the numbers sound. -/
theorem Numbering.Sound.visit (h : state.1.Sound dependencies names) (hn : n ∈ names) :
    (visit dependencies state n).1.Sound dependencies names := by
  rcases visit_cases dependencies state n with
    ⟨hSame, -⟩ | ⟨hNone, hReady, hPut⟩
  · rw [hSame]
    exact h
  -- The struct has dependencies, and the greatest of their numbers is that of one of them.
  have hMem : ∀ {j}, j ∈ state.1.known (dependencies n) ↔
      ∃ d ∈ dependencies n, state.1.lookup d = some j := List.mem_filterMap
  obtain ⟨d, hd⟩ := List.exists_mem_of_ne_nil _ (h.started n hn hNone)
  obtain ⟨j, hj⟩ := hReady d hd
  obtain ⟨m, hm⟩ : ∃ m, (state.1.known (dependencies n)).max? = some m :=
    Option.isSome_iff_exists.1 (List.isSome_max?_of_mem (hMem.2 ⟨d, hd, hj⟩))
  obtain ⟨hMost, hUpper⟩ := List.max?_eq_some_iff.1 hm
  have hLongest : IsGreatest (chainLengths (DependsOn dependencies) n) (m + 1) := by
    refine isGreatest_succ_of_steps ?_ ?_
    · obtain ⟨e, he, hLookup⟩ := hMem.1 hMost
      exact ⟨e, he, h.longest e m hLookup⟩
    · intro e he
      obtain ⟨i, hi⟩ := hReady e he
      exact ⟨i, hUpper i (hMem.2 ⟨e, he, hi⟩), h.longest e i hi⟩
  rw [hPut, hm, Option.getD_some]
  refine ⟨h.ascending.put n _, ?_, ?_, ?_⟩
  · intro x k hx
    rw [lookup_put] at hx
    split at hx
    · rename_i hSame
      rwa [hSame]
    · exact h.within x k hx
  · intro x hxNames hx
    rw [lookup_put] at hx
    split at hx
    · cases hx
    · exact h.started x hxNames hx
  · intro x k hx
    rw [lookup_put] at hx
    split at hx
    · rename_i hSame
      obtain rfl := Option.some.inj hx
      rwa [hSame]
    · exact h.longest x k hx

/-- A pass keeps the numbers sound. -/
theorem Numbering.Sound.pass (h : numbers.Sound dependencies names) :
    (pass dependencies names numbers).1.Sound dependencies names := by
  have run : ∀ (visited : List String) (state : Numbering × Bool), visited ⊆ names →
      state.1.Sound dependencies names →
      (visited.foldl (StructGraph.visit dependencies) state).1.Sound dependencies names := by
    intro visited
    induction visited with
    | nil => exact fun _ _ h => h
    | cons n visited ih =>
      intro state hSub h
      obtain ⟨hn, hRest⟩ := List.cons_subset.1 hSub
      exact ih _ hRest (h.visit hn)
  exact run names (numbers, false) (List.Subset.refl _) h

/-- When no pass changes anything any more, a struct without a number depends on another one. -/
theorem Numbering.Sound.numbersFrom (h : numbers.Sound dependencies names) :
    (numbersFrom dependencies names numbers).Sound dependencies names ∧
      ∀ n ∈ names, (numbersFrom dependencies names numbers).lookup n = none →
        ∃ d ∈ dependencies n, (numbersFrom dependencies names numbers).lookup d = none := by
  fun_induction StructGraph.numbersFrom dependencies names numbers with
  | case1 numbers _ ih => exact ih h.pass
  | case2 numbers hUnchanged =>
    have hFlag : (StructGraph.pass dependencies names numbers).2 = false := by
      simpa using hUnchanged
    obtain ⟨hSame, hStuck⟩ := pass_unchanged hFlag
    rw [hSame]
    exact ⟨h, hStuck⟩

end Sound

/-! ## Rows -/

/-- Gives a number to a name that has none. -/
def Numbering.fill (k : Nat) (numbers : Numbering) (n : String) : Numbering :=
  if (numbers.lookup n).isSome then numbers else numbers.put n k

/-- The greatest number, or zero. -/
def Numbering.greatest (numbers : Numbering) : Nat :=
  (numbers.map Prod.snd).max?.getD 0

/-- The names with this number. -/
def Numbering.row (numbers : Numbering) (k : Nat) : List String :=
  (numbers.filter (fun x => x.2 == k)).map Prod.fst

/-- Puts a name at the end of the row of its number; none if there is no such row. -/
def putInRow (rows : List (List String)) (x : String × Nat) : Option (List (List String)) :=
  rows[x.2]?.map (fun row => rows.set x.2 (row ++ [x.1]))

section Numbered

variable (dependencies : String → List String) (names : List String)

/-- The numbers when nothing changes any more. -/
def finalNumbers : Numbering :=
  numbersFrom dependencies names (firstNumbers dependencies names)

/-- The numbers of all names: those that are left get the number after the greatest one. -/
def allNumbers : Numbering :=
  names.foldl (Numbering.fill ((finalNumbers dependencies names).greatest + 1))
    (finalNumbers dependencies names)

def rowCount : Nat :=
  (finalNumbers dependencies names).greatest +
    if names.any (fun n => ((finalNumbers dependencies names).lookup n).isNone) then 2 else 1

/-- The rows of names by their numbers; none if a number has no row. -/
def rowsOf : Option (List (List String)) :=
  if names = [] then some []
  else
    ((allNumbers dependencies names).foldlM putInRow
      (List.replicate (rowCount dependencies names) [])).map (fun rows => rows.filter (· ≠ []))

end Numbered

section Rows

variable {numbers : Numbering} {names : List String} {n : String} {k rest : Nat}

theorem lookup_fill (numbers : Numbering) :
    (names.foldl (Numbering.fill rest) numbers).lookup n = some k ↔
      numbers.lookup n = some k ∨ numbers.lookup n = none ∧ n ∈ names ∧ k = rest := by
  induction names generalizing numbers with
  | nil => simp
  | cons m names ih =>
    rw [List.foldl_cons, ih, Numbering.fill]
    cases hm : numbers.lookup m with
    | some j =>
      rw [Option.isSome_some, if_pos rfl]
      by_cases hn : n = m
      · subst hn
        rw [hm]
        simp
      · rw [List.mem_cons, or_iff_right hn]
    | none =>
      rw [Option.isSome_none, if_neg Bool.false_ne_true, Numbering.lookup_put]
      by_cases hn : n = m
      · subst hn
        rw [hm]
        simp [eq_comm]
      · rw [if_neg hn, List.mem_cons, or_iff_right hn]

theorem Numbering.Ascending.fill (h : numbers.Ascending) :
    (names.foldl (Numbering.fill rest) numbers).Ascending := by
  induction names generalizing numbers with
  | nil => exact h
  | cons m names ih =>
    refine ih ?_
    unfold Numbering.fill
    split
    · exact h
    · exact h.put m rest

theorem Numbering.Ascending.mem_row (h : numbers.Ascending) :
    n ∈ numbers.row k ↔ numbers.lookup n = some k := by
  rw [← h.mem_iff]
  simp [Numbering.row]

theorem Numbering.Ascending.row (h : numbers.Ascending) (k : Nat) :
    (numbers.row k).Pairwise (· < ·) :=
  h.sublist (List.filter_sublist.map _)

/-- The greatest number, where there are any. -/
theorem Numbering.Ascending.greatest (h : numbers.Ascending) (hn : numbers.lookup n = some k) :
    (∃ m, numbers.lookup m = some numbers.greatest) ∧ k ≤ numbers.greatest := by
  have hMem : ∀ {j}, j ∈ numbers.map Prod.snd ↔ ∃ m, numbers.lookup m = some j := by
    intro j
    simp only [List.mem_map, Prod.exists, exists_eq_right, h.mem_iff]
  obtain ⟨m, hm⟩ : ∃ m, (numbers.map Prod.snd).max? = some m :=
    Option.isSome_iff_exists.1 (List.isSome_max?_of_mem (hMem.2 ⟨n, hn⟩))
  obtain ⟨hMost, hUpper⟩ := List.max?_eq_some_iff.1 hm
  rw [Numbering.greatest, hm, Option.getD_some]
  exact ⟨hMem.1 hMost, hUpper k (hMem.2 ⟨n, hn⟩)⟩

/-- Where every number has a row, the names come to the rows of their numbers. -/
theorem foldlM_putInRow {rows : List (List String)} (h : ∀ x ∈ numbers, x.2 < rows.length) :
    numbers.foldlM putInRow rows = some (rows.mapIdx (fun k row => row ++ numbers.row k)) := by
  induction numbers generalizing rows with
  | nil =>
    refine congrArg some (List.ext_getElem? fun k => ?_)
    simp [Numbering.row]
  | cons x numbers ih =>
    obtain ⟨hx, hRest⟩ := List.forall_mem_cons.1 h
    rw [List.foldlM_cons, putInRow, List.getElem?_eq_getElem hx, Option.map_some,
      Option.bind_eq_bind, Option.bind_some, ih (by simpa using hRest)]
    refine congrArg some (List.ext_getElem? fun k => ?_)
    rw [List.getElem?_mapIdx, List.getElem?_mapIdx, List.getElem?_set]
    by_cases hk : x.2 = k
    · subst hk
      simp [hx, Numbering.row]
    · simp [hk, Numbering.row]

end Rows

/-! ## Rows are levels -/

section Final

variable {dependencies : String → List String} {names : List String} {n : String} {k : Nat}

theorem sound_finalNumbers (dependencies : String → List String) (names : List String) :
    (finalNumbers dependencies names).Sound dependencies names :=
  (sound_firstNumbers dependencies names).numbersFrom.1

variable (hWithin : ∀ a b, DependsOn dependencies a b → b ∈ names)
include hWithin

/-- Only structs from which dependencies lead into a cycle have no number in the end. -/
theorem lookup_finalNumbers_eq_none_iff (hn : n ∈ names) :
    (finalNumbers dependencies names).lookup n = none ↔ Tangled (DependsOn dependencies) n := by
  constructor
  · intro hNone
    have hStuck := (sound_firstNumbers dependencies names).numbersFrom.2
    have hMem : ∀ {m}, m ∈ (finalNumbers dependencies names).missing names ↔
        m ∈ names ∧ (finalNumbers dependencies names).lookup m = none := by
      intro m
      rw [Numbering.missing, List.mem_filter, Option.isNone_iff_eq_none]
    have hNext : ∀ m ∈ (finalNumbers dependencies names).missing names,
        ∃ d ∈ (finalNumbers dependencies names).missing names, DependsOn dependencies m d := by
      intro m hm
      obtain ⟨d, hd, hMissing⟩ := hStuck m (hMem.1 hm).1 (hMem.1 hm).2
      exact ⟨d, hMem.2 ⟨hWithin m d hd, hMissing⟩, hd⟩
    exact tangled_of_stuck hNext (hMem.2 ⟨hn, hNone⟩)
  · intro hTangled
    cases hk : (finalNumbers dependencies names).lookup n with
    | none => rfl
    | some k =>
      have hLongest := (sound_finalNumbers dependencies names).longest n k hk
      exact absurd hTangled (not_tangled_of_isGreatest hLongest)

/-- All others have the length of the longest chain. -/
theorem lookup_finalNumbers_eq_some_iff (hn : n ∈ names) :
    (finalNumbers dependencies names).lookup n = some k ↔
      IsGreatest (chainLengths (DependsOn dependencies) n) k := by
  have hSound := sound_finalNumbers dependencies names
  refine ⟨hSound.longest n k, ?_⟩
  intro hk
  cases hj : (finalNumbers dependencies names).lookup n with
  | none =>
    have hTangled := (lookup_finalNumbers_eq_none_iff hWithin hn).1 hj
    exact absurd hTangled (not_tangled_of_isGreatest hk)
  | some j => rw [(hSound.longest n j hj).unique hk]

end Final

theorem InRow.lt_length {rows : List (List String)} {k : Nat} {n : String} (h : InRow rows k n) :
    k < rows.length := by
  obtain ⟨row, hRow, -⟩ := h
  exact (List.getElem?_eq_some_iff.1 hRow).1

section Layering

variable {depends : String → String → Prop} {names : List String} {rows : List (List String)}
  {n : String} {k : Nat}

/-- Only which names there are matters. -/
theorem IsLayering.congr_names {names' : List String} (h : IsLayering depends names rows)
    (hSame : ∀ n, n ∈ names ↔ n ∈ names') : IsLayering depends names' rows :=
  { h with
    mem_iff := fun n => (h.mem_iff n).trans (hSame n)
    longest := fun n hn => h.longest n ((hSame n).2 hn) }

theorem IsLayering.mem_names_of_tangled (h : IsLayering depends names rows)
    (hn : Tangled depends n) : n ∈ names := by
  obtain ⟨row, hLast, hRow⟩ := h.last ⟨n, hn⟩
  exact (h.mem_iff n).1 (List.mem_flatten.2 ⟨row, List.mem_of_getLast? hLast, (hRow n).2 hn⟩)

/-- What leads into a cycle is in the last row. -/
theorem IsLayering.inRow_iff_of_tangled (h : IsLayering depends names rows)
    (hn : Tangled depends n) : InRow rows k n ↔ k + 1 = rows.length := by
  obtain ⟨row, hLast, hRow⟩ := h.last ⟨n, hn⟩
  rw [List.getLast?_eq_getElem?] at hLast
  have hEnd : InRow rows (rows.length - 1) n := ⟨row, hLast, (hRow n).2 hn⟩
  have hLength := hEnd.lt_length
  constructor
  · intro hk
    have := inRow_unique h.once hk hEnd
    omega
  · intro hk
    have hSame : k = rows.length - 1 := by omega
    rwa [hSame]

/-- The row of a name that does not lead into a cycle, counted with the row after it where others
do. -/
theorem IsLayering.exists_inRow_iff (h : IsLayering depends names rows) {c : Nat}
    (hc : c = 0 ∧ (∀ n, ¬ Tangled depends n) ∨ c = 1 ∧ ∃ n, Tangled depends n) :
    (∃ n ∈ names, ¬ Tangled depends n ∧ InRow rows k n) ↔ k + c < rows.length := by
  constructor
  · rintro ⟨n, hn, hNot, hk⟩
    have hLess := hk.lt_length
    rcases hc with ⟨rfl, -⟩ | ⟨rfl, t, ht⟩
    · exact hLess
    · -- The last row has no such name.
      obtain ⟨row, hLast, hRow⟩ := h.last ⟨t, ht⟩
      rw [List.getLast?_eq_getElem?] at hLast
      have hNotLast : k ≠ rows.length - 1 := by
        rintro rfl
        obtain ⟨row', hRow', hMem⟩ := hk
        rw [hLast] at hRow'
        cases hRow'
        exact hNot ((hRow n).1 hMem)
      omega
  · intro hLess
    have hk : k < rows.length := by omega
    obtain ⟨n, hn⟩ := List.exists_mem_of_ne_nil _ (h.nonempty _ (List.getElem_mem hk))
    have hRow : InRow rows k n := ⟨rows[k], List.getElem?_eq_getElem hk, hn⟩
    refine ⟨n, (h.mem_iff n).1 hRow.mem_flatten, ?_, hRow⟩
    intro hTangled
    have hEnd := (h.inRow_iff_of_tangled hTangled).1 hRow
    rcases hc with ⟨rfl, hNone⟩ | ⟨rfl, -⟩
    · exact hNone n hTangled
    · omega

end Layering

section Equality

variable {dependencies : String → List String} {names : List String} {rows : List (List String)}
  {n : String} {k : Nat}

/-- The numbers of names that do not lead into a cycle, as rows have them. -/
theorem IsLayering.lookup_finalNumbers (h : IsLayering (DependsOn dependencies) names rows)
    (hWithin : ∀ a b, DependsOn dependencies a b → b ∈ names) :
    (finalNumbers dependencies names).lookup n = some k ↔
      n ∈ names ∧ ¬ Tangled (DependsOn dependencies) n ∧ InRow rows k n := by
  constructor
  · intro hk
    have hn := (sound_finalNumbers dependencies names).within n k hk
    have hLongest := (lookup_finalNumbers_eq_some_iff hWithin hn).1 hk
    have hNot := not_tangled_of_isGreatest hLongest
    exact ⟨hn, hNot, (h.longest n hn hNot k).2 hLongest⟩
  · rintro ⟨hn, hNot, hk⟩
    exact (lookup_finalNumbers_eq_some_iff hWithin hn).2 ((h.longest n hn hNot k).1 hk)

theorem ascending_allNumbers (dependencies : String → List String) (names : List String) :
    (allNumbers dependencies names).Ascending :=
  (sound_finalNumbers dependencies names).ascending.fill

theorem IsLayering.lookup_allNumbers (h : IsLayering (DependsOn dependencies) names rows)
    (hWithin : ∀ a b, DependsOn dependencies a b → b ∈ names) :
    (allNumbers dependencies names).lookup n = some k ↔ n ∈ names ∧
      (¬ Tangled (DependsOn dependencies) n ∧ InRow rows k n ∨
        Tangled (DependsOn dependencies) n ∧
          k = (finalNumbers dependencies names).greatest + 1) := by
  rw [allNumbers, lookup_fill, h.lookup_finalNumbers hWithin]
  by_cases hn : n ∈ names
  · rw [lookup_finalNumbers_eq_none_iff hWithin hn]
    simp [hn]
  · simp [hn]

/-- Where the last number is that of the last row, names are in the rows of their numbers. -/
theorem IsLayering.mem_row_allNumbers (h : IsLayering (DependsOn dependencies) names rows)
    (hWithin : ∀ a b, DependsOn dependencies a b → b ∈ names)
    (hLast : Tangled (DependsOn dependencies) n →
      (finalNumbers dependencies names).greatest + 2 = rows.length) :
    n ∈ (allNumbers dependencies names).row k ↔ InRow rows k n := by
  rw [(ascending_allNumbers dependencies names).mem_row, h.lookup_allNumbers hWithin]
  by_cases hn : Tangled (DependsOn dependencies) n
  · have hEnd := hLast hn
    rw [h.inRow_iff_of_tangled hn]
    simp only [h.mem_names_of_tangled hn, hn, not_true_eq_false, true_and, false_and, false_or]
    omega
  · simp only [hn, not_false_eq_true, true_and, false_and, or_false, and_iff_right_iff_imp]
    exact fun hk => (h.mem_iff n).1 hk.mem_flatten

/-- How many rows there are beside those of numbers that were given before the end. -/
theorem rowCount_eq (hWithin : ∀ a b, DependsOn dependencies a b → a ∈ names ∧ b ∈ names) :
    ∃ c, rowCount dependencies names = (finalNumbers dependencies names).greatest + 1 + c ∧
      (c = 0 ∧ (∀ n, ¬ Tangled (DependsOn dependencies) n) ∨
        c = 1 ∧ ∃ n, Tangled (DependsOn dependencies) n) := by
  have hMem : ∀ {n}, Tangled (DependsOn dependencies) n → n ∈ names := by
    intro n hn
    obtain ⟨d, hStep, -⟩ := hn.exists_step
    exact (hWithin n d hStep).1
  have hNone : ∀ {n}, n ∈ names → ((finalNumbers dependencies names).lookup n = none ↔
      Tangled (DependsOn dependencies) n) :=
    fun hn => lookup_finalNumbers_eq_none_iff (fun a b hab => (hWithin a b hab).2) hn
  unfold rowCount
  split
  · rename_i hAny
    obtain ⟨n, hn, hLookup⟩ := List.any_eq_true.1 hAny
    exact ⟨1, rfl, .inr ⟨rfl, n, (hNone hn).1 (Option.isNone_iff_eq_none.1 hLookup)⟩⟩
  · rename_i hAny
    refine ⟨0, rfl, .inl ⟨rfl, fun n hn => hAny (List.any_eq_true.2 ⟨n, hMem hn, ?_⟩)⟩⟩
    exact Option.isNone_iff_eq_none.2 ((hNone (hMem hn)).2 hn)

/-- Every number has a row, which holds the names with this number. -/
theorem rowsOf_eq (hNames : names ≠ [])
    (hRange : ∀ x ∈ allNumbers dependencies names, x.2 < rowCount dependencies names) :
    rowsOf dependencies names = some (((List.range (rowCount dependencies names)).map
      (allNumbers dependencies names).row).filter (· ≠ [])) := by
  rw [rowsOf, if_neg hNames, foldlM_putInRow (by simpa using hRange), Option.map_some]
  refine congrArg (fun rows : List (List String) => some (rows.filter (· ≠ []))) ?_
  refine List.ext_getElem? fun k => ?_
  by_cases hk : k < rowCount dependencies names
  · simp [hk]
  · simp [hk]

/-- The numbers decide the rows: however rows are made, if they put the names in the order of what
they depend on, they are the rows of the numbers. -/
theorem rowsOf_eq_of_isLayering
    (hWithin : ∀ a b, DependsOn dependencies a b → a ∈ names ∧ b ∈ names)
    (h : IsLayering (DependsOn dependencies) names rows) :
    rowsOf dependencies names = some rows := by
  by_cases hNames : names = []
  · have hRows : rows = [] := by
      refine List.eq_nil_iff_forall_not_mem.2 fun row hRow => ?_
      obtain ⟨n, hn⟩ := List.exists_mem_of_ne_nil _ (h.nonempty row hRow)
      simpa [hNames] using (h.mem_iff n).1 (List.mem_flatten.2 ⟨row, hRow, hn⟩)
    rw [rowsOf, if_pos hNames, hRows]
  have hTo : ∀ a b, DependsOn dependencies a b → b ∈ names := fun a b hab => (hWithin a b hab).2
  have hFinal := (sound_finalNumbers dependencies names).ascending
  have hAll := ascending_allNumbers dependencies names
  obtain ⟨c, hCount, hc⟩ := rowCount_eq hWithin
  have hTangled : ∀ {n}, Tangled (DependsOn dependencies) n → c = 1 := by
    intro n hn
    rcases hc with ⟨-, hNone⟩ | ⟨hOne, -⟩
    · exact absurd hn (hNone n)
    · exact hOne
  have hKey : ∀ {k}, (∃ n, (finalNumbers dependencies names).lookup n = some k) ↔
      k + c < rows.length := by
    intro k
    simp only [h.lookup_finalNumbers hTo, ← h.exists_inRow_iff hc]
  have hRange : ∀ x ∈ allNumbers dependencies names, x.2 < rowCount dependencies names := by
    rintro ⟨n, k⟩ hx
    rw [hAll.mem_iff, h.lookup_allNumbers hTo] at hx
    obtain ⟨hn, ⟨hNot, hk⟩ | ⟨hn', rfl⟩⟩ := hx
    · have hLookup := (h.lookup_finalNumbers hTo).2 ⟨hn, hNot, hk⟩
      have := (hFinal.greatest hLookup).2
      simp only
      omega
    · have := hTangled hn'
      simp only
      omega
  rw [rowsOf_eq hNames hRange, hCount]
  refine congrArg some ?_
  by_cases hAny : ∃ n k, (finalNumbers dependencies names).lookup n = some k
  · -- Numbers were given, so the rows are as many as the numbers.
    obtain ⟨n, k, hk⟩ := hAny
    have hLength : (finalNumbers dependencies names).greatest + 1 + c = rows.length := by
      have hLess := hKey.1 (hFinal.greatest hk).1
      by_contra hNe
      obtain ⟨m, hm⟩ := hKey.2
        (show (finalNumbers dependencies names).greatest + 1 + c < rows.length by omega)
      have := (hFinal.greatest hm).2
      omega
    have hRows : (List.range ((finalNumbers dependencies names).greatest + 1 + c)).map
        (allNumbers dependencies names).row = rows := by
      refine List.ext_getElem (by simpa using hLength) fun k hk hk' => ?_
      rw [List.getElem_map, List.getElem_range]
      refine eq_of_ascending (hAll.row k) (h.ascending _ (List.getElem_mem hk')) fun n => ?_
      have hIn : n ∈ rows[k] ↔ InRow rows k n := by simp [InRow, hk']
      rw [hIn]
      refine h.mem_row_allNumbers hTo fun hn => ?_
      have := hTangled hn
      omega
    rw [hRows]
    exact List.filter_eq_self.2 fun row hRow => by simpa using h.nonempty row hRow
  · -- All names lead into a cycle, and the row of the number zero is empty.
    have hEmpty : finalNumbers dependencies names = [] :=
      List.eq_nil_iff_forall_not_mem.2 fun x hx => hAny ⟨x.1, x.2, hFinal.mem_iff.1 hx⟩
    have hCycle : ∀ n ∈ names, Tangled (DependsOn dependencies) n := fun n hn =>
      (lookup_finalNumbers_eq_none_iff hTo hn).1 (by rw [hEmpty]; rfl)
    have hGreatest : (finalNumbers dependencies names).greatest = 0 := by rw [hEmpty]; rfl
    obtain ⟨n, hn⟩ := List.exists_mem_of_ne_nil _ hNames
    have hOne := hTangled (hCycle n hn)
    have hLength : rows.length = 1 := by
      obtain ⟨k, hk⟩ := exists_inRow ((h.mem_iff n).2 hn)
      have hSome := hk.lt_length
      by_contra hNe
      obtain ⟨m, hm⟩ := hKey.2 (show 0 + c < rows.length by omega)
      exact hAny ⟨m, 0, hm⟩
    obtain ⟨row, rfl⟩ := List.length_eq_one_iff.1 hLength
    have hMem : ∀ m k, m ∈ (allNumbers dependencies names).row k ↔ m ∈ names ∧ k = 1 := by
      intro m k
      rw [hAll.mem_row, h.lookup_allNumbers hTo, hGreatest]
      refine and_congr_right fun hm => ?_
      simp [hCycle m hm]
    have hZero : (allNumbers dependencies names).row 0 = [] :=
      List.eq_nil_iff_forall_not_mem.2 fun m hm => by simpa using ((hMem m 0).1 hm).2
    have hRow : (allNumbers dependencies names).row 1 = row := by
      refine eq_of_ascending (hAll.row 1) (h.ascending row List.mem_cons_self) fun m => ?_
      simpa [hMem] using (h.mem_iff m).symm
    have hNonempty := h.nonempty row List.mem_cons_self
    simp [hGreatest, hOne, List.range_succ, hZero, hRow, hNonempty]

end Equality

/-- Names in ascending order, each once. -/
def sorted (names : List String) : List String :=
  (names.mergeSort (fun a b => decide (a ≤ b))).eraseDups

/-- The rows of the structs of a graph by number, each struct with the set of its dependencies. -/
def rowsByNumber (g : StructGraph) : Option (List (List String)) :=
  rowsOf (fun n => sorted (g.dependencies n)) (sorted g.nodes)

theorem dependsOn_sorted (g : StructGraph) :
    DependsOn (fun n => sorted (g.dependencies n)) = DependsOn g.dependencies := by
  funext a b
  simp [DependsOn, sorted]

/-- The levels of the structs of a model, whatever its links are, and how they are numbered: the
passes over the structs end, every number has a row, and the rows are the levels. -/
theorem levels_isLayering (model : Model) :
    (ofModel model).rowsByNumber = some (ofModel model).levels ∧
      IsLayering (ofModel model).StoresKeyOf model.structNames (ofModel model).levels := by
  have hLayers := isLayering_levels model
  refine ⟨?_, hLayers⟩
  have hNames : ∀ n, n ∈ sorted (ofModel model).nodes ↔ n ∈ (ofModel model).nodes := by
    simp [sorted]
  refine rowsOf_eq_of_isLayering ?_ ?_
  · intro a b hab
    rw [dependsOn_sorted] at hab
    simpa only [hNames] using mem_nodes_of_dependsOn hab
  · rw [dependsOn_sorted, dependsOn_eq_storesKeyOf]
    exact hLayers.congr_names fun n => (hNames n).symm

end StructGraph

end EntitySchema
