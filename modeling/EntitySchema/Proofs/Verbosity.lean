import EntitySchema.CommandLine.EarlyOptions
import Mathlib.Algebra.GroupWithZero.Nat
import Mathlib.Data.List.Basic
import Mathlib.Data.List.TakeDrop

/-!
How much is logged. Every `--verbose` among the arguments counts, and every `v` in a cluster of
short options, up to a largest verbosity of 255. The sum stops there, but the letters of one cluster
are counted in a byte before they are added. The main result gives the exact verbosity, and says
when it is the number of all that counts, or 255 if there is more.
-/

namespace EntitySchema.CommandLine

/-! ## Arguments that count -/

/-- The argument is the option, alone or with a value after an equals sign. -/
def IsOption (name argument : String) : Prop :=
  argument = name ∨ name.toList ++ ['='] <+: argument.toList

/-- One dash, and after it only letters `v` and `y`. -/
def IsCluster (argument : String) : Prop :=
  argument.toList.head? = some '-' ∧ argument.toList.tail.all (fun c => c == 'v' || c == 'y')

/-- The argument after this one is its value. -/
def TakesNext (argument : String) : Prop :=
  argument = "--plugin" ∨ argument = "--config"

instance (name argument : String) : Decidable (IsOption name argument) :=
  inferInstanceAs (Decidable (_ ∨ _))

instance (argument : String) : Decidable (IsCluster argument) :=
  inferInstanceAs (Decidable (_ ∧ _))

instance (argument : String) : Decidable (TakesNext argument) :=
  inferInstanceAs (Decidable (_ ∨ _))

/-- The arguments before the first `--` that are text, without the values of other arguments. A `--`
that is such a value ends nothing. -/
def regarded : List Argument → List String
  | [] => []
  | .bytes _ :: rest => regarded rest
  | [.text argument] => if argument = "--" then [] else [argument]
  | .text argument :: next :: rest =>
    if argument = "--" then []
    else if TakesNext argument then argument :: regarded rest
    else argument :: regarded (next :: rest)

/-- How many of the arguments are `--verbose`. -/
def verboseOptions (arguments : List Argument) : Nat :=
  (regarded arguments).countP (fun a => IsOption "--verbose" a)

/-- How often `v` stands in each cluster. -/
def clusterCounts (arguments : List Argument) : List Nat :=
  ((regarded arguments).filter (fun a => IsCluster a)).map (fun a => a.toList.count 'v')

/-- The letters `v` of an argument, as many as a byte keeps. -/
def byteCount (argument : String) : Nat :=
  argument.toList.count 'v' % 256

/-- What one argument adds to the verbosity, with the letters of a cluster counted by `count`. -/
def raises (count : String → Nat) (argument : String) : Nat :=
  if IsOption "--verbose" argument then 1 else if IsCluster argument then count argument else 0

section Counts

variable {argument : String} {count : String → Nat}

/-- No cluster has a second dash. -/
theorem not_isCluster_of_dashes {cs : List Char} (h : argument.toList = '-' :: '-' :: cs) :
    ¬ IsCluster argument := by
  rintro ⟨_, hLetters⟩
  simp [h] at hLetters

theorem IsCluster.not_isOption (h : IsCluster argument) : ¬ IsOption "--verbose" argument := by
  rintro (rfl | ⟨value, hValue⟩)
  · exact absurd h (by decide)
  · exact not_isCluster_of_dashes hValue.symm h

theorem sum_raises (arguments : List String) :
    (arguments.map (raises count)).sum =
      arguments.countP (fun a => IsOption "--verbose" a) +
        ((arguments.filter (fun a => IsCluster a)).map count).sum := by
  induction arguments with
  | nil => rfl
  | cons argument arguments ih =>
    rw [List.map_cons, List.sum_cons, ih]
    by_cases hOption : IsOption "--verbose" argument
    · have hCluster : ¬ IsCluster argument := fun h => h.not_isOption hOption
      simp only [raises, hOption, hCluster, if_true, List.countP_cons, List.filter_cons,
        decide_true, decide_false, Bool.false_eq_true, if_false]
      omega
    · by_cases hCluster : IsCluster argument
      · simp only [raises, hOption, hCluster, if_true, List.countP_cons, List.filter_cons,
          decide_true, decide_false, Bool.false_eq_true, if_false, List.map_cons, List.sum_cons]
        omega
      · simp only [raises, hOption, hCluster, List.countP_cons, List.filter_cons, decide_false,
          Bool.false_eq_true, if_false]
        omega

end Counts

/-! ## One argument -/

/-- Two dashes, a name and a value after an equals sign. -/
def IsInline (argument : String) (name value : List Char) : Prop :=
  '=' ∉ name ∧ argument.toList = '-' :: '-' :: name ++ '=' :: value

section Arguments

variable {argument : String} {early : EarlyOptions} {rest : List Argument}

theorem splitOption_inline {name value : List Char} (h : IsInline argument name value) :
    splitOption argument = (String.ofList ('-' :: '-' :: name), some (String.ofList value)) := by
  have hName : ∀ c ∈ '-' :: '-' :: name, (c != '=') = true := by
    have hOther : ∀ c ∈ name, c ≠ '=' := fun c hc hEq => h.1 (hEq ▸ hc)
    simpa using hOther
  rw [splitOption, h.2, List.span_eq_takeWhile_dropWhile, List.takeWhile_append_of_pos hName,
    List.dropWhile_append_of_pos hName]
  simp

theorem splitOption_plain (h : ∀ name value, ¬ IsInline argument name value) :
    splitOption argument = (argument, none) := by
  rw [splitOption, List.span_eq_takeWhile_dropWhile]
  split
  · rename_i name value hSpan
    obtain ⟨hTake, hDrop⟩ := Prod.mk.inj hSpan
    refine absurd ⟨?_, ?_⟩ (h name value)
    · intro hMem
      have hTaken : '=' ∈ argument.toList.takeWhile (· != '=') := by simp [hTake, hMem]
      simpa using List.all_eq_true.1 List.all_takeWhile _ hTaken
    · rw [← hTake, ← hDrop, List.takeWhile_append_dropWhile]
  · rfl

theorem splitOption_none (argument : String) (h : (splitOption argument).2 = none) :
    (splitOption argument).1 = argument := by
  unfold splitOption at h ⊢
  split at h
  · cases h
  · rfl

/-- The byte of a cluster's letters is what the scan adds for it. -/
theorem lettersV_eq (argument : String) : EarlyOptions.lettersV argument =
    if IsCluster argument then byteCount argument else 0 := by
  unfold EarlyOptions.lettersV
  split
  · rename_i h
    rw [if_neg (not_isCluster_of_dashes h)]
  · rename_i letters _ h
    simp [IsCluster, byteCount, h]
  · rename_i h
    rw [if_neg]
    rintro ⟨hHead, _⟩
    obtain ⟨letters, hText⟩ := List.head?_eq_some_iff.1 hHead
    exact h letters hText

theorem scanFrom_end : early.scanFrom (.text "--" :: rest) = early := by
  rw [EarlyOptions.scanFrom, if_pos (by decide)]

/-- The value of an option stands in the next argument; without one the scan ends. -/
theorem scanFrom_takesNext (h : TakesNext argument) :
    early.scanFrom (.text argument :: rest) = rest.head?.elim early
      (fun value => (early.setPath argument value.path).scanFrom rest.tail) := by
  have hEnd : (argument == "--") = false := by rcases h with rfl | rfl <;> decide
  have hSplit : splitOption argument = (argument, none) := by rcases h with rfl | rfl <;> decide
  have hPath : (argument == "--plugin" || argument == "--config") = true := by
    rcases h with rfl | rfl <;> decide
  rw [EarlyOptions.scanFrom]
  simp only [hEnd, hSplit, hPath, Bool.false_eq_true, if_false, if_true]
  cases rest <;> rfl

theorem verbosity_setPath (early : EarlyOptions) (name : String) (value : Path) :
    (early.setPath name value).verbosity = early.verbosity := by
  unfold EarlyOptions.setPath
  split <;> rfl

/-- What the argument is cut to tells whether it is the option. -/
theorem isOption_iff (argument : String) {name : List Char} (hName : '=' ∉ name) :
    IsOption (String.ofList ('-' :: '-' :: name)) argument ↔
      (splitOption argument).1 = String.ofList ('-' :: '-' :: name) := by
  constructor
  · rintro (rfl | ⟨value, hValue⟩)
    · rw [splitOption_plain]
      rintro name' value ⟨_, hText⟩
      rw [String.toList_ofList] at hText
      have hMem : '=' ∈ '-' :: '-' :: name := by simp [hText]
      simp [hName] at hMem
    · have hInline : IsInline argument name value := ⟨hName, by simp [← hValue]⟩
      rw [splitOption_inline hInline]
  · intro hFirst
    by_cases h : ∃ name' value, IsInline argument name' value
    · obtain ⟨name', value, hInline⟩ := h
      rw [splitOption_inline hInline] at hFirst
      exact .inr ⟨value, by simp [← hFirst, hInline.2]⟩
    · simp only [not_exists] at h
      rw [splitOption_plain h] at hFirst
      exact .inl hFirst

/-- What an argument adds can be told from what it is cut to, as the scan does. -/
theorem raises_eq (argument : String) :
    raises byteCount argument =
      if (splitOption argument).1 = "--verbose" then 1
      else EarlyOptions.lettersV (splitOption argument).1 := by
  refine if_congr (isOption_iff argument (by decide : '=' ∉ "verbose".toList)) rfl ?_
  by_cases h : ∃ name value, IsInline argument name value
  · -- Both the argument and its name start with two dashes, so neither is a cluster.
    obtain ⟨name, value, hInline⟩ := h
    rw [splitOption_inline hInline, lettersV_eq, if_neg (not_isCluster_of_dashes hInline.2),
      if_neg (not_isCluster_of_dashes String.toList_ofList)]
  · simp only [not_exists] at h
    rw [splitOption_plain h, lettersV_eq]

/-- An argument that is looked at adds what it counts, unless the next one is its value. -/
theorem scanFrom_counts (rest : List Argument) (hEnd : argument ≠ "--")
    (hNext : ¬ TakesNext argument) (hLe : early.verbosity ≤ maxVerbosity) :
    ∃ next : EarlyOptions, early.scanFrom (.text argument :: rest) = next.scanFrom rest ∧
      next.verbosity = min (early.verbosity + raises byteCount argument) maxVerbosity := by
  have hSplit := splitOption_none argument
  rw [raises_eq, EarlyOptions.scanFrom, if_neg (by simpa using hEnd)]
  generalize splitOption argument = cut at hSplit
  obtain ⟨name, inline⟩ := cut
  dsimp only
  split
  · -- The value stands behind an equals sign, since otherwise the next argument would be it.
    rename_i hPath
    have hName : TakesNext name := by simpa [TakesNext] using hPath
    cases inline with
    | none => exact absurd (hSplit rfl ▸ hName) hNext
    | some value =>
      refine ⟨_, rfl, ?_⟩
      have hAdds : (if name = "--verbose" then 1 else EarlyOptions.lettersV name) = 0 := by
        rcases hName with rfl | rfl <;> decide
      rw [verbosity_setPath, hAdds]
      omega
  · split
    · rename_i hVerbose
      refine ⟨_, rfl, ?_⟩
      rw [if_pos (by simpa using hVerbose)]
      rfl
    · rename_i hVerbose
      refine ⟨_, rfl, ?_⟩
      rw [if_neg (by simpa using hVerbose)]
      rfl

theorem raises_takesNext (h : TakesNext argument) : raises byteCount argument = 0 := by
  rcases h with rfl | rfl <;> decide

end Arguments

/-! ## All arguments -/

/-- The scan adds what every argument counts, and stops at the largest verbosity. -/
theorem verbosity_scanFrom (early : EarlyOptions) (arguments : List Argument)
    (hLe : early.verbosity ≤ maxVerbosity) :
    (early.scanFrom arguments).verbosity =
      min (early.verbosity + ((regarded arguments).map (raises byteCount)).sum) maxVerbosity := by
  -- The scan goes on as the regarded arguments do, and each of them changes what is found so far.
  fun_induction regarded arguments generalizing early with
  | case1 => simp [EarlyOptions.scanFrom, hLe]
  | case2 bs rest ih => exact ih early hLe
  | case3 => simp [scanFrom_end, hLe]
  | case4 argument hEnd =>
    by_cases hNext : TakesNext argument
    · simp [scanFrom_takesNext hNext, raises_takesNext hNext, hLe]
    · obtain ⟨next, hScan, hVerbosity⟩ := scanFrom_counts [] hEnd hNext hLe
      simp [hScan, EarlyOptions.scanFrom, hVerbosity]
  | case5 => simp [scanFrom_end, hLe]
  | case6 argument value rest hEnd hNext ih =>
    have hSame := verbosity_setPath early argument value.path
    rw [scanFrom_takesNext hNext, List.head?_cons, Option.elim_some, List.tail_cons,
      ih _ (by omega), hSame, List.map_cons, List.sum_cons, raises_takesNext hNext,
      Nat.zero_add]
  | case7 argument next rest hEnd hNext ih =>
    obtain ⟨early', hScan, hVerbosity⟩ := scanFrom_counts (next :: rest) hEnd hNext hLe
    rw [hScan, ih early' (by omega), hVerbosity, List.map_cons, List.sum_cons]
    omega

/-- Counted in bytes, numbers keep their sum exactly if each of them fits in a byte. -/
theorem sum_bytes (ns : List Nat) :
    (ns.map (· % 256)).sum ≤ ns.sum ∧
      ((ns.map (· % 256)).sum = ns.sum ↔ ∀ n ∈ ns, n < 256) := by
  induction ns with
  | nil => simp
  | cons n ns ih =>
    have hByte := Nat.mod_le n 256
    have hFits : n % 256 = n ↔ n < 256 := by omega
    simp only [List.map_cons, List.sum_cons, List.forall_mem_cons, ← ih.2, ← hFits]
    omega

/-- The verbosity is the number of all that counts, cut off at 255, with the letters of each cluster
counted in a byte. The bytes make a difference exactly if some cluster has 256 letters `v` or more
and what is counted does not reach 255. -/
theorem verbosity_saturates_iff {α : Type} [ToArgument α] (arguments : List α) :
    (EarlyOptions.scan arguments).verbosity =
        min 255 (verboseOptions (given arguments) +
          ((clusterCounts (given arguments)).map (· % 256)).sum) ∧
      ((EarlyOptions.scan arguments).verbosity =
          min 255 (verboseOptions (given arguments) + (clusterCounts (given arguments)).sum) ↔
        (∀ n ∈ clusterCounts (given arguments), n < 256) ∨
          255 ≤ verboseOptions (given arguments) +
            ((clusterCounts (given arguments)).map (· % 256)).sum) := by
  have hExact : (EarlyOptions.scan arguments).verbosity =
      min 255 (verboseOptions (given arguments) +
        ((clusterCounts (given arguments)).map (· % 256)).sum) := by
    have hCounts : (clusterCounts (given arguments)).map (· % 256) =
        ((regarded (given arguments)).filter (fun a => IsCluster a)).map byteCount := by
      rw [clusterCounts, List.map_map]
      rfl
    rw [EarlyOptions.scan, verbosity_scanFrom {} (given arguments) (by decide), sum_raises, hCounts,
      verboseOptions, Nat.min_comm, Nat.zero_add]
    rfl
  obtain ⟨hLe, hFits⟩ := sum_bytes (clusterCounts (given arguments))
  refine ⟨hExact, ?_⟩
  rw [hExact, ← hFits]
  omega

/-- A cluster of 256 letters adds nothing. -/
theorem long_cluster_unheard :
    (EarlyOptions.scan ["schemagen", String.ofList ('-' :: List.replicate 256 'v')]).verbosity ≠
      min 255 (verboseOptions [.text (String.ofList ('-' :: List.replicate 256 'v'))] +
        (clusterCounts [.text (String.ofList ('-' :: List.replicate 256 'v'))]).sum) := by
  -- With 256 as a variable, no step has to write the letters out.
  have hCluster : ∀ n cluster, cluster = String.ofList ('-' :: List.replicate n 'v') →
      (EarlyOptions.scan ["schemagen", cluster]).verbosity = min (n % 256) 255 ∧
        clusterCounts [.text cluster] = [n] := by
    rintro n cluster hText
    have hChars : cluster.toList = '-' :: List.replicate n 'v' := by
      rw [hText, String.toList_ofList]
    have hCluster : IsCluster cluster := by simp [IsCluster, hChars]
    have hRegarded : regarded [.text cluster] = [cluster] := by
      refine if_neg ?_
      rintro rfl
      exact absurd hCluster (by decide)
    have hGiven : given ["schemagen", cluster] = [.text cluster] := rfl
    have hRaises : raises byteCount cluster = n % 256 := by
      simp [raises, hCluster, hCluster.not_isOption, byteCount, hChars]
    constructor
    · rw [EarlyOptions.scan, hGiven, verbosity_scanFrom {} _ (by decide), hRegarded]
      simp [hRaises, maxVerbosity]
    · simp [clusterCounts, hRegarded, hCluster, hChars]
  obtain ⟨hScan, hCount⟩ := hCluster 256 _ rfl
  rw [hScan, hCount, List.sum_singleton]
  omega

end EntitySchema.CommandLine
