import EntitySchema.Proofs.Writing

/-!
Registration of generators. The name of a generator is looked at as a path, and it has to have one
component, which is a name. Slashes after the name and dots between them are no components, so one
directory name can be spelled in many ways; whether a name is taken is told from the spelling. The
main result says exactly which generators are accepted, and which of them share an output directory:
those that spell the same directory name, and so none whose names have no slash.
-/

namespace EntitySchema

/-! ## Spellings of a directory name -/

namespace Path

/-- A name that a directory can have: not empty, without a slash, and neither of the two names that
stand for a directory itself and for the one above it. -/
structure IsDirectoryName (n : String) : Prop where
  notEmpty : n ≠ ""
  noSlash : '/' ∉ n.toList
  notCurrent : n ≠ "."
  notParent : n ≠ ".."

/-- The path starts with a directory name, and all that it has after further slashes is empty or a
dot. -/
structure Spells (p : Path) (n : String) : Prop where
  name : IsDirectoryName n
  segments : ∃ rest, p.segments = n.toList :: rest ∧ ∀ s ∈ rest, s = [] ∨ s = ['.']

variable {p : Path} {n : String} {s : List Char}

theorem isVoid_iff : isVoid s = true ↔ s = [] ∨ s = ['.'] := by
  simp [isVoid]

theorem component?_eq_none_iff : component? s = none ↔ s = [] ∨ s = ['.'] := by
  rw [← isVoid_iff]
  unfold component?
  split
  · rename_i hVoid
    simp [hVoid]
  · rename_i hVoid
    split <;> simp only [reduceCtorEq, false_iff] <;> exact hVoid

/-- A segment is a name unless it stands for no directory, for the same or for the one above. -/
theorem component?_eq_name_iff (hSlash : '/' ∉ s) :
    component? s = some (.name n) ↔ s = n.toList ∧ IsDirectoryName n := by
  constructor
  · intro h
    unfold component? at h
    split at h
    · cases h
    · rename_i hVoid
      split at h
      · cases h
      · rename_i hParent
        obtain rfl := Component.name.inj (Option.some.inj h)
        rw [isVoid_iff, not_or] at hVoid
        refine ⟨by simp, ⟨?_, by simpa using hSlash, ?_, ?_⟩⟩
        · simpa using hVoid.1
        · intro hDot
          exact hVoid.2 (by simpa using congrArg String.toList hDot)
        · intro hDots
          exact hParent (by simpa using congrArg String.toList hDots)
  · rintro ⟨rfl, hName⟩
    have hVoid : ¬ isVoid n.toList = true := by
      rw [isVoid_iff]
      rintro (hEmpty | hDot)
      · exact hName.notEmpty (by simpa using hEmpty)
      · exact hName.notCurrent (String.toList_inj.1 hDot)
    have hParent : n.toList ≠ ['.', '.'] := fun hDots =>
      hName.notParent (String.toList_inj.1 hDots)
    rw [component?, if_neg hVoid, if_neg hParent, String.ofList_toList]

/-- The paths of one component that is a name are the spellings of that name. -/
theorem components_eq_name_iff : p.components = [.name n] ↔ p.Spells n := by
  obtain ⟨first, rest, hSegments⟩ : ∃ first rest, p.segments = first :: rest :=
    List.exists_cons_of_ne_nil (List.splitOn_ne_nil _ _)
  have hSlash : '/' ∉ first := p.not_mem_segments first (by simp [hSegments])
  -- What is left of the segments: the first is a name and no other counts.
  have hCount : (first :: rest).filterMap component? = [.name n] ∧
      ¬ (first = [] ∨ first = ['.']) ↔ p.Spells n := by
    rw [← component?_eq_none_iff]
    constructor
    · rintro ⟨hAll, hFirst⟩
      obtain ⟨c, hc⟩ := Option.ne_none_iff_exists'.1 hFirst
      rw [List.filterMap_cons_some hc, List.cons.injEq, List.filterMap_eq_nil_iff] at hAll
      obtain ⟨rfl, hRest⟩ := hAll
      obtain ⟨rfl, hName⟩ := (component?_eq_name_iff hSlash).1 hc
      exact ⟨hName, rest, hSegments, fun s hs => component?_eq_none_iff.1 (hRest s hs)⟩
    · rintro ⟨hName, rest', hSpelled, hRest⟩
      obtain ⟨rfl, rfl⟩ := List.cons.inj (hSegments.symm.trans hSpelled)
      have hc := (component?_eq_name_iff hSlash).2 ⟨rfl, hName⟩
      refine ⟨?_, by simp [hc]⟩
      rw [List.filterMap_cons_some hc, List.filterMap_eq_nil_iff.2]
      exact fun s hs => component?_eq_none_iff.2 (hRest s hs)
  rw [← hCount]
  unfold components
  rw [hSegments]
  split <;> simp_all

/-- Without a slash there is nothing to spell but the name itself. -/
theorem spells_iff_of_noSlash (hSlash : '/' ∉ p.text.toList) :
    p.Spells n ↔ n = p.text ∧ IsDirectoryName n := by
  have hSegments : p.segments = [p.text.toList] := List.splitOn_eq_singleton hSlash
  constructor
  · rintro ⟨hName, rest, hSpelled, _⟩
    rw [hSegments] at hSpelled
    exact ⟨String.toList_inj.1 (List.cons.inj hSpelled).1.symm, hName⟩
  · rintro ⟨rfl, hName⟩
    exact ⟨hName, [], hSegments, by simp⟩

/-- However the name is spelled, the path leads from a directory to the entry of this name. -/
theorem Spells.landingOf_join (h : p.Spells n) (tree : FileTree) (root : Path) :
    tree.landingOf (root.join p) = tree.landingOf root ++ [n] := by
  have hComponents : p.components = [n].map .name := components_eq_name_iff.2 h
  have hText : p.text ≠ "" := by
    intro hEmpty
    obtain ⟨_, hSegments, _⟩ := h.segments
    rw [text_eq_empty_iff.1 hEmpty] at hSegments
    exact h.name.notEmpty (by simpa using (List.cons.inj hSegments).1.symm)
  obtain ⟨hRelative, hLanding⟩ := landing_of_names hText hComponents
  rw [FileTree.landingOf_join tree root hRelative, hLanding]

end Path

/-! ## Calls -/

namespace Engine

open EntitySchema.Path

variable {engine : Engine} {g : Generator} {n : String}

theorem isPlainName_iff : isPlainName n = true ↔ ∃ d, (Path.mk n).Spells d := by
  simp only [← components_eq_name_iff]
  unfold isPlainName
  split
  · rename_i text hOne
    exact ⟨fun _ => ⟨text, hOne⟩, fun _ => rfl⟩
  · rename_i hOther
    exact ⟨nofun, fun ⟨d, hd⟩ => absurd hd (hOther d)⟩

/-- A call to register a generator: the engine after it, and what the call returns. A generator
that is refused leaves the engine as it is. -/
def call (engine : Engine) (g : Generator) : Engine × Except ComposeError Unit :=
  match engine.register g with
  | .ok engine => (engine, .ok ())
  | .error e => (engine, .error e)

/-- The engine after some calls, whatever they return. -/
def afterCalls (calls : List Generator) : Engine :=
  calls.foldl (fun engine g => (engine.call g).1) {}

/-- The output directory of a generator. -/
def directory (root : Path) (g : Generator) : Path :=
  root.join ⟨g.name⟩

/-- All that a call can do. -/
theorem call_cases (engine : Engine) (g : Generator) :
    ((¬ ∃ d, (Path.mk g.name).Spells d) ∧
      engine.call g = (engine, .error (.invalidGeneratorName g.name))) ∨
    ((∃ d, (Path.mk g.name).Spells d) ∧ g.name ∈ engine.names ∧
      engine.call g = (engine, .error (.duplicateGenerator g.name))) ∨
    ((∃ d, (Path.mk g.name).Spells d) ∧ g.name ∉ engine.names ∧
      engine.call g = (⟨engine.generators ++ [g]⟩, .ok ())) := by
  unfold call register
  rw [← isPlainName_iff]
  by_cases hPlain : isPlainName g.name = true
  · by_cases hTaken : g.name ∈ engine.names
    · refine .inr (.inl ⟨hPlain, hTaken, ?_⟩)
      simp [hPlain, hTaken]
    · refine .inr (.inr ⟨hPlain, hTaken, ?_⟩)
      simp [hPlain, hTaken]
  · refine .inl ⟨hPlain, ?_⟩
    simp [hPlain]

/-- No two generators have one name, and each name spells a directory name. -/
structure WellNamed (engine : Engine) : Prop where
  distinct : engine.names.Nodup
  spelled : ∀ g ∈ engine.generators, ∃ d, (Path.mk g.name).Spells d

theorem WellNamed.call (h : engine.WellNamed) (g : Generator) : (engine.call g).1.WellNamed := by
  obtain ⟨_, hCall⟩ | ⟨_, _, hCall⟩ | ⟨hSpelled, hNew, hCall⟩ := call_cases engine g
  · rw [hCall]
    exact h
  · rw [hCall]
    exact h
  · rw [hCall]
    have hNames : (Engine.mk (engine.generators ++ [g])).names = engine.names ++ [g.name] := by
      simp [names]
    refine ⟨?_, ?_⟩
    · rw [hNames, List.nodup_append]
      refine ⟨h.distinct, List.nodup_singleton _, ?_⟩
      intro a ha b hb hSame
      rw [List.mem_singleton.1 hb] at hSame
      exact hNew (hSame ▸ ha)
    · intro g' hg'
      rcases List.mem_append.1 hg' with hg' | hg'
      · exact h.spelled g' hg'
      · rw [List.mem_singleton.1 hg']
        exact hSpelled

theorem wellNamed_afterCalls (calls : List Generator) : (afterCalls calls).WellNamed := by
  -- The engine that the calls start from is generalized to any that is well named.
  have run : ∀ (calls : List Generator) (engine : Engine), engine.WellNamed →
      (calls.foldl (fun engine g => (engine.call g).1) engine).WellNamed := by
    intro calls
    induction calls with
    | nil => exact fun _ h => h
    | cons g calls ih => exact fun engine h => ih _ (h.call g)
  exact run calls {} ⟨List.nodup_nil, by simp⟩

theorem call_eq_ok_iff :
    (engine.call g).2 = .ok () ↔ (∃ d, (Path.mk g.name).Spells d) ∧ g.name ∉ engine.names := by
  obtain ⟨hNone, hCall⟩ | ⟨_, hTaken, hCall⟩ | ⟨hSpelled, hNew, hCall⟩ := call_cases engine g
  · simp [hCall, hNone]
  · simp [hCall, hTaken]
  · simp [hCall, hSpelled, hNew]

/-- Two generators share a directory exactly if they spell the same name. -/
theorem landingOf_directory_eq_iff {g h : Generator} {d d' : String}
    (hg : (Path.mk g.name).Spells d) (hh : (Path.mk h.name).Spells d') (tree : FileTree)
    (root : Path) :
    tree.landingOf (directory root g) = tree.landingOf (directory root h) ↔ d = d' := by
  rw [directory, directory, hg.landingOf_join, hh.landingOf_join]
  simp

/-- Registration in an engine that any calls have led to. A call succeeds exactly if the name of
the generator spells a directory name and is not taken, and then the generator comes last; a call
that fails changes nothing. A name without a slash is accepted exactly if it is a directory name
that is not taken. Two generators share their output directory exactly if they spell the same
directory name, and so never without a slash in their names. -/
theorem registration_exact (calls : List Generator) :
    (∀ g, ((afterCalls calls).call g).2 = .ok () ↔
      (∃ d, (Path.mk g.name).Spells d) ∧ g.name ∉ (afterCalls calls).names) ∧
    (∀ g, '/' ∉ g.name.toList →
      (((afterCalls calls).call g).2 = .ok () ↔
        g.name ≠ "" ∧ g.name ≠ "." ∧ g.name ≠ ".." ∧ g.name ∉ (afterCalls calls).names)) ∧
    (∀ g, ((afterCalls calls).call g).2 = .ok () →
      ((afterCalls calls).call g).1.generators = (afterCalls calls).generators ++ [g]) ∧
    (∀ g, ((afterCalls calls).call g).2 ≠ .ok () →
      ((afterCalls calls).call g).1 = afterCalls calls) ∧
    (afterCalls calls).generators.Pairwise (fun g h =>
      ∃ d d', (Path.mk g.name).Spells d ∧ (Path.mk h.name).Spells d' ∧
        ∀ (tree : FileTree) (root : Path),
          tree.landingOf (directory root g) = tree.landingOf (directory root h) ↔ d = d') ∧
    (afterCalls calls).generators.Pairwise (fun g h =>
      '/' ∉ g.name.toList → '/' ∉ h.name.toList → ∀ (tree : FileTree) (root : Path),
        tree.landingOf (directory root g) ≠ tree.landingOf (directory root h)) := by
  have hWell := wellNamed_afterCalls calls
  have hApart : (afterCalls calls).generators.Pairwise (fun g h => g.name ≠ h.name) := by
    have hDistinct := hWell.distinct
    rwa [names, List.Nodup, List.pairwise_map] at hDistinct
  refine ⟨fun g => call_eq_ok_iff, ?_, ?_, ?_, ?_, ?_⟩
  · intro g hSlash
    rw [call_eq_ok_iff]
    have hSpells : (∃ d, (Path.mk g.name).Spells d) ↔
        g.name ≠ "" ∧ g.name ≠ "." ∧ g.name ≠ ".." := by
      simp only [spells_iff_of_noSlash (p := ⟨g.name⟩) hSlash, exists_eq_left]
      exact ⟨fun h => ⟨h.notEmpty, h.notCurrent, h.notParent⟩, fun h => ⟨h.1, hSlash, h.2.1, h.2.2⟩⟩
    rw [hSpells]
    tauto
  · intro g hOk
    obtain ⟨_, hCall⟩ | ⟨_, _, hCall⟩ | ⟨_, _, hCall⟩ := call_cases (afterCalls calls) g
    · rw [hCall] at hOk
      cases hOk
    · rw [hCall] at hOk
      cases hOk
    · rw [hCall]
  · intro g hFails
    obtain ⟨_, hCall⟩ | ⟨_, _, hCall⟩ | ⟨_, _, hCall⟩ := call_cases (afterCalls calls) g
    · rw [hCall]
    · rw [hCall]
    · rw [hCall] at hFails
      exact absurd rfl hFails
  · refine hApart.imp_of_mem ?_
    intro g h hg hh _
    obtain ⟨d, hd⟩ := hWell.spelled g hg
    obtain ⟨d', hd'⟩ := hWell.spelled h hh
    exact ⟨d, d', hd, hd', landingOf_directory_eq_iff hd hd'⟩
  · refine hApart.imp_of_mem ?_
    intro g h hg hh hNames hSlash hSlash' tree root
    obtain ⟨d, hd⟩ := hWell.spelled g hg
    obtain ⟨d', hd'⟩ := hWell.spelled h hh
    rw [Ne, landingOf_directory_eq_iff hd hd', ((spells_iff_of_noSlash hSlash).1 hd).1,
      ((spells_iff_of_noSlash hSlash').1 hd').1]
    exact hNames

/-- A generator that adds nothing and emits nothing. -/
def idle (name : String) : Generator where
  name
  inject := fun _ model _ => .ok model
  emit := fun _ _ => .ok []

/-- A name with a slash at its end is accepted, and beside the same name without it: two generators
with one output directory. -/
theorem registered_names_share_directory :
    '/' ∈ (idle "a/").name.toList ∧ ((afterCalls [idle "a"]).call (idle "a/")).2 = .ok () ∧
      (afterCalls [idle "a", idle "a/"]).names = ["a", "a/"] ∧
      ∀ (tree : FileTree) (root : Path),
        tree.landingOf (directory root (idle "a")) =
          tree.landingOf (directory root (idle "a/")) := by
  have hName : IsDirectoryName "a" := ⟨by decide, by decide, by decide, by decide⟩
  have hPlain : (Path.mk "a").Spells "a" := ⟨hName, [], by decide, by simp⟩
  have hSlash : (Path.mk "a/").Spells "a" := ⟨hName, [[]], by decide, by simp⟩
  refine ⟨by decide, rfl, rfl, ?_⟩
  exact fun tree root => (landingOf_directory_eq_iff hPlain hSlash tree root).2 rfl

end Engine

end EntitySchema
