import EntitySchema.Proofs.Registration

/-!
Artifacts stay in the directories of their generators. A path is checked by its components, and it
is joined as it is written. The two agree: a path that passes the check leads down by at least one
name, whatever slashes and dots are written between its names. The main result is about any writing
of artifacts of registered generators, whether it succeeds or not. Every file it writes is strictly
below the directory of its generator, and it stops at the first path that strays.
-/

namespace EntitySchema

/-! ## Paths that stray -/

namespace Path

/-- A path that does not stay below the directory that it is joined to: it is empty, it starts at
the root, it goes up, or it starts with the directory itself. -/
def Strays (p : Path) : Prop :=
  p.text = "" ∨ p.isAbsolute = true ∨ .parent ∈ p.components ∨
    p.components.head? = some .current

variable {p : Path} {c : Component}

theorem eq_parent_or_name {segments : List (List Char)} (h : c ∈ segments.filterMap component?) :
    c = .parent ∨ ∃ n, c = .name n := by
  obtain ⟨s, _, hs⟩ := List.mem_filterMap.1 h
  unfold component? at hs
  split at hs
  · cases hs
  · split at hs
    · exact .inl (Option.some.inj hs).symm
    · exact .inr ⟨_, (Option.some.inj hs).symm⟩

/-- The first segment decides whether the components start with the root, with a dot or with a
part of their own. -/
theorem components_cases (p : Path) :
    (p.text = "" ∧ p.components = []) ∨
    (∃ body : List (List Char), p.isAbsolute = true ∧
      p.components = .root :: body.filterMap component?) ∨
    (∃ body : List (List Char), p.isAbsolute = false ∧
      p.components = .current :: body.filterMap component?) ∨
    (∃ segments : List (List Char), p.text ≠ "" ∧ p.isAbsolute = false ∧ p.components ≠ [] ∧
      p.components = segments.filterMap component?) := by
  obtain ⟨first, body, hSegments⟩ : ∃ first body, p.segments = first :: body :=
    List.exists_cons_of_ne_nil (List.splitOn_ne_nil _ _)
  have hAbsolute := isAbsolute_iff_segments (p := p)
  rw [hSegments] at hAbsolute
  by_cases hEmpty : first = []
  · subst hEmpty
    by_cases hBody : body = []
    · subst hBody
      refine .inl ⟨text_eq_empty_iff.2 hSegments, ?_⟩
      simp [components, hSegments]
    · refine .inr (.inl ⟨body, hAbsolute.2 ⟨body, hBody, rfl⟩, ?_⟩)
      simp [components, hSegments]
  · have hRelative : p.isAbsolute = false := by
      rw [Bool.eq_false_iff]
      intro h
      obtain ⟨_, _, hFirst⟩ := hAbsolute.1 h
      exact hEmpty (List.cons.inj hFirst).1
    by_cases hDot : first = ['.']
    · subst hDot
      refine .inr (.inr (.inl ⟨body, hRelative, ?_⟩))
      simp [components, hSegments]
    · -- Such a first segment is a component itself.
      have hComponents : p.components = (first :: body).filterMap component? := by
        unfold components
        rw [hSegments]
        split <;> simp_all
      refine .inr (.inr (.inr ⟨first :: body, ?_, hRelative, ?_, hComponents⟩))
      · rw [Ne, text_eq_empty_iff, hSegments]
        intro h
        exact hEmpty (List.cons.inj h).1
      · rw [hComponents, Ne, List.filterMap_eq_nil_iff]
        intro hNone
        have hVoid := component?_eq_none_iff.1 (hNone first List.mem_cons_self)
        exact hVoid.elim hEmpty hDot

end Path

namespace Engine

open FileTree EntitySchema.Path

variable {tree tree' : FileTree} {root p : Path} {e bad : Emitted} {es before after : List Emitted}
  {calls : List Generator} {result : Except ComposeError (List Path)}

/-- The check refuses exactly the paths that stray. -/
theorem isContained_eq_false_iff : isContained p = false ↔ p.Strays := by
  unfold isContained Strays
  obtain ⟨hText, hComponents⟩ | ⟨body, hAbsolute, hComponents⟩ | ⟨body, hAbsolute, hComponents⟩ |
    ⟨segments, hText, hAbsolute, hSome, hComponents⟩ := components_cases p
  · simp [hText]
  · simp [hAbsolute, hComponents]
  · simp [hComponents]
  · have hParts : ∀ c ∈ p.components, c = .parent ∨ ∃ n, c = .name n := by
      rw [hComponents]
      exact fun c => eq_parent_or_name
    have hHead : p.components.head? ≠ some .current := by
      intro h
      rcases hParts _ (List.mem_of_head? h) with h | ⟨n, h⟩ <;> cases h
    simp only [hText, hAbsolute, hHead, Bool.false_eq_true, false_or, or_false]
    rw [Bool.and_eq_false_iff, List.all_eq_false]
    constructor
    · rintro (h | ⟨c, hc, hOther⟩)
      · simp [hText] at h
      · rcases hParts c hc with rfl | ⟨n, rfl⟩
        · exact hc
        · exact absurd rfl hOther
    · intro hParent
      exact .inr ⟨.parent, hParent, by simp⟩

/-! ## Locations below a directory -/

/-- Strictly below: some names further down. -/
def IsBelow (base l : Location) : Prop :=
  ∃ names, names ≠ [] ∧ l = base ++ names

/-- An artifact that passes the check belongs below the directory of its generator. -/
theorem isBelow_target (hContained : isContained e.artifact.path = true) (tree : FileTree)
    (root : Path) :
    IsBelow (tree.landingOf (root.join ⟨e.generator⟩)) (tree.landingOf (e.target root)) := by
  obtain ⟨hText, hNames⟩ := names_of_isContained hContained
  obtain ⟨hRelative, hLanding⟩ := Path.landing_of_names hText hNames
  refine ⟨e.artifact.path.components.filterMap Component.name?, ?_, ?_⟩
  · intro hNone
    rw [hNone] at hNames
    obtain ⟨hEmpty, _⟩ | ⟨_, _, hCons⟩ | ⟨_, _, hCons⟩ | ⟨_, _, _, hSome, _⟩ :=
      components_cases e.artifact.path
    · exact hText hEmpty
    · rw [hCons] at hNames
      cases hNames
    · rw [hCons] at hNames
      cases hNames
    · exact hSome hNames
  · rw [Emitted.target, landingOf_join tree _ hRelative, hLanding]

/-! ## Any writing -/

/-- What any writing does: it writes one artifact after the other, up to the first that fails. -/
theorem write_front (h : write tree root es = (tree', result)) :
    ∃ written, written <+: es ∧ (∀ paths, result = .ok paths → written = es) ∧
      (∀ e ∈ written, isContained e.artifact.path = true) ∧
      Keeps (written.map (fun e => tree.landingOf (e.target root))) tree tree' ∧
      ∀ e ∈ written, tree'.locate (e.target root) = .ok (tree.landingOf (e.target root)) := by
  induction es generalizing tree result with
  | nil =>
    obtain ⟨rfl, rfl⟩ := Prod.mk.inj h
    exact ⟨[], List.prefix_refl _, fun _ _ => rfl, by simp, Keeps.refl tree, by simp⟩
  | cons e es ih =>
    unfold write at h
    cases hOne : writeOne tree root e with
    | mk t outcome =>
      rw [hOne] at h
      obtain ⟨_, rfl, rfl⟩ | ⟨_, hKeeps, _, _, rfl⟩ | ⟨hContained, rfl, l, hLocate, _, hKeeps⟩ :=
        writeOne_cases hOne
      · -- Refused: nothing is done.
        obtain ⟨rfl, rfl⟩ := Prod.mk.inj h
        exact ⟨[], List.nil_prefix, by simp, by simp, Keeps.refl t, by simp⟩
      · -- Failed on the way: at most directories are new.
        obtain ⟨rfl, rfl⟩ := Prod.mk.inj h
        exact ⟨[], List.nil_prefix, by simp, by simp, hKeeps, by simp⟩
      · obtain ⟨rfl, hResult⟩ := Prod.mk.inj h
        obtain ⟨written, hPrefix, hAll, hContaineds, hKeepsRest, hLocates⟩ :=
          ih (Prod.eta (write t root es)).symm
        have hl : l = tree.landingOf (e.target root) := by
          rw [← hKeeps.landingOf]
          exact walk_eq_landing (locate_eq_ok.1 hLocate).2
        subst hl
        -- Paths lead to the same locations as before the first file was written.
        simp only [hKeeps.landingOf] at hKeepsRest hLocates
        refine ⟨e :: written, List.cons_prefix_cons.2 ⟨rfl, hPrefix⟩, ?_,
          List.forall_mem_cons.2 ⟨hContained, hContaineds⟩, hKeeps.trans hKeepsRest,
          List.forall_mem_cons.2 ⟨hKeepsRest.locate hLocate, hLocates⟩⟩
        intro paths hOk
        rw [hOk] at hResult
        cases hMore : (write t root es).2 with
        | error => rw [hMore] at hResult; cases hResult
        | ok more => rw [hAll more hMore]

/-- Writing gets to a path that is refused exactly if all before it could be written, and leaves
what they have left. -/
theorem write_append_refused (hBad : isContained bad.artifact.path = false) :
    write tree root (before ++ bad :: after) = ((write tree root before).1,
      (write tree root before).2 >>= fun _ =>
        .error (.outsidePath bad.generator bad.artifact.path)) := by
  induction before generalizing tree with
  | nil => simp [write, writeOne, hBad, bind, Except.bind]
  | cons e before ih =>
    rw [List.cons_append, write, write]
    cases writeOne tree root e with
    | mk t outcome =>
      cases outcome with
      | error => rfl
      | ok path =>
        simp only [ih]
        cases (write t root before).2 <;> rfl

/-- Where no path is refused, only the file system can make writing fail. -/
theorem eq_unwritable_of_write {error : ComposeError}
    (hContained : ∀ e ∈ es, isContained e.artifact.path = true)
    (h : (write tree root es).2 = .error error) : ∃ path cause, error = .unwritable path cause := by
  induction es generalizing tree with
  | nil => cases h
  | cons e es ih =>
    obtain ⟨hFirst, hRest⟩ := List.forall_mem_cons.1 hContained
    unfold write at h
    cases hOne : writeOne tree root e with
    | mk t outcome =>
      rw [hOne] at h
      obtain ⟨hRefused, _, _⟩ | ⟨_, _, path, cause, rfl⟩ | ⟨_, rfl, _⟩ := writeOne_cases hOne
      · rw [hFirst] at hRefused
        cases hRefused
      · exact ⟨path, cause, (Except.error.inj h).symm⟩
      · simp only at h
        cases hMore : (write t root es).2 with
        | ok => rw [hMore] at h; cases h
        | error error' =>
          rw [hMore] at h
          obtain rfl := Except.error.inj h
          exact ih hRest hMore

/-- The directory of a registered generator is in the root, under the name that it spells. -/
theorem landingOf_directory_of_mem {n : String} (h : n ∈ (afterCalls calls).names)
    (tree : FileTree) (root : Path) :
    ∃ d, (Path.mk n).Spells d ∧ tree.landingOf (root.join ⟨n⟩) = tree.landingOf root ++ [d] := by
  obtain ⟨g, hg, rfl⟩ := List.mem_map.1 h
  obtain ⟨d, hd⟩ := (wellNamed_afterCalls calls).spelled g hg
  exact ⟨d, hd, hd.landingOf_join tree root⟩

/-- Any writing of artifacts of registered generators. The files that it writes are those of the
first artifacts, of all if it succeeds. Each is found where its path leads, and that is strictly
below the directory of its generator, which is in the root. Everything else stays as it was, and no
other file is new. At the first path that strays it fails, and leaves what the artifacts before have
left, unless one of those could not be written. -/
theorem write_stays_below (hOwned : ∀ e ∈ es, e.generator ∈ (afterCalls calls).names)
    (h : write tree root es = (tree', result)) :
    (∃ written, written <+: es ∧ (∀ paths, result = .ok paths → written = es) ∧
      Keeps (written.map (fun e => tree.landingOf (e.target root))) tree tree' ∧
      ∀ e ∈ written, tree'.locate (e.target root) = .ok (tree.landingOf (e.target root)) ∧
        IsBelow (tree.landingOf (root.join ⟨e.generator⟩)) (tree.landingOf (e.target root)) ∧
        ∃ d, (Path.mk e.generator).Spells d ∧
          tree.landingOf (root.join ⟨e.generator⟩) = tree.landingOf root ++ [d]) ∧
    ∀ before bad after, es = before ++ bad :: after → (∀ e ∈ before, ¬ e.artifact.path.Strays) →
      bad.artifact.path.Strays → tree' = (write tree root before).1 ∧
        ((∃ paths, (write tree root before).2 = .ok paths) ∧
            result = .error (.outsidePath bad.generator bad.artifact.path) ∨
          ∃ path cause, (write tree root before).2 = .error (.unwritable path cause) ∧
            result = .error (.unwritable path cause)) := by
  refine ⟨?_, ?_⟩
  · obtain ⟨written, hPrefix, hAll, hContained, hKeeps, hLocates⟩ := write_front h
    refine ⟨written, hPrefix, hAll, hKeeps, fun e he => ⟨hLocates e he, ?_, ?_⟩⟩
    · exact isBelow_target (hContained e he) tree root
    · exact landingOf_directory_of_mem (hOwned e (hPrefix.subset he)) tree root
  · rintro before bad after rfl hBefore hBad
    rw [write_append_refused (isContained_eq_false_iff.2 hBad)] at h
    obtain ⟨hTree, hResult⟩ := Prod.mk.inj h
    refine ⟨hTree.symm, ?_⟩
    cases hFirst : (write tree root before).2 with
    | ok paths =>
      rw [hFirst] at hResult
      exact .inl ⟨⟨paths, rfl⟩, hResult.symm⟩
    | error error =>
      have hContained : ∀ e ∈ before, isContained e.artifact.path = true := by
        intro e he
        rw [← Bool.not_eq_false, isContained_eq_false_iff]
        exact hBefore e he
      obtain ⟨path, cause, rfl⟩ := eq_unwritable_of_write hContained hFirst
      rw [hFirst] at hResult
      exact .inr ⟨path, cause, rfl, hResult.symm⟩

/-- Artifacts whose paths have slashes and dots in odd places, and one that goes up. -/
def oddArtifacts : List Emitted :=
  [⟨"g/", ⟨"a//./b"⟩, "1"⟩, ⟨"g/", ⟨"c/../../d"⟩, "2"⟩, ⟨"g/", ⟨"e"⟩, "3"⟩]

/-- What is there after these artifacts have been written into nothing. -/
def oddTree : FileTree where
  entries := [(["x"], .directory), (["out"], .directory), (["out", "g"], .directory),
    (["out", "g", "a"], .directory), (["out", "g", "a", "b"], .file (.text "1"))]

/-- The first artifact is written, the second is refused, and the third is left out. -/
theorem oddArtifacts_stay_below :
    (∀ e ∈ oddArtifacts, e.generator ∈ (afterCalls [idle "g/"]).names) ∧
      write {} ⟨"x/../out"⟩ oddArtifacts =
        (oddTree, .error (.outsidePath "g/" ⟨"c/../../d"⟩)) ∧
      ∃ written, written <+: oddArtifacts ∧
        Keeps (written.map (fun e => landingOf {} (e.target ⟨"x/../out"⟩))) {} oddTree ∧
        ∀ e ∈ written, IsBelow ["out", "g"] (landingOf {} (e.target ⟨"x/../out"⟩)) := by
  have hOwned : ∀ e ∈ oddArtifacts, e.generator ∈ (afterCalls [idle "g/"]).names := by
    decide +kernel
  have hWrite : write {} ⟨"x/../out"⟩ oddArtifacts =
      (oddTree, .error (.outsidePath "g/" ⟨"c/../../d"⟩)) := by
    decide +kernel
  have hDirectory : ∀ e ∈ oddArtifacts,
      landingOf {} (Path.join ⟨"x/../out"⟩ ⟨e.generator⟩) = ["out", "g"] := by
    decide +kernel
  obtain ⟨⟨written, hPrefix, _, hKeeps, hBelow⟩, _⟩ := write_stays_below hOwned hWrite
  refine ⟨hOwned, hWrite, written, hPrefix, hKeeps, ?_⟩
  intro e he
  rw [← hDirectory e (hPrefix.subset he)]
  exact (hBelow e he).2.1

end Engine

end EntitySchema
