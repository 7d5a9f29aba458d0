import EntitySchema.Generation.Engine
import EntitySchema.Proofs.PathResolution
import Mathlib.Data.List.Forall2
import Mathlib.Data.List.Nodup

/-!
Writing artifacts into a tree of files. Nothing that is there vanishes, directories stay
directories, and a file keeps what it holds unless something else is written to its own location.
The location of an artifact is told from paths alone: the root, the name of the generator, and the
names in its own path. So the main result is that artifacts at different places make one file each,
and each file holds what was written to it.
-/

namespace EntitySchema

namespace FileTree

variable {tree tree' tree'' : FileTree} {l k start d : Location}

/-! ## What operations keep -/

theorem lookup_replace (e : Entry) (entries : List (Location × Entry)) :
    (entries.map (fun x => if x.1 == l then (l, e) else x)).lookup k =
      if k = l then (entries.lookup k).map (fun _ => e) else entries.lookup k := by
  induction entries with
  | nil => simp
  | cons x entries ih =>
    obtain ⟨key, value⟩ := x
    rw [List.map_cons, List.lookup_cons]
    by_cases hKey : key = l
    · subst hKey
      by_cases hk : k = key
      · simp [hk]
      · have hOther : (k == key) = false := by simpa using hk
        simp only [beq_self_eq_true, if_true, List.lookup_cons, hOther, ih, if_neg hk]
    · have hOther : (key == l) = false := by simpa using hKey
      simp only [hOther, Bool.false_eq_true, if_false, List.lookup_cons]
      cases hk : k == key with
      | true =>
        obtain rfl : k = key := by simpa using hk
        simp [hKey]
      | false => exact ih

theorem entry?_put (tree : FileTree) (e : Entry) (hl : l ≠ []) (k : Location) :
    entry? (tree.put l e) k = if k = l then some e else tree.entry? k := by
  unfold put entry?
  by_cases hRoot : k = []
  · simp [hRoot, hl.symm]
  · rw [if_neg hRoot, if_neg hRoot]
    split
    · rename_i hThere
      rw [lookup_replace]
      by_cases hk : k = l
      · have hSome : tree.entries.lookup l ≠ none := by
          rw [Ne, List.lookup_eq_none_iff]
          obtain ⟨x, hx, hKey⟩ := List.any_eq_true.1 hThere
          intro hNone
          have hDifferent := hNone x hx
          rw [beq_iff_eq] at hKey
          simp [hKey] at hDifferent
        obtain ⟨old, hOld⟩ := Option.ne_none_iff_exists'.1 hSome
        simp [hk, hOld]
      · rw [if_neg hk, if_neg hk]
    · rename_i hNone
      rw [List.lookup_append]
      by_cases hk : k = l
      · subst hk
        have hMissing : tree.entries.lookup k = none := by
          rw [List.lookup_eq_none_iff]
          intro x hx
          simp only [List.any_eq_true, not_exists, not_and, beq_iff_eq] at hNone
          exact bne_iff_ne.2 (fun h => hNone x hx h.symm)
        simp [hMissing]
      · have hOther : (k == l) = false := by simpa using hk
        simp [List.lookup_cons, hOther, hk]

/-- What stays as it was: nothing vanishes, directories stay directories, and what is at a location
other than those written to is still the same. Elsewhere no file is new. -/
structure Keeps (written : List Location) (tree tree' : FileTree) : Prop where
  workingDirectory : tree'.workingDirectory = tree.workingDirectory
  directories : ∀ l, tree.isDirectory l = true → tree'.isDirectory l = true
  present : ∀ l, (tree.entry? l).isSome = true → (tree'.entry? l).isSome = true
  contents : ∀ l ∉ written, ∀ e, tree.entry? l = some e → tree'.entry? l = some e
  files : ∀ l ∉ written, ∀ c, tree'.entry? l = some (.file c) → tree.entry? l = some (.file c)

theorem Keeps.refl (tree : FileTree) : Keeps [] tree tree :=
  ⟨rfl, fun _ h => h, fun _ h => h, fun _ _ _ h => h, fun _ _ _ h => h⟩

theorem Keeps.trans {written written' : List Location} (h : Keeps written tree tree')
    (h' : Keeps written' tree' tree'') : Keeps (written ++ written') tree tree'' where
  workingDirectory := h'.workingDirectory.trans h.workingDirectory
  directories := fun l hl => h'.directories l (h.directories l hl)
  present := fun l hl => h'.present l (h.present l hl)
  contents := by
    intro l hl e he
    rw [List.mem_append, not_or] at hl
    exact h'.contents l hl.2 e (h.contents l hl.1 e he)
  files := by
    intro l hl c hc
    rw [List.mem_append, not_or] at hl
    exact h.files l hl.1 c (h'.files l hl.2 c hc)

/-- Where a path led, it still leads. -/
theorem Keeps.follow {written : List Location} (h : Keeps written tree tree') {s : List Char}
    (hl : tree.follow d s = .ok l) : tree'.follow d s = .ok l := by
  have hDirectory := h.directories d
  have hPresent := h.present (d ++ [String.ofList s])
  unfold FileTree.follow at hl ⊢
  grind

theorem Keeps.walk {written : List Location} (h : Keeps written tree tree')
    {segments : List (List Char)} (hl : tree.walk start segments = .ok l) :
    tree'.walk start segments = .ok l := by
  induction segments generalizing start with
  | nil => exact hl
  | cons s segments ih =>
    obtain ⟨d, hd, hl⟩ := walk_cons.1 hl
    exact walk_cons.2 ⟨d, h.follow hd, ih hl⟩

theorem Keeps.startOf {written : List Location} (h : Keeps written tree tree') (p : Path) :
    tree'.startOf p = tree.startOf p := by
  unfold FileTree.startOf
  rw [h.workingDirectory]

theorem Keeps.walk_origin {written : List Location} (h : Keeps written tree tree') (p : Path) :
    tree'.walk (tree.origin p).1 (tree.origin p).2 = tree'.walk (tree.startOf p) p.segments := by
  have hOrigin : tree'.origin p = tree.origin p := by
    unfold origin
    rw [h.workingDirectory]
  rw [← hOrigin, FileTree.walk_origin, h.startOf]

theorem locate_eq_ok {p : Path} :
    tree.locate p = .ok l ↔
      checkWholePath p = .ok () ∧ tree.walk (tree.startOf p) p.segments = .ok l := by
  unfold locate
  rw [bind_eq_ok_iff]
  constructor
  · rintro ⟨_, hCheck, hl⟩
    exact ⟨hCheck, (resolve_eq_ok.1 hl).2⟩
  · rintro ⟨hCheck, hl⟩
    obtain ⟨_, hPath, _⟩ := bind_eq_ok_iff.1 hCheck
    exact ⟨(), hCheck, resolve_eq_ok.2 ⟨hPath, hl⟩⟩

theorem Keeps.locate {written : List Location} (h : Keeps written tree tree') {p : Path}
    (hl : tree.locate p = .ok l) : tree'.locate p = .ok l := by
  rw [locate_eq_ok] at hl ⊢
  rw [h.startOf]
  exact ⟨hl.1, h.walk hl.2⟩

/-! ## Directories -/

theorem keeps_put_directory (hl : l ≠ []) (hNew : tree.entry? l = none) :
    Keeps [] tree (tree.put l .directory) := by
  have hSame : ∀ k e, tree.entry? k = some e → entry? (tree.put l .directory) k = some e := by
    intro k e he
    rw [entry?_put _ _ hl, if_neg, he]
    rintro rfl
    rw [hNew] at he
    cases he
  refine ⟨?_, ?_, ?_, fun k _ => hSame k, ?_⟩
  · unfold put
    split <;> rfl
  · intro k hk
    rw [isDirectory, beq_iff_eq] at hk ⊢
    exact hSame k _ hk
  · intro k hk
    obtain ⟨e, he⟩ := Option.isSome_iff_exists.1 hk
    rw [hSame k e he]
    rfl
  · intro k _ c hk
    rw [entry?_put _ _ hl] at hk
    split at hk
    · cases hk
    · exact hk

theorem makeDirectory_keeps {p : Path} (h : tree.makeDirectory p = .ok tree') :
    Keeps [] tree tree' := by
  unfold makeDirectory at h
  obtain ⟨_, _, h⟩ := bind_eq_ok_iff.1 h
  obtain ⟨⟨parent, last⟩, _, h⟩ := bind_eq_ok_iff.1 h
  simp only at h
  split at h
  · cases h
  · split at h
    · cases h
    · split at h
      · cases h
      · rename_i hNew
        obtain rfl := Except.ok.inj h
        exact keeps_put_directory (by simp) (by simpa using hNew)

/-- Whether all directories could be made or not, nothing but directories is new. -/
theorem makeDirectoriesWithin_keeps {bound : Nat} {p : Path} {result : Except FileError Unit}
    (h : makeDirectoriesWithin bound tree p = (tree', result)) : Keeps [] tree tree' := by
  fun_induction makeDirectoriesWithin bound tree p generalizing tree' result with
  | case1 bound tree p hEmpty => exact (Prod.mk.inj h).1 ▸ Keeps.refl tree
  | case2 bound tree p hNamed t hMade => exact (Prod.mk.inj h).1 ▸ makeDirectory_keeps hMade
  | case3 tree p hNamed hMissing parent bound hParent t e hParents ih =>
    exact (Prod.mk.inj h).1 ▸ ih hParents
  | case4 tree p hNamed hMissing parent bound hParent t hParents t' hMade ih =>
    -- The parents first, then the directory itself, if it is not there by now.
    exact (Prod.mk.inj h).1 ▸ (ih hParents).trans (makeDirectory_keeps hMade)
  | case5 tree p hNamed hMissing parent bound hParent t hParents e hError ih =>
    exact (Prod.mk.inj h).1 ▸ ih hParents
  | case6 => exact (Prod.mk.inj h).1 ▸ Keeps.refl _
  | case7 => exact (Prod.mk.inj h).1 ▸ Keeps.refl _

/-! ## Files -/

theorem keeps_put_file (hl : l ≠ []) (hFile : tree.isDirectory l = false) (c : Contents) :
    Keeps [l] tree (tree.put l (.file c)) := by
  have hOther : ∀ k, k ≠ l → entry? (tree.put l (.file c)) k = tree.entry? k := by
    intro k hk
    rw [entry?_put _ _ hl, if_neg hk]
  refine ⟨?_, ?_, ?_, ?_, ?_⟩
  · unfold put
    split <;> rfl
  · intro k hk
    unfold isDirectory
    rw [hOther k]
    · exact hk
    · rintro rfl
      rw [hFile] at hk
      cases hk
  · intro k hk
    rw [entry?_put _ _ hl]
    split
    · rfl
    · exact hk
  · intro k hk e he
    rw [hOther k (by simpa using hk), he]
  · intro k hk e he
    rwa [hOther k (by simpa using hk)] at he

theorem withoutSlashes_eq_self {segments : List (List Char)}
    (h : ¬ (withoutSlashes segments).length < segments.length) :
    withoutSlashes segments = segments := by
  have hSuffix := List.dropWhile_suffix (l := segments.reverse) (· == [])
  have hLength : (segments.reverse.dropWhile (· == [])).length = segments.reverse.length := by
    have hLe := hSuffix.length_le
    simp only [withoutSlashes, List.length_reverse] at h hLe ⊢
    omega
  rw [withoutSlashes, hSuffix.eq_of_length hLength, List.reverse_reverse]

theorem parentOf_eq_ok {segments : List (List Char)} {parent : Location} {last : List Char}
    (h : tree.parentOf start segments = .ok (parent, last)) (hLast : Path.isVoid last = false) :
    segments = segments.dropLast ++ [last] ∧ tree.walk start segments.dropLast = .ok parent ∧
      tree.isDirectory parent = true := by
  unfold parentOf at h
  obtain ⟨d, hWalk, h⟩ := bind_eq_ok_iff.1 h
  split at h
  · rename_i hDirectory
    obtain ⟨rfl, rfl⟩ := Prod.mk.inj (Except.ok.inj h)
    refine ⟨?_, hWalk, hDirectory⟩
    cases hEnd : segments.getLast? with
    | none =>
      -- Without segments the last one would be empty.
      rw [hEnd] at hLast
      cases hLast
    | some s =>
      obtain ⟨front, rfl⟩ := List.getLast?_eq_some_iff.1 hEnd
      simp
  · cases h

/-- A file that is written is found under its path, and nothing else has changed. -/
theorem write_eq_ok {p : Path} {text : String} (h : tree.write p text = .ok tree') :
    ∃ l, tree'.locate p = .ok l ∧ tree'.entry? l = some (.file (.text text)) ∧
      Keeps [l] tree tree' := by
  obtain ⟨start, segments, hOrigin⟩ : ∃ start segments, tree.origin p = (start, segments) :=
    ⟨_, _, rfl⟩
  unfold write at h
  simp only [hOrigin, bind_eq_ok_iff] at h
  obtain ⟨_, hCheck, ⟨parent, last⟩, hParent, h⟩ := h
  simp only at h
  split at h
  · cases h
  · rename_i hName
    split at h
    · cases h
    · rename_i hShort
      split at h
      · cases h
      · rename_i hFile
        obtain rfl := Except.ok.inj h
        simp only [Bool.or_eq_true, decide_eq_true_eq, not_or, Bool.not_eq_true] at hName
        obtain ⟨⟨hSlash, hVoid⟩, hUp⟩ := hName
        have hUp : last ≠ ['.', '.'] := by simpa using hUp
        rw [withoutSlashes_eq_self hSlash] at hParent
        obtain ⟨hSegments, hWalk, hDirectory⟩ := parentOf_eq_ok hParent hVoid
        have hl : parent ++ [String.ofList last] ≠ [] := by simp
        have hKeeps := keeps_put_file hl (by simpa using hFile) (.text text)
        have hEntry := entry?_put tree (.file (.text text)) hl (parent ++ [String.ofList last])
        rw [if_pos rfl] at hEntry
        -- The path is followed once more, now that there is a file at its end.
        refine ⟨_, locate_eq_ok.2 ⟨hCheck, ?_⟩, hEntry, hKeeps⟩
        rw [hKeeps.startOf, ← hKeeps.walk_origin, hOrigin, hSegments]
        refine walk_append.2 ⟨parent, hKeeps.walk hWalk, walk_cons.2 ⟨_, ?_, rfl⟩⟩
        have hThere := hKeeps.directories parent hDirectory
        simp [follow, hThere, hVoid, hUp, hShort, hEntry]

/-! ## Locations told from paths -/

/-- Where segments lead from a location, as far as one can tell without looking. -/
def landing (l : Location) (segments : List (List Char)) : Location :=
  segments.foldl (fun l s =>
    if Path.isVoid s then l else if s = ['.', '.'] then l.dropLast else l ++ [String.ofList s]) l

theorem landing_append (l : Location) (front back : List (List Char)) :
    landing l (front ++ back) = landing (landing l front) back :=
  List.foldl_append

/-- A path that leads somewhere leads where one can tell it leads. -/
theorem walk_eq_landing {segments : List (List Char)} (h : tree.walk start segments = .ok l) :
    l = landing start segments := by
  induction segments generalizing start with
  | nil => exact (Except.ok.inj h).symm
  | cons s segments ih =>
    obtain ⟨d, hd, hl⟩ := walk_cons.1 h
    have hStep : d = landing start [s] := by
      unfold follow at hd
      simp only [landing, List.foldl_cons, List.foldl_nil]
      grind
    rw [ih hl, hStep, ← landing_append]
    rfl

/-- Where a path leads, as far as one can tell without looking. -/
def landingOf (tree : FileTree) (p : Path) : Location :=
  landing (tree.startOf p) p.segments

theorem Keeps.landingOf {written : List Location} (h : Keeps written tree tree') (p : Path) :
    tree'.landingOf p = tree.landingOf p := by
  rw [FileTree.landingOf, FileTree.landingOf, h.startOf]

/-- A joined path leads on from where the first part leads. -/
theorem landingOf_join (tree : FileTree) (base : Path) {p : Path} (hp : p.isAbsolute = false) :
    tree.landingOf (base.join p) = landing (tree.landingOf base) p.segments := by
  unfold landingOf
  by_cases hBase : base.text = ""
  · have hJoin : base.join p = p := by
      rw [Path.join_relative hp]
      simp [hBase]
    have hAbsolute : base.isAbsolute = false := by simp [Path.isAbsolute, hBase]
    have hStart : tree.startOf p = tree.startOf base := by
      unfold startOf
      rw [hp, hAbsolute]
    rw [hJoin, hStart, Path.text_eq_empty_iff.1 hBase]
    rfl
  · have hStart : tree.startOf (base.join p) = tree.startOf base := by
      unfold startOf
      rw [Path.isAbsolute_join hp hBase]
    rw [hStart]
    rcases Path.segments_join hp hBase with hJoin | ⟨front, hFront, hJoin⟩
    · rw [hJoin, landing_append]
    · -- The empty segment after a slash at the end leads nowhere else.
      rw [hJoin, hFront, landing_append, landing_append]
      rfl

end FileTree

namespace Path

/-- The name that a component is, if it is one. -/
def Component.name? : Component → Option String
  | name text => some text
  | _ => none

theorem landing_of_filterMap {segments : List (List Char)} {names : List String}
    (h : segments.filterMap component? = names.map .name) (l : Location) :
    FileTree.landing l segments = l ++ names := by
  induction segments generalizing names l with
  | nil =>
    cases names with
    | nil => simp [FileTree.landing]
    | cons => cases h
  | cons s segments ih =>
    by_cases hVoid : isVoid s = true
    · rw [List.filterMap_cons_none (by simp [component?, hVoid])] at h
      rw [← ih h l]
      simp [FileTree.landing, hVoid]
    · by_cases hUp : s = ['.', '.']
      · rw [List.filterMap_cons_some (by rw [component?, if_neg hVoid, if_pos hUp])] at h
        cases names <;> cases h
      · rw [List.filterMap_cons_some (by rw [component?, if_neg hVoid, if_neg hUp])] at h
        cases names with
        | nil => cases h
        | cons n names =>
          obtain ⟨hName, hRest⟩ := List.cons.inj h
          obtain rfl := Component.name.inj hName
          have hMore := ih hRest (l ++ [String.ofList s])
          rw [List.append_assoc, List.singleton_append] at hMore
          rw [← hMore]
          simp [FileTree.landing, hVoid, hUp]

/-- A path that is made of names only leads down along them. -/
theorem landing_of_names {p : Path} {names : List String} (hText : p.text ≠ "")
    (h : p.components = names.map .name) :
    p.isAbsolute = false ∧ ∀ l, FileTree.landing l p.segments = l ++ names := by
  have hFirst : p.segments.filterMap component? = names.map .name ∧
      ∀ body, p.segments ≠ [] :: body := by
    -- A path that starts at the root or with a dot has a first component that is no name.
    unfold components at h
    split at h
    · rename_i hEmpty
      exact absurd (text_eq_empty_iff.2 hEmpty) hText
    · cases names <;> cases h
    · cases names <;> cases h
    · rename_i hNotRoot _
      exact ⟨h, hNotRoot⟩
  refine ⟨?_, landing_of_filterMap hFirst.1⟩
  rw [Bool.eq_false_iff]
  intro hAbsolute
  obtain ⟨body, _, hBody⟩ := isAbsolute_iff_segments.1 hAbsolute
  exact hFirst.2 body hBody

end Path

/-! ## Writing artifacts -/

namespace Engine

open FileTree

variable {tree tree' : FileTree} {root : Path} {e : Emitted} {es : List Emitted}

/-- The path that an artifact is written to. -/
def Emitted.target (root : Path) (e : Emitted) : Path :=
  (root.join ⟨e.generator⟩).join e.artifact.path

/-- The place of an artifact below the root: the directory of the generator and its own path. -/
def Emitted.place (e : Emitted) : List Path.Component :=
  (Path.mk e.generator).components ++ e.artifact.path.components

/-- The place of an artifact that is written is made of names. -/
def Emitted.IsNamed (e : Emitted) : Prop :=
  isPlainName e.generator = true ∧ isContained e.artifact.path = true

theorem names_of_isContained {p : Path} (h : isContained p = true) :
    p.text ≠ "" ∧ p.components = (p.components.filterMap Path.Component.name?).map .name := by
  simp only [isContained, Bool.and_eq_true, bne_iff_ne, ne_eq, List.all_eq_true] at h
  refine ⟨h.1, ?_⟩
  have hNames := h.2
  generalize p.components = cs at hNames
  induction cs with
  | nil => rfl
  | cons c cs ih =>
    obtain ⟨hFirst, hRest⟩ := List.forall_mem_cons.1 hNames
    cases c with
    | name text =>
      have hCons : (Path.Component.name text :: cs).filterMap Path.Component.name? =
          text :: cs.filterMap Path.Component.name? := rfl
      rw [hCons, List.map_cons, ← ih hRest]
    | root | current | parent => cases hFirst

theorem isContained_of_isPlainName {name : String} (h : isPlainName name = true) :
    isContained ⟨name⟩ = true := by
  unfold isPlainName at h
  split at h
  · rename_i text hComponents
    have hText : name ≠ "" := by
      rintro rfl
      cases hComponents
    simp [isContained, hComponents, hText]
  · cases h

/-- The location of an artifact, told from its place. -/
def Emitted.location (base : Location) (e : Emitted) : Location :=
  base ++ e.place.filterMap Path.Component.name?

theorem Emitted.IsNamed.landingOf_target (h : e.IsNamed) (tree : FileTree) (root : Path) :
    tree.landingOf (e.target root) = e.location (tree.landingOf root) := by
  obtain ⟨hText, hNames⟩ := names_of_isContained (isContained_of_isPlainName h.1)
  obtain ⟨hText', hNames'⟩ := names_of_isContained h.2
  obtain ⟨hRelative, hDirectory⟩ := Path.landing_of_names hText hNames
  obtain ⟨hRelative', hFile⟩ := Path.landing_of_names hText' hNames'
  rw [target, landingOf_join _ _ hRelative', landingOf_join _ _ hRelative, hDirectory, hFile,
    location, place, List.filterMap_append, List.append_assoc]

/-- Different places are different locations. -/
theorem Emitted.IsNamed.place_eq {e' : Emitted} (h : e.IsNamed) (h' : e'.IsNamed)
    {base : Location} (hSame : e.location base = e'.location base) : e.place = e'.place := by
  have hPlace : ∀ {e : Emitted}, e.IsNamed →
      e.place = (e.place.filterMap Path.Component.name?).map .name := by
    intro e h
    rw [place, List.filterMap_append, List.map_append,
      ← (names_of_isContained (isContained_of_isPlainName h.1)).2, ← (names_of_isContained h.2).2]
  rw [hPlace h, hPlace h', List.append_cancel_left hSame]

/-- What writing one artifact can do: refuse its path, fail on the way and leave nothing new but
directories, or make a file at the end of the path. -/
theorem writeOne_cases {result : Except ComposeError Path}
    (h : writeOne tree root e = (tree', result)) :
    (isContained e.artifact.path = false ∧ tree' = tree ∧
      result = .error (.outsidePath e.generator e.artifact.path)) ∨
    (isContained e.artifact.path = true ∧ Keeps [] tree tree' ∧
      ∃ path cause, result = .error (.unwritable path cause)) ∨
    (isContained e.artifact.path = true ∧ result = .ok (e.target root) ∧
      ∃ l, tree'.locate (e.target root) = .ok l ∧
        tree'.entry? l = some (.file (.text e.artifact.contents)) ∧ Keeps [l] tree tree') := by
  unfold writeOne at h
  split at h
  · rename_i hOutside
    obtain ⟨rfl, rfl⟩ := Prod.mk.inj h
    exact .inl ⟨by simpa using hOutside, rfl, rfl⟩
  · rename_i hContained
    have hContained : isContained e.artifact.path = true := by simpa using hContained
    simp only at h
    split at h
    · rename_i t cause hMade
      obtain ⟨rfl, rfl⟩ := Prod.mk.inj h
      exact .inr (.inl ⟨hContained, makeDirectoriesWithin_keeps hMade, _, cause, rfl⟩)
    · rename_i t hMade
      have hParents := makeDirectoriesWithin_keeps hMade
      split at h
      · rename_i cause _
        obtain ⟨rfl, rfl⟩ := Prod.mk.inj h
        exact .inr (.inl ⟨hContained, hParents, _, cause, rfl⟩)
      · rename_i hWritten
        obtain ⟨rfl, rfl⟩ := Prod.mk.inj h
        obtain ⟨l, hLocate, hEntry, hKeeps⟩ := write_eq_ok hWritten
        exact .inr (.inr ⟨hContained, rfl, l, hLocate, hEntry, hParents.trans hKeeps⟩)

/-- What writing one artifact does, if it does not fail. -/
theorem writeOne_eq_ok {path : Path} (hPlain : isPlainName e.generator = true)
    (h : writeOne tree root e = (tree', .ok path)) :
    e.IsNamed ∧ path = e.target root ∧
      ∃ l, l = e.location (tree.landingOf root) ∧
        tree'.locate (e.target root) = .ok l ∧
        tree'.entry? l = some (.file (.text e.artifact.contents)) ∧ Keeps [l] tree tree' := by
  obtain ⟨_, _, hError⟩ | ⟨_, _, _, _, hError⟩ | ⟨hContained, hPath, l, hLocate, hEntry, hKeeps⟩ :=
    writeOne_cases h
  · cases hError
  · cases hError
  · have hNamed : e.IsNamed := ⟨hPlain, hContained⟩
    refine ⟨hNamed, Except.ok.inj hPath, l, ?_, hLocate, hEntry, hKeeps⟩
    have hLanding := walk_eq_landing (locate_eq_ok.1 hLocate).2
    rw [← hKeeps.landingOf root, ← hNamed.landingOf_target]
    exact hLanding

/-- What writing some artifacts does, if none of them fails. A file holds what was written to it as
long as nothing later is written to the same location. -/
theorem write_eq_ok {paths : List Path} (hPlain : ∀ e ∈ es, isPlainName e.generator = true)
    (h : write tree root es = (tree', .ok paths)) :
    (∀ e ∈ es, e.IsNamed) ∧ paths = es.map (fun e => e.target root) ∧
      Keeps (es.map (fun e => e.location (tree.landingOf root))) tree tree' ∧
      ((es.map (fun e => e.location (tree.landingOf root))).Nodup →
        ∀ e ∈ es, tree'.locate (e.target root) = .ok (e.location (tree.landingOf root)) ∧
          tree'.entry? (e.location (tree.landingOf root)) =
            some (.file (.text e.artifact.contents))) := by
  induction es generalizing tree paths with
  | nil =>
    obtain ⟨rfl, hPaths⟩ := Prod.mk.inj h
    exact ⟨by simp, (Except.ok.inj hPaths).symm, Keeps.refl tree, by simp⟩
  | cons e es ih =>
    obtain ⟨hFirst, hRest⟩ := List.forall_mem_cons.1 hPlain
    unfold write at h
    split at h
    · cases h
    · rename_i t path hOne
      simp only at h
      cases hMore : write t root es with
      | mk t' result =>
        rw [hMore] at h
        obtain ⟨rfl, hPaths⟩ := Prod.mk.inj h
        cases result with
        | error => cases hPaths
        | ok paths' =>
          obtain rfl := Except.ok.inj hPaths
          obtain ⟨hNamed, rfl, l, rfl, hLocate, hEntry, hKeeps⟩ := writeOne_eq_ok hFirst hOne
          obtain ⟨hNameds, rfl, hKeepsRest, hAll⟩ := ih hRest hMore
          -- Writing changes no working directory, so the root still leads to the same place.
          rw [hKeeps.landingOf] at hKeepsRest hAll
          refine ⟨List.forall_mem_cons.2 ⟨hNamed, hNameds⟩, rfl, hKeeps.trans hKeepsRest, ?_⟩
          intro hDistinct
          obtain ⟨hNew, hDistinct⟩ := List.nodup_cons.1 hDistinct
          refine List.forall_mem_cons.2 ⟨⟨hKeepsRest.locate hLocate, ?_⟩, hAll hDistinct⟩
          exact hKeepsRest.contents _ hNew _ hEntry

/-- Artifacts at different places make one file each, wherever they are written, and each file holds
what was written to it. -/
theorem write_one_file_each {paths : List Path}
    (hPlain : ∀ e ∈ es, isPlainName e.generator = true) (hDistinct : (es.map Emitted.place).Nodup)
    (h : write tree root es = (tree', .ok paths)) :
    paths = es.map (fun e => e.target root) ∧
      ∃ locations : List Location, locations.Nodup ∧
        List.Forall₂ (fun e l => tree'.locate (e.target root) = .ok l ∧
          tree'.entry? l = some (.file (.text e.artifact.contents))) es locations := by
  obtain ⟨hNamed, hPaths, -, hAll⟩ := write_eq_ok hPlain h
  have hLocations : (es.map (fun e => e.location (tree.landingOf root))).Nodup := by
    rw [List.Nodup, List.pairwise_map] at hDistinct ⊢
    refine hDistinct.imp_of_mem ?_
    intro e e' he he' hDifferent hSame
    exact hDifferent ((hNamed e he).place_eq (hNamed e' he') hSame)
  refine ⟨hPaths, _, hLocations, ?_⟩
  rw [List.forall₂_map_right_iff, List.forall₂_same]
  exact hAll hLocations

end Engine

end EntitySchema
