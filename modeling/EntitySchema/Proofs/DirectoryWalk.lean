import EntitySchema.Proofs.PathResolution
import Mathlib.Data.List.Nodup

/-!
Walking a directory delivers each file below it once: the paths that it gives lead to different
locations.
-/

namespace EntitySchema

namespace FileTree

variable {tree : FileTree} {l a : Location} {p : Path} {name : String}

/-- A name that an entry can have: a path that it is joined to leads on to that entry. -/
structure IsEntryName (name : String) : Prop where
  notVoid : Path.isVoid name.toList = false
  notParent : name.toList ≠ ['.', '.']
  noSlash : '/' ∉ name.toList

instance (name : String) : Decidable (IsEntryName name) :=
  decidable_of_iff
    (Path.isVoid name.toList = false ∧ name.toList ≠ ['.', '.'] ∧ '/' ∉ name.toList)
    ⟨fun h => ⟨h.1, h.2.1, h.2.2⟩, fun h => ⟨h.notVoid, h.notParent, h.noSlash⟩⟩

/-- No two entries are at the same location, and every entry has a proper name. -/
structure Distinct (tree : FileTree) : Prop where
  locations : (tree.entries.map Prod.fst).Nodup
  names : ∀ x ∈ tree.entries, ∀ name ∈ x.1, IsEntryName name

instance (tree : FileTree) : Decidable tree.Distinct :=
  decidable_of_iff
    ((tree.entries.map Prod.fst).Nodup ∧ ∀ x ∈ tree.entries, ∀ name ∈ x.1, IsEntryName name)
    ⟨fun h => ⟨h.1, h.2⟩, fun h => ⟨h.locations, h.names⟩⟩

/-! ## The entries of a directory -/

/-- The name of an entry that is in the directory at `l`. -/
def childName? (l k : Location) : Option String :=
  match k.getLast? with
  | some name => if k = l ++ [name] then some name else none
  | none => none

theorem childName?_eq_some_iff {k : Location} :
    childName? l k = some name ↔ k = l ++ [name] := by
  unfold childName?
  constructor
  · intro h
    split at h
    · split at h
      · cases h
        assumption
      · cases h
    · cases h
  · rintro rfl
    simp

theorem children_perm (tree : FileTree) (l : Location) :
    (tree.children l).Perm ((tree.entries.map Prod.fst).filterMap (childName? l)) := by
  rw [List.filterMap_map]
  exact List.mergeSort_perm _ _

theorem mem_children : name ∈ tree.children l ↔ l ++ [name] ∈ tree.entries.map Prod.fst := by
  rw [(children_perm tree l).mem_iff, List.mem_filterMap]
  constructor
  · rintro ⟨k, hk, hName⟩
    exact childName?_eq_some_iff.1 hName ▸ hk
  · intro h
    exact ⟨_, h, childName?_eq_some_iff.2 rfl⟩

theorem Distinct.nodup_children (h : tree.Distinct) (l : Location) : (tree.children l).Nodup := by
  rw [(children_perm tree l).nodup_iff]
  refine h.locations.filterMap ?_
  intro k k' name hk hk'
  rw [childName?_eq_some_iff.1 hk, childName?_eq_some_iff.1 hk']

theorem Distinct.isEntryName (h : tree.Distinct) (hName : name ∈ tree.children l) :
    IsEntryName name := by
  obtain ⟨x, hx, hEq⟩ := List.mem_map.1 (mem_children.1 hName)
  exact h.names x hx name (by simp [hEq])

/-! ## Where the paths lead -/

/-- A path that leads nowhere but to `l`, if it can be followed at all. -/
structure LeadsTo (tree : FileTree) (p : Path) (l : Location) : Prop where
  notEmpty : p.text ≠ ""
  only : ∀ a, tree.walk (tree.startOf p) p.segments = .ok a → a = l

theorem follow_name (hName : IsEntryName name) (h : tree.follow l name.toList = .ok a) :
    tree.isDirectory l ∧ a = l ++ [name] := by
  unfold follow at h
  have hVoid := hName.notVoid
  have hParent := hName.notParent
  rw [String.ofList_toList] at h
  grind

theorem IsEntryName.segments (hName : IsEntryName name) :
    (Path.mk name).segments = [name.toList] := by
  unfold Path.segments
  exact List.splitOn_eq_singleton hName.noSlash

theorem LeadsTo.join (hp : tree.LeadsTo p l) (hName : IsEntryName name) :
    tree.LeadsTo (p.join ⟨name⟩) (l ++ [name]) := by
  have hRelative : (Path.mk name).isAbsolute = false := by
    rw [Bool.eq_false_iff]
    intro h
    obtain ⟨cs, hcs⟩ := Path.isAbsolute_iff.1 h
    have hText : name.toList = '/' :: cs := hcs
    exact hName.noSlash (by simp [hText])
  refine ⟨?_, ?_⟩
  · intro hEmpty
    obtain ⟨front, hFront⟩ := Path.text_join p ⟨name⟩
    rw [hFront, String.append_eq_empty_iff] at hEmpty
    have hText : name = "" := hEmpty.2
    have hVoid := hName.notVoid
    rw [hText] at hVoid
    cases hVoid
  · intro a ha
    have hStart : tree.startOf (p.join ⟨name⟩) = tree.startOf p := by
      unfold startOf
      rw [Path.isAbsolute_join hRelative hp.notEmpty]
    rw [hStart] at ha
    rcases Path.segments_join hRelative hp.notEmpty with hSegments | ⟨front, hp', hSegments⟩
    · rw [hSegments, hName.segments] at ha
      obtain ⟨d, hd, ha⟩ := walk_append.1 ha
      obtain ⟨_, hFollow, hEnd⟩ := walk_cons.1 ha
      obtain rfl := Except.ok.inj hEnd
      obtain rfl := hp.only d hd
      exact (follow_name hName hFollow).2
    · -- The slash at the end of `p` is an empty segment, which stays in the directory.
      rw [hSegments, hName.segments] at ha
      obtain ⟨d, hd, ha⟩ := walk_append.1 ha
      obtain ⟨_, hFollow, hEnd⟩ := walk_cons.1 ha
      obtain rfl := Except.ok.inj hEnd
      obtain ⟨hDirectory, rfl⟩ := follow_name hName hFollow
      have hSlash : tree.walk (tree.startOf p) p.segments = .ok d := by
        rw [hp']
        exact walk_append.2
          ⟨d, hd, walk_cons.2 ⟨d, (follow_void (by decide)).2 ⟨hDirectory, rfl⟩, rfl⟩⟩
      rw [hp.only d hSlash]

/-- Two paths that do not lead to the same location. -/
def Apart (tree : FileTree) (p q : Path) : Prop :=
  ∀ l, tree.resolve p = .ok l → tree.resolve q ≠ .ok l

/-- The paths that are given below a directory stay below it. -/
theorem prefix_of_mem_filesWithin (hTree : tree.Distinct) (depth : Nat) (hp : tree.LeadsTo p l)
    {x : Path × Contents} (hx : x ∈ tree.filesWithin depth l p)
    (ha : tree.resolve x.1 = .ok a) : l <+: a := by
  fun_induction filesWithin tree depth l p with
  | case1 => cases hx
  | case2 depth l p contents =>
    obtain rfl := List.mem_singleton.1 hx
    obtain rfl := hp.only a (resolve_eq_ok.1 ha).2
    exact List.prefix_rfl
  | case3 => cases hx
  | case4 l p _ depth ih =>
    obtain ⟨name, hName, hx⟩ := List.mem_flatMap.1 hx
    exact (List.prefix_append l [name]).trans (ih name (hp.join (hTree.isEntryName hName)) hx)

/-- The files at most some levels below a directory are at different locations. -/
theorem filesWithin_pairwise (hTree : tree.Distinct) (depth : Nat) (hp : tree.LeadsTo p l) :
    (tree.filesWithin depth l p).Pairwise (fun x y => tree.Apart x.1 y.1) := by
  fun_induction filesWithin tree depth l p with
  | case1 => exact .nil
  | case2 => exact List.pairwise_singleton _ _
  | case3 => exact .nil
  | case4 l p _ depth ih =>
    have hBelow : ∀ {name : String} {x : Path × Contents} {a : Location},
        name ∈ tree.children l → x ∈ tree.filesWithin depth (l ++ [name]) (p.join ⟨name⟩) →
        tree.resolve x.1 = .ok a → l ++ [name] <+: a := by
      intro name x a hName hx ha
      exact prefix_of_mem_filesWithin hTree depth (hp.join (hTree.isEntryName hName)) hx ha
    rw [List.pairwise_flatMap]
    constructor
    · intro name hName
      exact ih name (hp.join (hTree.isEntryName hName))
    · -- Below two entries of a directory, locations differ in the name of the entry.
      refine (hTree.nodup_children l).imp_of_mem ?_
      intro name name' hName hName' hne x hx y hy a ha hb
      have hShorter : (l ++ [name]).length ≤ (l ++ [name']).length := by simp
      have hPrefix : l ++ [name] <+: l ++ [name'] :=
        List.prefix_of_prefix_length_le (hBelow hName hx ha) (hBelow hName' hy hb) hShorter
      have hSame : l ++ [name] = l ++ [name'] := hPrefix.eq_of_length (by simp)
      exact hne (by simpa using hSame)

end FileTree

/-- No file of a directory is given twice. -/
theorem schemaFiles_pairwise {tree : FileTree} {directory : Path} {recursive : Bool}
    {files : List Path} (hTree : tree.Distinct)
    (h : schemaFiles tree directory recursive = .ok files) : files.Pairwise tree.Apart := by
  unfold schemaFiles at h
  cases hl : tree.locate directory with
  | error e => simp [hl] at h
  | ok l =>
    simp only [hl, Except.ok.injEq] at h
    subst h
    obtain ⟨_, _, hResolve⟩ := bind_eq_ok_iff.1 hl
    obtain ⟨hCheck, hWalk⟩ := FileTree.resolve_eq_ok.1 hResolve
    have hDirectory : tree.LeadsTo directory l := by
      refine ⟨(FileTree.checkPath_eq_ok.1 hCheck).2, ?_⟩
      intro a ha
      rw [hWalk] at ha
      exact (Except.ok.inj ha).symm
    exact (List.pairwise_map.2 (FileTree.filesWithin_pairwise hTree _ hDirectory)).filter _

end EntitySchema
