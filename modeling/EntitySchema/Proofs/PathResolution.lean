import EntitySchema.Proofs.ReadingRun

/-!
Paths are followed segment by segment. The main result is that a path written in a file leads to the
same place whatever path the file itself was opened by: it is followed from the directory that holds
the file.
-/

namespace EntitySchema

/-! ## Segments -/

namespace Path

theorem not_mem_segments (p : Path) : ∀ s ∈ p.segments, '/' ∉ s :=
  not_mem_of_mem_splitOn _

theorem segments_slash (x y : String) :
    segments ⟨x ++ "/" ++ y⟩ = segments ⟨x⟩ ++ segments ⟨y⟩ := by
  have hText : (x ++ "/" ++ y).toList = x.toList ++ '/' :: y.toList := by simp
  unfold segments
  rw [hText, List.splitOn_append_cons_self]

theorem segments_ofSegments {segments : List (List Char)} (hne : segments ≠ [])
    (h : ∀ s ∈ segments, '/' ∉ s) : (ofSegments segments).segments = segments := by
  have hText : (ofSegments segments).text.toList = ['/'].intercalate segments := by
    simp [ofSegments, String.toList_intercalate, Function.comp_def]
  unfold Path.segments
  rw [hText, List.splitOn_intercalate '/' h hne]

theorem isAbsolute_iff {p : Path} : p.isAbsolute = true ↔ ∃ cs, p.text.toList = '/' :: cs := by
  unfold isAbsolute
  cases p.text.toList <;> simp

/-- A path starts at the root exactly if its first segment is empty and not the only one. -/
theorem isAbsolute_iff_segments {p : Path} :
    p.isAbsolute = true ↔ ∃ body, body ≠ [] ∧ p.segments = [] :: body := by
  rw [isAbsolute_iff]
  unfold segments
  constructor
  · rintro ⟨cs, hcs⟩
    refine ⟨cs.splitOn '/', List.splitOn_ne_nil _ _, ?_⟩
    rw [hcs, ← List.nil_append ('/' :: cs), List.splitOn_append_cons_self]
    rfl
  · rintro ⟨body, hne, h⟩
    -- Put together again, an empty segment before others is a slash at the start.
    have hText : ['/'].intercalate (p.text.toList.splitOn '/') = p.text.toList :=
      List.intercalate_splitOn '/'
    rw [h] at hText
    cases body with
    | nil => exact absurd rfl hne
    | cons s rest => exact ⟨_, hText.symm⟩

theorem isAbsolute_ofSegments {segments : List (List Char)} (hne : segments ≠ [])
    (hOne : segments ≠ [[]]) (h : ∀ s ∈ segments, '/' ∉ s) :
    (ofSegments segments).isAbsolute = true ↔ segments.head? = some [] := by
  rw [isAbsolute_iff_segments, segments_ofSegments hne h]
  constructor
  · rintro ⟨body, _, rfl⟩
    rfl
  · intro hHead
    obtain ⟨body, rfl⟩ := List.head?_eq_some_iff.1 hHead
    refine ⟨body, ?_, rfl⟩
    rintro rfl
    exact hOne rfl

theorem join_relative {base p : Path} (hp : p.isAbsolute = false) :
    base.join p =
      if base.text = "" ∨ base.text.toList.getLast? = some '/' then ⟨base.text ++ p.text⟩
      else ⟨base.text ++ "/" ++ p.text⟩ := by
  simp [join, hp]

theorem join_absolute (base : Path) {p : Path} (hp : p.isAbsolute) : base.join p = p := by
  simp [join, hp]

theorem text_join (base p : Path) : ∃ front, (base.join p).text = front ++ p.text := by
  unfold join
  split
  · exact ⟨"", by simp⟩
  · split
    · exact ⟨base.text, rfl⟩
    · exact ⟨base.text ++ "/", rfl⟩

/-- Segments end to end, apart from an empty one where `base` ends with a slash. -/
theorem segments_join {base p : Path} (hp : p.isAbsolute = false) (hBase : base.text ≠ "") :
    (base.join p).segments = base.segments ++ p.segments ∨
      ∃ front, base.segments = front ++ [[]] ∧ (base.join p).segments = front ++ p.segments := by
  rw [join_relative hp]
  by_cases hSlash : base.text.toList.getLast? = some '/'
  · obtain ⟨front, hFront⟩ := List.getLast?_eq_some_iff.1 hSlash
    refine Or.inr ⟨front.splitOn '/', ?_, ?_⟩
    · unfold segments
      rw [hFront, List.splitOn_append_cons_self, List.splitOn_nil]
    · have hText : (base.text ++ p.text).toList = front ++ '/' :: p.text.toList := by
        simp [hFront]
      simp only [hSlash, or_true, if_true]
      unfold segments
      rw [hText, List.splitOn_append_cons_self]
  · refine Or.inl ?_
    simp only [hBase, hSlash, or_self, if_false]
    exact segments_slash base.text p.text

theorem isAbsolute_join {base p : Path} (hp : p.isAbsolute = false) (hBase : base.text ≠ "") :
    (base.join p).isAbsolute = base.isAbsolute := by
  obtain ⟨c, cs, hText⟩ := List.exists_cons_of_ne_nil (by simpa using hBase : base.text.toList ≠ [])
  rw [join_relative hp]
  split <;> simp [isAbsolute, hText]

theorem text_eq_empty_iff {p : Path} : p.text = "" ↔ p.segments = [[]] := by
  constructor
  · intro h
    unfold segments
    rw [h]
    rfl
  · intro h
    have hText : ['/'].intercalate (p.text.toList.splitOn '/') = p.text.toList :=
      List.intercalate_splitOn '/'
    unfold segments at h
    rw [h] at hText
    simpa using hText.symm

/-! ## Parents -/

theorem trimEnd_snoc {front : List (List Char)} {last : List Char} (h : isVoid last = false) :
    trimEnd (front ++ [last]) = front ++ [last] := by
  simp [trimEnd, h]

/-- Trimming takes void segments from the end, and leaves none there. -/
theorem trimEnd_split (segments : List (List Char)) :
    ∃ void, segments = trimEnd segments ++ void ∧ (∀ s ∈ void, isVoid s) ∧
      ∀ front last, trimEnd segments = front ++ [last] → isVoid last = false := by
  refine ⟨(segments.reverse.takeWhile isVoid).reverse, ?_, ?_, ?_⟩
  · unfold trimEnd
    rw [← List.reverse_append, List.takeWhile_append_dropWhile, List.reverse_reverse]
  · intro s hs
    exact List.all_eq_true.1 List.all_takeWhile s (List.mem_reverse.1 hs)
  · intro front last h
    have hHead : segments.reverse.dropWhile isVoid = last :: front.reverse := by
      have := congrArg List.reverse h
      simpa [trimEnd] using this
    have := List.head?_dropWhile_not isVoid segments.reverse
    simpa [hHead] using this

theorem forall_mem_trimEnd {segments : List (List Char)} {P : List Char → Prop}
    (h : ∀ s ∈ segments, P s) : ∀ s ∈ trimEnd segments, P s := by
  obtain ⟨void, hSegments, _⟩ := trimEnd_split segments
  intro s hs
  exact h s (by rw [hSegments]; simp [hs])

/-- The parent of a path whose last segment is a name. -/
theorem parent?_of_name {p : Path} {front : List (List Char)} {last : List Char}
    (hp : p.segments = front ++ [last]) (hLast : isVoid last = false) :
    (∃ more, front = [] :: more ∧
      p.parent? = some (ofSegments ([] :: parent?.orRoot (trimEnd more)))) ∨
    (∃ more, front = ['.'] :: more ∧ p.parent? = some (ofSegments (['.'] :: trimEnd more))) ∨
    (front.head? ≠ some [] ∧ p.parent? = some (ofSegments (trimEnd front))) := by
  have hBody : ∀ more, trimEnd (more ++ [last]) = more ++ [last] := fun _ => trimEnd_snoc hLast
  have hEmpty : last ≠ [] := by
    rintro rfl
    cases hLast
  have hDot : last ≠ ['.'] := by
    rintro rfl
    cases hLast
  -- Only the first segment decides: whether it is empty, a dot, or part of a name.
  unfold parent?
  rw [hp]
  cases front with
  | nil =>
    refine Or.inr (Or.inr ⟨by simp, ?_⟩)
    split <;> simp_all [trimEnd]
  | cons first more =>
    by_cases h1 : first = []
    · subst h1
      refine Or.inl ⟨more, rfl, ?_⟩
      simp only [List.cons_append]
      split
      · simp_all
      · rename_i body _ hEq
        obtain rfl : more ++ [last] = body := by simpa using hEq
        rw [hBody]
        split
        · simp_all
        · rw [List.dropLast_concat]
      · simp_all
      · simp_all
    · by_cases h2 : first = ['.']
      · subst h2
        refine Or.inr (Or.inl ⟨more, rfl, ?_⟩)
        simp only [List.cons_append]
        split <;> simp_all
      · refine Or.inr (Or.inr ⟨by simpa using h1, ?_⟩)
        have hAll : (trimEnd (first :: (more ++ [last]))).dropLast = first :: more := by
          rw [← List.cons_append, hBody, List.dropLast_concat]
        simp only [List.cons_append]
        split <;> simp_all

end Path

/-! ## Walking along segments -/

namespace FileTree

variable {tree : FileTree} {start d l : Location}

/-- Along some segments from the entry at `l`. -/
abbrev walk (tree : FileTree) (l : Location) (segments : List (List Char)) :
    Except FileError Location :=
  segments.foldlM tree.follow l

theorem walk_append {front back : List (List Char)} :
    tree.walk start (front ++ back) = .ok l ↔
      ∃ d, tree.walk start front = .ok d ∧ tree.walk d back = .ok l := by
  unfold walk
  rw [List.foldlM_append, bind_eq_ok_iff]

theorem walk_cons {s : List Char} {rest : List (List Char)} :
    tree.walk start (s :: rest) = .ok l ↔
      ∃ d, tree.follow start s = .ok d ∧ tree.walk d rest = .ok l := by
  unfold walk
  rw [List.foldlM_cons, bind_eq_ok_iff]

theorem follow_void {s : List Char} (hs : Path.isVoid s) :
    tree.follow d s = .ok l ↔ tree.isDirectory d ∧ l = d := by
  unfold follow
  by_cases hd : tree.isDirectory d = true
  · simp [hd, hs, eq_comm]
  · simp [hd]

theorem walk_void {segments : List (List Char)} (hs : ∀ s ∈ segments, Path.isVoid s)
    (h : tree.walk start segments = .ok l) : l = start := by
  induction segments generalizing start with
  | nil => exact (Except.ok.inj h).symm
  | cons s segments ih =>
    rw [List.forall_mem_cons] at hs
    obtain ⟨d, hd, hRest⟩ := walk_cons.1 h
    obtain ⟨_, rfl⟩ := (follow_void hs.1).1 hd
    exact ih hs.2 hRest

theorem walk_trimEnd {segments : List (List Char)} (h : tree.walk start segments = .ok l) :
    tree.walk start (Path.trimEnd segments) = .ok l := by
  obtain ⟨void, hSegments, hVoid, _⟩ := Path.trimEnd_split segments
  rw [hSegments] at h
  obtain ⟨d, hd, h⟩ := walk_append.1 h
  rw [walk_void hVoid h]
  exact hd

/-- The entry that a path is followed from. -/
def startOf (tree : FileTree) (p : Path) : Location :=
  if p.isAbsolute then [] else tree.workingDirectory

theorem isDirectory_root (tree : FileTree) : tree.isDirectory [] := by
  simp [isDirectory, entry?]

/-- The empty segment before the first slash may be followed as well: it stays at the root. -/
theorem walk_origin (tree : FileTree) (p : Path) :
    tree.walk (tree.origin p).1 (tree.origin p).2 = tree.walk (tree.startOf p) p.segments := by
  unfold origin startOf
  by_cases hp : p.isAbsolute = true
  · obtain ⟨body, _, hBody⟩ := Path.isAbsolute_iff_segments.1 hp
    have hRoot : tree.follow [] [] = .ok [] :=
      (follow_void (by decide)).2 ⟨isDirectory_root tree, rfl⟩
    simp [hp, hBody, walk, hRoot, bind, Except.bind]
  · simp [hp]

theorem resolve_eq_ok {p : Path} :
    tree.resolve p = .ok l ↔
      checkPath p = .ok () ∧ tree.walk (tree.startOf p) p.segments = .ok l := by
  unfold resolve
  rw [bind_eq_ok_iff, ← walk_origin]
  constructor
  · rintro ⟨_, hc, h⟩
    exact ⟨hc, h⟩
  · rintro ⟨hc, h⟩
    exact ⟨(), hc, h⟩

/-! ## From the directory of a file -/

/-- Every entry is in a directory. -/
def WellFormed (tree : FileTree) : Prop :=
  ∀ x ∈ tree.entries, tree.isDirectory x.1.dropLast

theorem WellFormed.isDirectory_dropLast (h : tree.WellFormed) (hd : tree.isDirectory d) :
    tree.isDirectory d.dropLast := by
  unfold isDirectory entry? at hd
  split at hd
  · rename_i hRoot
    rw [hRoot]
    exact isDirectory_root tree
  · obtain ⟨e, he⟩ : ∃ e, tree.entries.lookup d = some e := ⟨_, by simpa using hd⟩
    obtain ⟨front, back, hEntries, _⟩ := List.lookup_eq_some_iff.1 he
    exact h (d, e) (by simp [hEntries])

/-- One segment leads nowhere else, up, or down by a name. -/
theorem follow_cases {s : List Char} (h : tree.follow d s = .ok l) :
    tree.isDirectory d ∧
      (l = d ∨ l = d.dropLast ∨ (Path.isVoid s = false ∧ l = d ++ [String.ofList s])) := by
  unfold follow at h
  grind

/-- The last segment of a path that leads to a file is the name of the file. -/
theorem walk_file {segments : List (List Char)} {contents : Contents} (hTree : tree.WellFormed)
    (h : tree.walk start segments = .ok l) (hne : segments ≠ [])
    (hl : tree.entry? l = some (.file contents)) :
    ∃ front last, segments = front ++ [last] ∧ Path.isVoid last = false ∧
      tree.walk start front = .ok l.dropLast ∧ tree.isDirectory l.dropLast := by
  have hFile : ¬ tree.isDirectory l := by simp [isDirectory, hl]
  obtain ⟨front, last, rfl⟩ : ∃ front last, segments = front ++ [last] :=
    ⟨_, _, (List.dropLast_concat_getLast hne).symm⟩
  obtain ⟨d, hd, hLast⟩ := walk_append.1 h
  obtain ⟨_, hFollow, hl'⟩ := walk_cons.1 hLast
  obtain rfl := Except.ok.inj hl'
  obtain ⟨hDirectory, rfl | rfl | ⟨hVoid, rfl⟩⟩ := follow_cases hFollow
  · exact absurd hDirectory hFile
  · exact absurd (hTree.isDirectory_dropLast hDirectory) hFile
  · rw [List.dropLast_concat]
    exact ⟨front, last, rfl, hVoid, hd, hDirectory⟩

/-- The segments of a path that starts where `p` starts and leads to `d`. -/
structure Leads (tree : FileTree) (p : Path) (segments : List (List Char)) (d : Location) :
    Prop where
  notEmptyText : segments ≠ [[]]
  absolute : segments.head? = some [] ↔ p.isAbsolute = true
  noSlash : ∀ s ∈ segments, '/' ∉ s
  walk : tree.walk (tree.startOf p) segments = .ok d

/-- Where nothing is left after the root, the parent is written as two empty segments, and the
second stays at the root like the first. -/
theorem walk_orRoot {more : List (List Char)} (h : tree.walk [] more = .ok d) :
    tree.walk [] (Path.parent?.orRoot (Path.trimEnd more)) = .ok d := by
  have hTrim := walk_trimEnd h
  cases hEmpty : Path.trimEnd more with
  | nil =>
    rw [hEmpty] at hTrim
    obtain rfl := Except.ok.inj hTrim
    exact walk_cons.2 ⟨[], (follow_void (by decide)).2 ⟨isDirectory_root tree, rfl⟩, rfl⟩
  | cons s rest =>
    rw [hEmpty] at hTrim
    exact hTrim

theorem forall_mem_orRoot {segments : List (List Char)} (h : ∀ s ∈ segments, '/' ∉ s) :
    ∀ s ∈ Path.parent?.orRoot segments, '/' ∉ s := by
  cases segments with
  | nil => simp [Path.parent?.orRoot]
  | cons s rest => exact h

/-- The segments of the parent lead where all but the last segment lead. -/
theorem leads_parent {p : Path} {front : List (List Char)} {last : List Char}
    (hp : p.segments = front ++ [last]) (hLast : Path.isVoid last = false)
    (h : tree.walk (tree.startOf p) front = .ok d) :
    ∃ segments, p.parent? = some (Path.ofSegments segments) ∧ tree.Leads p segments d := by
  have hSlash : ∀ s ∈ front, '/' ∉ s := fun s hs => p.not_mem_segments s (by simp [hp, hs])
  have hAbsolute := Path.isAbsolute_iff_segments (p := p)
  rw [hp] at hAbsolute
  rcases Path.parent?_of_name hp hLast with ⟨more, rfl, hParent⟩ | ⟨more, rfl, hParent⟩ |
    ⟨hHead, hParent⟩
  · -- An absolute path.
    have hRoot : p.isAbsolute = true := hAbsolute.2 ⟨more ++ [last], by simp, rfl⟩
    rw [List.forall_mem_cons] at hSlash
    have hNoSlash : ∀ s ∈ Path.parent?.orRoot (Path.trimEnd more), '/' ∉ s :=
      forall_mem_orRoot (Path.forall_mem_trimEnd hSlash.2)
    refine ⟨_, hParent, ?_, by simp [hRoot], List.forall_mem_cons.2 ⟨hSlash.1, hNoSlash⟩, ?_⟩
    · cases Path.trimEnd more <;> simp [Path.parent?.orRoot]
    · have hStart : tree.startOf p = [] := by simp [startOf, hRoot]
      rw [hStart] at h ⊢
      obtain ⟨_, hFollow, hMore⟩ := walk_cons.1 h
      obtain ⟨_, rfl⟩ := (follow_void (by decide)).1 hFollow
      exact walk_cons.2 ⟨_, hFollow, walk_orRoot hMore⟩
  · -- A path that starts with a dot, which its parent keeps.
    rw [List.forall_mem_cons] at hSlash
    obtain ⟨_, hDot, hMore⟩ := walk_cons.1 h
    exact ⟨_, hParent, by simp, by simp [hAbsolute],
      List.forall_mem_cons.2 ⟨hSlash.1, Path.forall_mem_trimEnd hSlash.2⟩,
      walk_cons.2 ⟨_, hDot, walk_trimEnd hMore⟩⟩
  · obtain ⟨void, hFront, _, hEnd⟩ := Path.trimEnd_split front
    refine ⟨_, hParent, ?_, ?_, Path.forall_mem_trimEnd hSlash, walk_trimEnd h⟩
    · intro hOne
      exact absurd (hEnd [] [] hOne) (by decide)
    · rw [hAbsolute]
      constructor
      · intro hTrim
        rw [hFront, List.head?_append, hTrim] at hHead
        exact absurd rfl hHead
      · rintro ⟨body, hne, hBody⟩
        have hFirst : (front ++ [last]).head? = some [] := by rw [hBody]; rfl
        cases front with
        | nil =>
          obtain rfl : last = [] := by simpa using hFirst
          cases hLast
        | cons s rest => exact absurd hFirst hHead

/-- A path joined to segments is followed from where the segments lead. -/
theorem Leads.walk_join {p v : Path} {segments : List (List Char)} (h : tree.Leads p segments d)
    (hv : v.isAbsolute = false)
    (hJoined : tree.walk (tree.startOf ((Path.ofSegments segments).join v))
      ((Path.ofSegments segments).join v).segments = .ok l) :
    tree.walk d v.segments = .ok l := by
  by_cases hEmpty : segments = []
  · -- Nothing is joined to: both start at the same place, which is already `d`.
    subst hEmpty
    have hJoin : (Path.ofSegments []).join v = v := by
      simp [Path.join, hv, Path.ofSegments]
    have hStart : tree.startOf p = tree.startOf v := by
      unfold startOf
      rw [hv, Bool.eq_false_iff.2 (fun hp => nomatch h.absolute.2 hp)]
    rw [hJoin, ← hStart, Except.ok.inj h.walk] at hJoined
    exact hJoined
  · have hText := Path.segments_ofSegments hEmpty h.noSlash
    have hBase : (Path.ofSegments segments).text ≠ "" := by
      rw [Ne, Path.text_eq_empty_iff, hText]
      exact h.notEmptyText
    have hStart : tree.startOf ((Path.ofSegments segments).join v) = tree.startOf p := by
      have hSame : (Path.ofSegments segments).isAbsolute = p.isAbsolute := by
        rw [Bool.eq_iff_iff, Path.isAbsolute_ofSegments hEmpty h.notEmptyText h.noSlash, h.absolute]
      unfold startOf
      rw [Path.isAbsolute_join hv hBase, hSame]
    have hDir := h.walk
    rw [hStart] at hJoined
    rcases Path.segments_join hv hBase with hJoin | ⟨before, hBefore, hJoin⟩
    · rw [hJoin, hText] at hJoined
      obtain ⟨d', hd', hJoined⟩ := walk_append.1 hJoined
      rw [hDir] at hd'
      exact Except.ok.inj hd' ▸ hJoined
    · -- The slash at the end adds an empty segment, which leads nowhere else.
      rw [hText] at hBefore
      rw [hBefore] at hDir
      rw [hJoin] at hJoined
      obtain ⟨d', hd', hJoined⟩ := walk_append.1 hJoined
      obtain ⟨d'', hd'', hSlash⟩ := walk_append.1 hDir
      rw [walk_void (by simp [Path.isVoid]) hSlash]
      rw [hd'] at hd''
      exact Except.ok.inj hd'' ▸ hJoined

/-- Where a path leads that is written in the file at `l`: it is followed from the directory of the
file. -/
def resolveFrom (tree : FileTree) (l : Location) (written : String) : Except FileError Location :=
  { tree with workingDirectory := l.dropLast }.resolve (Reader.includeTarget ⟨"."⟩ written)

theorem resolve_absolute {p : Path} (hp : p.isAbsolute) (l : Location) :
    { tree with workingDirectory := l }.resolve p = tree.resolve p := by
  unfold resolve origin
  simp only [hp, if_true]
  rfl

theorem checkPath_eq_ok {p : Path} :
    checkPath p = .ok () ↔ '\x00' ∉ p.text.toList ∧ p.text ≠ "" := by
  unfold checkPath
  split
  · simp_all
  · split <;> simp_all

/-- A relative path from the directory of a file, once by way of the path of the file and once from
the directory itself. -/
theorem resolve_join {p v : Path} {contents : Contents} {b : Location} (hTree : tree.WellFormed)
    (hp : tree.resolve p = .ok l) (hl : tree.entry? l = some (.file contents))
    (hv : v.isAbsolute = false) (hb : tree.resolve ((p.parent?.getD ⟨""⟩).join v) = .ok b) :
    { tree with workingDirectory := l.dropLast }.resolve (Path.join ⟨"."⟩ v) = .ok b := by
  obtain ⟨_, hWalk⟩ := resolve_eq_ok.1 hp
  obtain ⟨hCheck, hTarget⟩ := resolve_eq_ok.1 hb
  obtain ⟨front, last, hSegments, hLast, hFront, hDirectory⟩ :=
    walk_file hTree hWalk (List.splitOn_ne_nil _ _) hl
  obtain ⟨segments, hParent, hLeads⟩ := leads_parent hSegments hLast hFront
  rw [hParent, Option.getD_some] at hTarget hCheck
  have hRest : tree.walk l.dropLast v.segments = .ok b := hLeads.walk_join hv hTarget
  have hJoin : Path.join ⟨"."⟩ v = ⟨"." ++ "/" ++ v.text⟩ := by
    rw [Path.join_relative hv]
    rfl
  rw [resolve_eq_ok, hJoin]
  refine ⟨?_, ?_⟩
  · rw [checkPath_eq_ok] at hCheck ⊢
    obtain ⟨before, hText⟩ := Path.text_join (Path.ofSegments segments) v
    have hZero : '\x00' ∉ v.text.toList := fun h => hCheck.1 (by rw [hText]; simp [h])
    exact ⟨by simpa using hZero, by simp⟩
  · rw [Path.segments_slash]
    have hDot : tree.follow l.dropLast ['.'] = .ok l.dropLast :=
      (follow_void (by decide)).2 ⟨hDirectory, rfl⟩
    have hStart : { tree with workingDirectory := l.dropLast }.startOf ⟨"." ++ "/" ++ v.text⟩ =
        l.dropLast := by
      simp [startOf, Path.isAbsolute]
    rw [hStart]
    exact walk_append.2 ⟨l.dropLast, walk_cons.2 ⟨l.dropLast, hDot, rfl⟩, hRest⟩

/-- A path written in a file leads to the same place whatever path the file was opened by. -/
theorem resolveFrom_eq_ok {p : Path} {contents : Contents} {written : String} {b : Location}
    (hTree : tree.WellFormed) (hp : tree.resolve p = .ok l)
    (hl : tree.entry? l = some (.file contents))
    (hb : tree.resolve (Reader.target p written) = .ok b) :
    tree.resolveFrom l written = .ok b := by
  have hJoin : ∀ v : Path, tree.resolve ((p.parent?.getD ⟨""⟩).join v) = .ok b →
      { tree with workingDirectory := l.dropLast }.resolve (Path.join ⟨"."⟩ v) = .ok b := by
    intro v hb
    by_cases hv : v.isAbsolute = true
    · rw [Path.join_absolute _ hv] at hb ⊢
      rw [resolve_absolute hv, hb]
    · exact resolve_join hTree hp hl (by simpa using hv) hb
  unfold resolveFrom
  unfold Reader.target at hb
  unfold Reader.includeTarget at hb ⊢
  by_cases hWritten : (Path.mk written).isAbsolute = true
  · rw [if_pos hWritten] at hb ⊢
    rw [resolve_absolute hWritten, hb]
  · rw [if_neg hWritten] at hb ⊢
    split at hb
    · exact hJoin _ hb
    · exact hJoin _ hb

end FileTree

end EntitySchema
