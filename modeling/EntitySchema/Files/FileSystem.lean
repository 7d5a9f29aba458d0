import EntitySchema.Files.FileTree

/-!
What reading knows of files: where a path leads, and the text there. Several paths may lead to one
file, in whatever way, so that links are no matter of the reader.
-/

namespace EntitySchema

/-- Files as paths find them. A path leads to the true place of a file, whatever links are on its
way, and what is read by a path is the text at that place. -/
structure FileSystem where
  resolve : Path → Except FileError Location
  readText : Path → Except FileError String
  text? : Location → Option String
  /-- The places of all files that have a text. -/
  locations : List Location
  mem_locations : ∀ {l text}, text? l = some text → l ∈ locations
  text?_of_readText : ∀ {p l text}, resolve p = .ok l → readText p = .ok text → text? l = some text

namespace FileTree

variable {tree : FileTree} {p : Path} {l : Location} {text : String}

def text? (tree : FileTree) (l : Location) : Option String :=
  match tree.entry? l with
  | some (.file (.text text)) => some text
  | _ => none

theorem entry?_of_text? (h : tree.text? l = some text) :
    tree.entry? l = some (.file (.text text)) := by
  unfold text? at h
  split at h
  · rename_i text' hEntry
    rw [hEntry, Option.some.inj h]
  · cases h

/-- A text is that of the file that the path leads to. -/
theorem exists_of_readText (h : tree.readText p = .ok text) :
    ∃ l, tree.resolve p = .ok l ∧ tree.text? l = some text := by
  unfold readText locate at h
  cases hCheck : checkWholePath p with
  | error e => simp [hCheck, bind, Except.bind] at h
  | ok =>
    cases hl : tree.resolve p with
    | error e => simp [hCheck, hl, bind, Except.bind] at h
    | ok l =>
      refine ⟨l, rfl, ?_⟩
      simp only [hCheck, hl, bind, Except.bind] at h
      unfold text?
      split at h <;> simp_all

theorem mem_entries_of_text? (h : tree.text? l = some text) : l ∈ tree.entries.map Prod.fst := by
  have hEntry := entry?_of_text? h
  unfold entry? at hEntry
  split at hEntry
  · cases hEntry
  · have hSome : (tree.entries.lookup l).isSome := by rw [hEntry]; rfl
    obtain ⟨⟨k, e⟩, hMem, hk⟩ := List.lookup_isSome_iff.1 hSome
    simp only [beq_iff_eq] at hk
    exact List.mem_map.2 ⟨(k, e), hMem, hk.symm⟩

/-- The files of a tree. It has no links, but dots and slashes make many paths to one file. -/
def system (tree : FileTree) : FileSystem where
  resolve := tree.resolve
  readText := tree.readText
  text? := tree.text?
  locations := tree.entries.map Prod.fst
  mem_locations := mem_entries_of_text?
  text?_of_readText := by
    intro p l text hl h
    obtain ⟨l', hl', hText⟩ := exists_of_readText h
    obtain rfl : l = l' := Except.ok.inj (hl.symm.trans hl')
    exact hText

@[simp] theorem system_resolve (tree : FileTree) : tree.system.resolve = tree.resolve := rfl

@[simp] theorem system_readText (tree : FileTree) : tree.system.readText = tree.readText := rfl

instance : Coe FileTree FileSystem := ⟨system⟩

end FileTree

/-- No files. -/
instance : EmptyCollection FileSystem := ⟨({} : FileTree)⟩

end EntitySchema
