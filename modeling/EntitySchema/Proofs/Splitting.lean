import EntitySchema.Proofs.Arrangement
import EntitySchema.Proofs.DirectoryWalk

/-!
A schema that is split over files. The names of all files are announced first, and each file
announces its names once more when it is read. The second time nothing changes, so the files are
read like one source that holds their declarations one after the other.
-/

namespace EntitySchema

open EntitySchema.Derivation Grammar

/-! ## Announcing again -/

namespace Model

variable {model : Model} {n : String} {names : List String}

theorem insertName_of_mem (hNames : names.Pairwise (· < ·)) (hn : n ∈ names) :
    insertName n names = names := by
  fun_induction insertName n names with
  | case1 => cases hn
  | case2 => rfl
  | case3 x rest hne hlt =>
    -- A name below the first one is below all of them.
    obtain ⟨hFirst, _⟩ := List.pairwise_cons.1 hNames
    rcases List.mem_cons.1 hn with rfl | hn
    · exact absurd rfl hne
    · exact absurd (hFirst n hn) (Std.not_gt_of_lt hlt)
  | case4 x rest hne _ ih =>
    obtain ⟨_, hRest⟩ := List.pairwise_cons.1 hNames
    rw [ih hRest ((List.mem_cons.1 hn).resolve_left hne)]

theorem insertName_pairwise (hNames : names.Pairwise (· < ·)) :
    (insertName n names).Pairwise (· < ·) := by
  fun_induction insertName n names with
  | case1 => exact List.pairwise_singleton _ _
  | case2 => exact hNames
  | case3 x rest _ hlt =>
    obtain ⟨hFirst, _⟩ := List.pairwise_cons.1 hNames
    refine List.pairwise_cons.2 ⟨?_, hNames⟩
    intro y hy
    rcases List.mem_cons.1 hy with rfl | hy
    · exact hlt
    · exact Std.lt_trans hlt (hFirst y hy)
  | case4 x rest hne hle ih =>
    obtain ⟨hFirst, hRest⟩ := List.pairwise_cons.1 hNames
    refine List.pairwise_cons.2 ⟨?_, ih hRest⟩
    intro y hy
    rcases mem_insertName.1 hy with rfl | hy
    · exact Std.lt_of_le_of_ne (Std.not_lt.1 hle) (Ne.symm hne)
    · exact hFirst y hy

/-- The announced names are in ascending order, and none is there twice. -/
def Ascending (model : Model) : Prop :=
  model.pending.Pairwise (· < ·)

theorem Ascending.announce (h : model.Ascending) (n : String) : (model.announce n).Ascending := by
  unfold Model.announce
  split
  · exact h
  · exact insertName_pairwise h

theorem Ascending.declareIn (h : model.Ascending) (d : Declaration) :
    (d.declareIn model).Ascending := by
  cases d with
  | struct s => exact List.Pairwise.filter _ h
  | enumeration e => exact List.Pairwise.filter _ h
  | config => exact h
  | includes => exact h

theorem Ascending.announceTokens (h : model.Ascending) (ts : List Token) :
    (Reader.announceTokens model ts).Ascending := by
  rw [Printer.announceTokens_eq]
  induction Printer.announcedNames ts generalizing model with
  | nil => exact h
  | cons n names ih => exact ih (h.announce n)

/-- A name that is announced or declared is not announced again. -/
theorem Ascending.announce_eq (h : model.Ascending) (hn : model.isTypeName n) :
    model.announce n = model := by
  unfold Model.announce
  split
  · rfl
  · rename_i hDeclared
    rcases isTypeName_iff.1 hn with hn | hn
    · exact absurd (isDeclared_iff.2 hn) hDeclared
    · rw [insertName_of_mem h hn]

theorem Ascending.announceTokens_eq (h : model.Ascending) {ts : List Token}
    (hts : ∀ n ∈ Printer.announcedNames ts, model.isTypeName n) :
    Reader.announceTokens model ts = model := by
  rw [Printer.announceTokens_eq]
  generalize Printer.announcedNames ts = names at hts
  induction names with
  | nil => rfl
  | cons n names ih =>
    obtain ⟨hn, hNames⟩ := List.forall_mem_cons.1 hts
    rw [List.foldl_cons, h.announce_eq hn, ih hNames]

end Model

namespace Grammar

variable {model final : Model}

theorem readBlocks_append (blocks blocks' : List (List Token)) :
    readBlocks model (blocks ++ blocks') =
      (readBlocks model blocks).bind fun model => readBlocks model blocks' := by
  induction blocks generalizing model with
  | nil => rfl
  | cons block blocks ih =>
    simp only [List.cons_append, readBlocks, Option.bind_assoc, ih]

/-- Reading blocks keeps the announced names in order, and every name that can be a type. -/
theorem readBlocks_keeps {blocks : List (List Token)} (h : readBlocks model blocks = some final)
    (hModel : model.Ascending) :
    final.Ascending ∧ ∀ n, model.isTypeName n → final.isTypeName n := by
  induction blocks generalizing model with
  | nil =>
    obtain rfl := Option.some.inj h
    exact ⟨hModel, fun _ hn => hn⟩
  | cons block blocks ih =>
    obtain ⟨d, _, h⟩ := Option.bind_eq_some_iff.1 h
    obtain ⟨hFinal, hNames⟩ := ih h (hModel.declareIn d)
    exact ⟨hFinal, fun n hn => hNames n (isTypeName_declareIn.2 (Or.inl hn))⟩

end Grammar

/-! ## One file after the other -/

namespace Reader

variable {tree : FileTree} {r r' : Reader} {path : Path} {l : Location} {ts : List Token}
  {files : List Path}

/-- The file that a path leads to has these tokens. -/
def Delivers (tree : FileTree) (path : Path) (ts : List Token) : Prop :=
  ∃ text, tree.readText path = .ok text ∧ tokenize path.text text = .ok ts

theorem Delivers.resolve (h : Delivers tree path ts) : ∃ l, tree.resolve path = .ok l := by
  obtain ⟨text, hText, _⟩ := h
  obtain ⟨l, hl, _⟩ := FileTree.exists_of_readText hText
  exact ⟨l, hl⟩

theorem Delivers.announcePath (h : Delivers tree path ts) (r : Reader) :
    announcePath tree r path = ({ r with model := announceTokens r.model ts }, .ok ()) := by
  obtain ⟨text, hText, hTokens⟩ := h
  unfold Reader.announcePath
  simp only [FileTree.system_readText, hText, hTokens]

theorem Delivers.readPath_eq_ok (h : Delivers tree path ts) (hl : tree.resolve path = .ok l)
    (hNew : l ∉ r.finished) :
    readPath tree r path = (r', .ok ()) ↔ ∃ s, declarations (inclusionIn tree) path
        { r with model := announceTokens r.model ts, reading := r.reading ++ [l] } ts =
          (s, .ok ()) ∧
      r' = { s with reading := s.reading.dropLast, finished := s.finished ++ [l] } := by
  obtain ⟨text, hText, hTokens⟩ := h
  have hUnfinished : r.finished.contains l = false := by simpa using hNew
  -- The file is open while its declarations are read, and finished after that.
  unfold readPath
  simp only [FileTree.system_resolve, hl, hUnfinished, fileWith, FileTree.system_readText, hText,
    sourceWith, hTokens]
  constructor
  · intro h
    obtain ⟨hReader, hOk⟩ := Prod.mk.inj h
    exact ⟨_, Prod.ext rfl hOk, hReader.symm⟩
  · rintro ⟨s, hRun, rfl⟩
    rw [if_neg Bool.false_ne_true, hRun]

/-- Reading a file that consists of blocks. -/
theorem Delivers.readPath_iff {blocks : List (List Token)}
    (h : Delivers tree path blocks.flatten) (hBlocks : ∀ b ∈ blocks, IsBlock b)
    (hl : tree.resolve path = .ok l) (hNew : l ∉ r.finished) :
    Reader.readPath tree r path = (r', .ok ()) ↔
      ∃ final, readBlocks (announceTokens r.model blocks.flatten) blocks = some final ∧
        r' = { r with model := final, finished := r.finished ++ [l] } := by
  simp only [h.readPath_eq_ok hl hNew, declarations_blocks_iff hBlocks]
  constructor
  · rintro ⟨_, ⟨final, hFinal, rfl⟩, rfl⟩
    exact ⟨final, hFinal, by simp⟩
  · rintro ⟨final, hFinal, rfl⟩
    exact ⟨_, ⟨final, hFinal, rfl⟩, by simp⟩

theorem forEach_cons_eq_ok {action : Reader → Path → Outcome} :
    forEach action r (path :: files) = (r', .ok ()) ↔
      ∃ next, action r path = (next, .ok ()) ∧ forEach action next files = (r', .ok ()) := by
  rw [forEach]
  split
  · rename_i next hNext
    simp [hNext]
  · rename_i next e hNext
    simp [hNext]

/-- The files lie at different locations, and none of them is finished. -/
structure Unread (tree : FileTree) (r : Reader) (files : List Path) : Prop where
  apart : files.Pairwise tree.Apart
  unfinished : ∀ path ∈ files, ∀ l, tree.resolve path = .ok l → l ∉ r.finished

theorem Unread.next (h : Unread tree r (path :: files)) (hl : tree.resolve path = .ok l)
    (final : Model) :
    Unread tree { r with model := final, finished := r.finished ++ [l] } files := by
  obtain ⟨hFirst, hRest⟩ := List.pairwise_cons.1 h.apart
  refine ⟨hRest, ?_⟩
  intro path' hPath' l' hl' hFinished
  rcases List.mem_append.1 hFinished with hFinished | hFinished
  · exact h.unfinished path' (List.mem_cons_of_mem _ hPath') l' hl' hFinished
  · obtain rfl := List.mem_singleton.1 hFinished
    exact hFirst path' hPath' l' hl hl'

/-- Announcing all files. -/
theorem forEach_announcePath {tss : List (List Token)}
    (h : List.Forall₂ (Delivers tree) files tss) (r : Reader) :
    forEach (announcePath tree) r files =
      ({ r with model := tss.foldl announceTokens r.model }, .ok ()) := by
  induction h generalizing r with
  | nil => rfl
  | cons hFile _ ih =>
    rw [forEach, hFile.announcePath]
    exact ih _

/-- Files that are read without an error and without an inclusion consist of blocks. -/
theorem exists_blocks_of_forEach {tss : List (List Token)}
    (h : List.Forall₂ (Delivers tree) files tss) (hUnread : Unread tree r files)
    (hInclude : ∀ ts ∈ tss, ¬ HasDirective ts)
    (hRead : forEach (readPath tree) r files = (r', .ok ())) :
    ∀ ts ∈ tss, ∃ blocks : List (List Token), ts = blocks.flatten ∧ ∀ b ∈ blocks, IsBlock b := by
  induction h generalizing r with
  | nil => simp
  | @cons path ts files tss hFile _ ih =>
    obtain ⟨hFirst, hOthers⟩ := List.forall_mem_cons.1 hInclude
    obtain ⟨next, hNext, hRest⟩ := forEach_cons_eq_ok.1 hRead
    obtain ⟨l, hl⟩ := hFile.resolve
    have hNew := hUnread.unfinished path List.mem_cons_self l hl
    obtain ⟨_, hRun, _⟩ := (hFile.readPath_eq_ok hl hNew).1 hNext
    -- Once its blocks are known, the state after the file is too: only it has been finished.
    obtain ⟨blocks, rfl, hBlocks⟩ := exists_blocks hRun hFirst
    obtain ⟨final, _, rfl⟩ := (hFile.readPath_iff hBlocks hl hNew).1 hNext
    exact List.forall_mem_cons.2 ⟨⟨blocks, rfl, hBlocks⟩, ih (hUnread.next hl final) hOthers hRest⟩

/-- Files whose names are announced are read like one list of blocks: the step over one file, and
the run over all of them. -/
theorem forEach_readPath_iff {parts : List (List (List Token))}
    (h : List.Forall₂ (Delivers tree) files (parts.map List.flatten))
    (hBlocks : ∀ blocks ∈ parts, ∀ b ∈ blocks, IsBlock b) (hUnread : Unread tree r files)
    (hModel : r.model.Ascending)
    (hNames : ∀ blocks ∈ parts, ∀ n ∈ Printer.announcedNames blocks.flatten,
      r.model.isTypeName n) {final : Model} :
    (∃ r', forEach (readPath tree) r files = (r', .ok ()) ∧ r'.model = final) ↔
      readBlocks r.model parts.flatten = some final := by
  induction parts generalizing r files with
  | nil =>
    obtain _ | _ := h
    simp [forEach, readBlocks]
  | cons blocks parts ih =>
    obtain _ | ⟨hFile, h⟩ := h
    rename_i path files
    obtain ⟨hFirst, hOthers⟩ := List.forall_mem_cons.1 hBlocks
    obtain ⟨hKnown, hLater⟩ := List.forall_mem_cons.1 hNames
    obtain ⟨l, hl⟩ := hFile.resolve
    have hNew := hUnread.unfinished path List.mem_cons_self l hl
    -- The names of the file are announced already, so it starts from the model as it is.
    have hStep : ∀ next, readPath tree r path = (next, .ok ()) ↔
        ∃ final, readBlocks r.model blocks = some final ∧
          next = { r with model := final, finished := r.finished ++ [l] } := by
      intro next
      rw [hFile.readPath_iff hFirst hl hNew, hModel.announceTokens_eq hKnown]
    rw [List.flatten_cons, readBlocks_append]
    simp only [forEach_cons_eq_ok, hStep]
    cases hBlock : readBlocks r.model blocks with
    | none => simp
    | some next =>
      obtain ⟨hNext, hKeeps⟩ := readBlocks_keeps hBlock hModel
      have hRest := ih h hOthers (hUnread.next hl next) hNext
        (fun blocks hb n hn => hKeeps n (hLater blocks hb n hn))
      simpa using hRest

end Reader

/-! ## Other places -/

/-- The same schema, but for the places where its parts were declared. -/
structure Model.SameSchema (model model' : Model) : Prop where
  structs : model.structs.map Struct.unplaced = model'.structs.map Struct.unplaced
  enums : model.enums.map Enumeration.unplaced = model'.enums.map Enumeration.unplaced
  pending : model.pending = model'.pending

theorem Model.sameSchema_of_erase {model model' : Model}
    (h : model.erase .positions = model'.erase .positions) : model.SameSchema model' := by
  have hStructs := congrArg (fun m : Model => m.structs.map Struct.unplaced) h
  have hEnums := congrArg (fun m : Model => m.enums.map Enumeration.unplaced) h
  simp only [Model.erase, List.map_map, Function.comp_def, Struct.unplaced_erase,
    Enumeration.unplaced_erase] at hStructs hEnums
  have hPending : (model.erase .positions).pending = (model'.erase .positions).pending :=
    congrArg Model.pending h
  exact ⟨hStructs, hEnums, hPending⟩

theorem Model.SameSchema.symm {model model' : Model} (h : model.SameSchema model') :
    model'.SameSchema model :=
  ⟨h.structs.symm, h.enums.symm, h.pending.symm⟩

namespace Grammar

theorem SameDeclaration.erase_declareIn {E : Erasure} {d d' : Declaration} {model model' : Model}
    (h : SameDeclaration E d d') (hModel : model.erase E = model'.erase E) :
    (d.declareIn model).erase E = (d'.declareIn model').erase E := by
  cases d with
  | struct s =>
    obtain ⟨s', rfl, hs⟩ := h.struct_left
    simp only [Declaration.declareIn, Model.erase_declareStruct, hModel, hs]
  | enumeration e =>
    obtain ⟨e', rfl, he⟩ := h.enumeration_left
    simp only [Declaration.declareIn, Model.erase_declareEnum, hModel, he]
  | config =>
    obtain rfl := h.config_left
    exact hModel
  | includes =>
    cases d' with
    | includes => exact hModel
    | struct => cases h
    | enumeration => cases h
    | config => cases h

theorem readBlocks_congr {model model' final : Model} {blocks blocks' : List (List Token)}
    (hModel : model.erase .positions = model'.erase .positions)
    (hBlocks : ∀ b ∈ blocks, IsBlock b) (hText : List.Forall₂ SameText blocks blocks')
    (h : readBlocks model blocks = some final) :
    ∃ final', readBlocks model' blocks' = some final' ∧
      final.erase .positions = final'.erase .positions := by
  induction hText generalizing model model' with
  | nil =>
    obtain rfl := Option.some.inj h
    exact ⟨model', rfl, hModel⟩
  | cons hBlock _ ih =>
    obtain ⟨hFirst, hOthers⟩ := List.forall_mem_cons.1 hBlocks
    obtain ⟨d, hd, h⟩ := Option.bind_eq_some_iff.1 h
    obtain ⟨d', hd', hSame⟩ := readBlock_congr hModel hFirst hd hBlock
    obtain ⟨final', hFinal', hErased⟩ := ih (hSame.erase_declareIn hModel) hOthers h
    exact ⟨final', Option.bind_eq_some_iff.2 ⟨d', hd', hFinal'⟩, hErased⟩

end Grammar

/-- Blocks are blocks wherever they stand. -/
theorem Derivation.SameText.exists_blocks {blocks : List (List Token)} {us : List Token}
    (h : SameText blocks.flatten us) (hBlocks : ∀ b ∈ blocks, IsBlock b) :
    ∃ blocks', us = blocks'.flatten ∧ List.Forall₂ SameText blocks blocks' ∧
      ∀ b ∈ blocks', IsBlock b := by
  induction blocks generalizing us with
  | nil =>
    cases h
    exact ⟨[], rfl, .nil, by simp⟩
  | cons block blocks ih =>
    obtain ⟨hFirst, hOthers⟩ := List.forall_mem_cons.1 hBlocks
    rw [List.flatten_cons] at h
    obtain ⟨block', rest, rfl, hBlock, hRest⟩ := h.append_left
    obtain ⟨blocks', rfl, hTexts, hBlocks'⟩ := ih hRest hOthers
    exact ⟨block' :: blocks', rfl, .cons hBlock hTexts,
      List.forall_mem_cons.2 ⟨hFirst.congr hBlock, hBlocks'⟩⟩

/-- Where the blocks of a source stand does not matter. -/
theorem readTokens_congr {blocks : List (List Token)} {us : List Token} {model : Model}
    (hBlocks : ∀ b ∈ blocks, IsBlock b) (hText : SameText blocks.flatten us)
    (h : readTokens blocks.flatten = .ok model) :
    ∃ model', readTokens us = .ok model' ∧ model.SameSchema model' := by
  have hAnnounced : Reader.announceTokens {} us = Reader.announceTokens {} blocks.flatten := by
    rw [Printer.announceTokens_eq, Printer.announceTokens_eq, Printer.announcedNames_congr hText]
  obtain ⟨blocks', rfl, hTexts, hBlocks'⟩ := hText.exists_blocks hBlocks
  obtain ⟨model', hModel', hErased⟩ :=
    readBlocks_congr rfl hBlocks hTexts ((readTokens_blocks_iff hBlocks).1 h)
  refine ⟨model', (readTokens_blocks_iff hBlocks').2 ?_, Model.sameSchema_of_erase hErased⟩
  rw [hAnnounced]
  exact hModel'

/-! ## The files of a directory -/

section

variable {tree : FileTree} {directory : Path} {recursive : Bool} {files : List Path}
  {tss : List (List Token)} {us : List Token}

theorem loadDirectory_eq_ok_iff {model : Model}
    (hFiles : schemaFiles tree directory recursive = .ok files)
    (hTokens : List.Forall₂ (Reader.Delivers tree) files tss) :
    loadDirectory tree directory recursive = .ok model ↔
      ∃ r, Reader.forEach (Reader.readPath tree)
        { model := tss.foldl Reader.announceTokens {} } files = (r, .ok ()) ∧ r.model = model := by
  unfold loadDirectory
  simp only [hFiles, bind_eq_ok_iff, Except.ok.injEq, exists_eq_left']
  rw [Reader.forEach_announcePath hTokens]
  constructor
  · rintro ⟨_, _, _, hOk, rfl⟩
    exact ⟨_, Prod.ext rfl hOk, rfl⟩
  · rintro ⟨r, hRun, rfl⟩
    rw [hRun]
    exact ⟨(), rfl, (), rfl, rfl⟩

theorem isBlock_of_mem_flatten {parts : List (List (List Token))}
    (hBlocks : ∀ blocks ∈ parts, ∀ b ∈ blocks, IsBlock b) : ∀ b ∈ parts.flatten, IsBlock b := by
  intro b hb
  obtain ⟨blocks, hPart, hb⟩ := List.mem_flatten.1 hb
  exact hBlocks blocks hPart b hb

/-- Announcing one file after the other is announcing what they hold together. -/
theorem foldl_announceTokens {parts : List (List (List Token))}
    (hBlocks : ∀ blocks ∈ parts, ∀ b ∈ blocks, IsBlock b) (model : Model) :
    (parts.map List.flatten).foldl Reader.announceTokens model =
      Reader.announceTokens model parts.flatten.flatten := by
  rw [Printer.announceTokens_eq, announcedNames_flatten (isBlock_of_mem_flatten hBlocks)]
  induction parts generalizing model with
  | nil => rfl
  | cons blocks parts ih =>
    obtain ⟨hFirst, hOthers⟩ := List.forall_mem_cons.1 hBlocks
    rw [List.map_cons, List.foldl_cons, ih hOthers, Printer.announceTokens_eq,
      announcedNames_flatten hFirst, List.flatten_cons, List.flatMap_append, List.foldl_append]

/-- Files that consist of blocks are read like one source with all their blocks. -/
theorem loadDirectory_blocks_iff {parts : List (List (List Token))} {model : Model}
    (hTree : tree.Distinct) (hFiles : schemaFiles tree directory recursive = .ok files)
    (hTokens : List.Forall₂ (Reader.Delivers tree) files (parts.map List.flatten))
    (hBlocks : ∀ blocks ∈ parts, ∀ b ∈ blocks, IsBlock b) :
    loadDirectory tree directory recursive = .ok model ↔
      readTokens parts.flatten.flatten = .ok model := by
  have hAll := isBlock_of_mem_flatten hBlocks
  have hEmpty : Model.Ascending {} := List.Pairwise.nil
  have hAscending := hEmpty.announceTokens parts.flatten.flatten
  have hNames : ∀ blocks ∈ parts, ∀ n ∈ Printer.announcedNames blocks.flatten,
      (Reader.announceTokens {} parts.flatten.flatten).isTypeName n := by
    intro blocks hPart n hn
    rw [announcedNames_flatten (hBlocks blocks hPart)] at hn
    obtain ⟨b, hb, hn⟩ := List.mem_flatMap.1 hn
    apply isTypeName_announceTokens
    rw [announcedNames_flatten hAll]
    exact List.mem_flatMap.2 ⟨b, List.mem_flatten.2 ⟨blocks, hPart, hb⟩, hn⟩
  rw [loadDirectory_eq_ok_iff hFiles hTokens, foldl_announceTokens hBlocks,
    Reader.forEach_readPath_iff hTokens hBlocks ⟨schemaFiles_pairwise hTree hFiles, by simp⟩
      hAscending hNames, readTokens_blocks_iff hAll]

theorem exists_parts
    (h : ∀ ts ∈ tss, ∃ blocks : List (List Token), ts = blocks.flatten ∧ ∀ b ∈ blocks, IsBlock b) :
    ∃ parts : List (List (List Token)), tss = parts.map List.flatten ∧
      ∀ blocks ∈ parts, ∀ b ∈ blocks, IsBlock b := by
  induction tss with
  | nil => exact ⟨[], rfl, by simp⟩
  | cons ts tss ih =>
    obtain ⟨⟨blocks, rfl, hBlocks⟩, hOthers⟩ := List.forall_mem_cons.1 h
    obtain ⟨parts, rfl, hParts⟩ := ih hOthers
    exact ⟨blocks :: parts, rfl, List.forall_mem_cons.2 ⟨hBlocks, hParts⟩⟩

/-- Splitting a schema over files does not change it. The tokens `us` are those of all files one
after the other, wherever they stand. What a directory without inclusions declares, they declare as
one source; and if each file is a sequence of complete declarations, what they declare as one
source, the directory declares. -/
theorem loadDirectory_sameSchema (hTree : tree.Distinct)
    (hFiles : schemaFiles tree directory recursive = .ok files)
    (hTokens : List.Forall₂ (Reader.Delivers tree) files tss) (hText : SameText tss.flatten us) :
    ((∀ ts ∈ tss, ¬ Reader.HasDirective ts) →
      ∀ model, loadDirectory tree directory recursive = .ok model →
        ∃ model', readTokens us = .ok model' ∧ model.SameSchema model') ∧
    ((∀ ts ∈ tss, ∃ blocks : List (List Token), ts = blocks.flatten ∧ ∀ b ∈ blocks, IsBlock b) →
      ∀ model', readTokens us = .ok model' →
        ∃ model, loadDirectory tree directory recursive = .ok model ∧ model.SameSchema model') := by
  constructor
  · -- A successful reading shows that the files consist of blocks, so nothing is assumed of them.
    intro hInclude model hModel
    obtain ⟨r, hRead, _⟩ := (loadDirectory_eq_ok_iff hFiles hTokens).1 hModel
    have hUnread : Reader.Unread tree { model := tss.foldl Reader.announceTokens {} } files :=
      ⟨schemaFiles_pairwise hTree hFiles, by simp⟩
    obtain ⟨parts, rfl, hBlocks⟩ :=
      exists_parts (Reader.exists_blocks_of_forEach hTokens hUnread hInclude hRead)
    rw [← List.flatten_flatten] at hText
    exact readTokens_congr (isBlock_of_mem_flatten hBlocks) hText
      ((loadDirectory_blocks_iff hTree hFiles hTokens hBlocks).1 hModel)
  · intro hParts model' hModel'
    obtain ⟨parts, rfl, hBlocks⟩ := exists_parts hParts
    rw [← List.flatten_flatten] at hText
    -- The blocks of the source go back to the places that they have in the files.
    obtain ⟨blocks', rfl, _, hBlocks'⟩ := hText.exists_blocks (isBlock_of_mem_flatten hBlocks)
    obtain ⟨model, hModel, hSame⟩ := readTokens_congr hBlocks' hText.symm hModel'
    exact ⟨model, (loadDirectory_blocks_iff hTree hFiles hTokens hBlocks).2 hModel, hSame.symm⟩

end

/-- A struct in one file, and in a directory below it the enum that it uses. -/
def splitTree : FileTree where
  entries :=
    [(["d"], .directory), (["d", "a.schema"], .file (.text "struct A \x7b B: b; \x7d")),
      (["d", "sub"], .directory),
      (["d", "sub", "b.schema"], .file (.text "enum B \x7b V \x7d"))]

theorem schemaFiles_splitTree :
    schemaFiles splitTree ⟨"d"⟩ true = .ok [⟨"d/a.schema"⟩, ⟨"d/sub/b.schema"⟩] := by
  -- The names in a directory are in ascending order, so there is nothing to sort.
  have hOuter : splitTree.children ["d"] = ["a.schema", "sub"] :=
    List.mergeSort_of_pairwise (l := ["a.schema", "sub"]) (by decide +kernel)
  have hInner : splitTree.children ["d", "sub"] = ["b.schema"] :=
    List.mergeSort_singleton "b.schema"
  have hDirectory : splitTree.entry? ["d"] = some .directory := by decide +kernel
  have hSub : splitTree.entry? ["d", "sub"] = some .directory := by decide +kernel
  have hStruct : splitTree.entry? ["d", "a.schema"] =
      some (.file (.text "struct A \x7b B: b; \x7d")) := by decide +kernel
  have hEnum : splitTree.entry? ["d", "sub", "b.schema"] =
      some (.file (.text "enum B \x7b V \x7d")) := by decide +kernel
  have hFiles : splitTree.filesWithin 3 ["d"] ⟨"d"⟩ =
      [(⟨"d/a.schema"⟩, .text "struct A \x7b B: b; \x7d"),
        (⟨"d/sub/b.schema"⟩, .text "enum B \x7b V \x7d")] := by
    simp only [FileTree.filesWithin, hDirectory, hOuter, hSub, hInner, hStruct, hEnum,
      List.flatMap_cons, List.flatMap_nil, List.cons_append, List.nil_append]
    decide +kernel
  have hLocate : splitTree.locate ⟨"d"⟩ = .ok ["d"] := by decide +kernel
  have hHeight : splitTree.height = 3 := by decide +kernel
  unfold schemaFiles
  simp only [hLocate, hHeight, if_true, hFiles]
  decide +kernel

/-- The same tokens in a file. -/
def inFile (file : String) (ts : List Token) : List Token :=
  ts.map fun t => { t with position := { t.position with file := file } }

/-- The tokens of the files of `splitTree`. -/
def splitTokens : List (List Token) :=
  [inFile "d/a.schema" (holderBlock 1), inFile "d/sub/b.schema" (heldBlock 1)]

theorem splitTokens_delivered :
    List.Forall₂ (Reader.Delivers splitTree) [⟨"d/a.schema"⟩, ⟨"d/sub/b.schema"⟩] splitTokens :=
  .cons ⟨"struct A \x7b B: b; \x7d", by decide +kernel, by decide +kernel⟩
    (.cons ⟨"enum B \x7b V \x7d", by decide +kernel, by decide +kernel⟩ .nil)

theorem splitTokens_blocks :
    ∀ ts ∈ splitTokens,
      ∃ blocks : List (List Token), ts = blocks.flatten ∧ ∀ b ∈ blocks, IsBlock b := by
  have hHolder : IsBlock (inFile "d/a.schema" (holderBlock 1)) :=
    (isBlock_holderBlock 1).congr (by decide)
  have hHeld : IsBlock (inFile "d/sub/b.schema" (heldBlock 1)) :=
    (isBlock_heldBlock 1).congr (by decide)
  intro ts hts
  refine ⟨[ts], by simp, ?_⟩
  rcases List.mem_pair.1 hts with rfl | rfl
  · simpa using hHolder
  · simpa using hHeld

theorem splitTokens_not_hasDirective : ∀ ts ∈ splitTokens, ¬ Reader.HasDirective ts := by
  have hWords : ∀ ts ∈ splitTokens, ∀ t ∈ ts, t.is "include" = false := by decide
  rintro ts hts ⟨blocks, t, rest, _, rfl, ht⟩
  rw [hWords _ hts t (by simp)] at ht
  cases ht

/-- The enum that a struct uses is in another file, which is read after that of the struct. -/
theorem splitTree_sameSchema :
    splitTree.Distinct ∧ (∃ model, loadDirectory splitTree ⟨"d"⟩ true = .ok model) ∧
    ∀ model, loadDirectory splitTree ⟨"d"⟩ true = .ok model →
      ∃ model', readModel "struct A \x7b B: b; \x7d enum B \x7b V \x7d" = .ok model' ∧
        model.SameSchema model' := by
  have hTree : splitTree.Distinct := by decide +kernel
  have hText : SameText splitTokens.flatten [holderBlock 1, heldBlock 20].flatten := by decide
  have hSource : readModel "struct A \x7b B: b; \x7d enum B \x7b V \x7d" =
      readTokens [holderBlock 1, heldBlock 20].flatten :=
    readModel_eq_readTokens (by decide +kernel)
  obtain ⟨hSplit, hJoined⟩ :=
    loadDirectory_sameSchema hTree schemaFiles_splitTree splitTokens_delivered hText
  rw [hSource]
  refine ⟨hTree, ?_, hSplit splitTokens_not_hasDirective⟩
  have hOk : (readTokens [holderBlock 1, heldBlock 20].flatten).isOk := by decide +kernel
  cases hModel' : readTokens [holderBlock 1, heldBlock 20].flatten with
  | error e =>
    rw [hModel'] at hOk
    cases hOk
  | ok model' =>
    obtain ⟨model, hModel, _⟩ := hJoined splitTokens_blocks model' hModel'
    exact ⟨model, hModel⟩

end EntitySchema
