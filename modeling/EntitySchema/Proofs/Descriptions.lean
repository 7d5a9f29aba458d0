import EntitySchema.Proofs.Capabilities
import EntitySchema.Proofs.Position
import Mathlib.Data.List.Perm.Basic

/-!
Descriptions of members are for readers, and stand in comments of what is emitted. The main result
compares two runs on models that differ in descriptions only. The files of SQL have the same lines
outside of comments, since line breaks in a description become blanks there. The modules of structs
take descriptions as they are: they have the same lines outside of comments exactly if every line of
a description, but for the first, is a comment by itself.
-/

namespace EntitySchema

/-! ## Lines and comments -/

/-- The lines of a text that are no comments, in their order. -/
def codeLines (marker text : String) : List String :=
  (Text.lines text).filter (fun line => !isComment marker line.toList)

/-- The lines of a text, but for the first, that are no comments. -/
def strayLines (marker text : String) : List String :=
  (Text.lines text).tail.filter (fun line => !isComment marker line.toList)

section Lines

variable {marker a a' b b' : String}

theorem codeLines_append (marker above below : String) :
    codeLines marker (above ++ ("\n" ++ below)) =
      codeLines marker above ++ codeLines marker below := by
  rw [codeLines, Text.lines_append, List.filter_append]
  rfl

theorem codeLines_unlines (marker : String) (ls : List String) :
    codeLines marker (Text.unlines ls) =
      ls.flatMap (codeLines marker) ++ codeLines marker "" := by
  rw [codeLines, Text.lines_unlines, List.filter_append, List.filter_flatMap]
  rfl

/-- Behind the opening of a comment, what strays from a text are its later lines. -/
theorem codeLines_behind {opening : String} (hLine : '\n' ∉ opening.toList)
    (hComment : ∀ rest, isComment marker (opening.toList ++ rest) = true) (text : String) :
    codeLines marker (opening ++ text) = strayLines marker text := by
  unfold codeLines strayLines
  rw [Text.lines_append_of_not_mem hLine]
  cases hText : Text.lines text with
  | nil => exact absurd hText (Text.lines_ne_nil text)
  | cons first rest =>
    rw [List.modifyHead_cons, List.filter_cons_of_neg (by simp [hComment]), List.tail_cons]

theorem strayLines_of_noBreak {text : String} (h : '\n' ∉ text.toList) :
    strayLines marker text = [] := by
  rw [strayLines, Text.lines_of_not_mem h]
  rfl

/-- At the start of a line the texts stand for each other, whatever follows. -/
def Interchangeable (marker a b : String) : Prop :=
  ∀ rest, codeLines marker (a ++ rest) = codeLines marker (b ++ rest)

theorem Interchangeable.refl (marker a : String) : Interchangeable marker a a :=
  fun _ => rfl

theorem Interchangeable.codeLines_eq (h : Interchangeable marker a b) :
    codeLines marker a = codeLines marker b := by
  simpa using h ""

theorem Interchangeable.append_right (h : Interchangeable marker a b) (text : String) :
    Interchangeable marker (a ++ text) (b ++ text) := by
  intro rest
  rw [String.append_assoc, String.append_assoc, h]

/-- Texts may be changed line by line. -/
theorem Interchangeable.append (h : Interchangeable marker a b)
    (h' : Interchangeable marker a' b') :
    Interchangeable marker (a ++ ("\n" ++ a')) (b ++ ("\n" ++ b')) := by
  intro rest
  simp only [String.append_assoc]
  rw [codeLines_append, codeLines_append, h.codeLines_eq, h']

theorem interchangeable_intercalate {as bs : List String}
    (h : List.Forall₂ (Interchangeable marker) as bs) :
    Interchangeable marker (",\n".intercalate as) (",\n".intercalate bs) := by
  have hLine : ∀ text rest : String, text ++ ",\n" ++ rest = text ++ "," ++ ("\n" ++ rest) := by
    intro text rest
    have hComma : ",\n" = "," ++ "\n" := by decide
    rw [hComma]
    simp only [String.append_assoc]
  induction h with
  | nil => exact .refl _ _
  | @cons a b as bs hFirst hRest ih =>
    -- A comma ends the line of an entry only if another one follows.
    cases hRest with
    | nil => simpa using hFirst
    | cons _ _ =>
      rw [String.intercalate_cons_cons, String.intercalate_cons_cons, hLine, hLine]
      exact (hFirst.append_right ",").append ih

end Lines

/-! ## Entities without descriptions -/

def Member.undescribed (m : Member) : Member :=
  { m with description := none, position := none }

def Struct.undescribed (s : Struct) : Struct :=
  { s with members := s.members.map Member.undescribed, position := none }

/-- The model without descriptions, and without the positions that they shift. -/
def Model.undescribed (model : Model) : Model :=
  { model with
    structs := model.structs.map Struct.undescribed
    enums := model.enums.map Enumeration.unplaced }

section Entities

variable {model : Model} {s : Struct} {m : Member}

@[simp] theorem Struct.name_undescribed (s : Struct) : s.undescribed.name = s.name := rfl

theorem Struct.name_of_undescribed {s' : Struct} (h : s'.undescribed = s.undescribed) :
    s'.name = s.name := by
  rw [← s'.name_undescribed, h, s.name_undescribed]

theorem Struct.hasMember_undescribed (s : Struct) : s.undescribed.hasMember = s.hasMember := by
  funext n
  simp [Struct.hasMember, Struct.undescribed, Member.undescribed, Function.comp_def]

theorem Model.structNames_undescribed : model.undescribed.structNames = model.structNames := by
  simp [Model.structNames, Model.undescribed, Function.comp_def]

theorem Model.hasStruct_undescribed : model.undescribed.hasStruct = model.hasStruct := by
  funext n
  simp [Model.hasStruct, Model.undescribed, Function.comp_def]

theorem Model.hasEnum_undescribed : model.undescribed.hasEnum = model.hasEnum := by
  funext n
  simp [Model.hasEnum, Model.undescribed, Function.comp_def]

theorem Model.struct?_undescribed (model : Model) (n : String) :
    model.undescribed.struct? n = (model.struct? n).map Struct.undescribed := by
  simp only [Model.struct?, Model.undescribed, List.find?_map]
  rfl

theorem Model.enum?_undescribed (model : Model) (n : String) :
    model.undescribed.enum? n = (model.enum? n).map Enumeration.unplaced := by
  simp only [Model.enum?, Model.undescribed, List.find?_map]
  rfl

/-! ## Composition -/

theorem Struct.undescribed_addMember (s : Struct) (hm : m.undescribed = m) :
    (s.addMember m).undescribed = s.undescribed.addMember m := by
  rw [addMember_eq, addMember_eq, hasMember_undescribed, apply_ite Struct.undescribed]
  congr 1
  simp [Struct.undescribed, hm]

theorem Struct.undescribed_addOperations (fs : List Operation) (s : Struct) :
    (fs.foldl Struct.addOperation s).undescribed =
      fs.foldl Struct.addOperation s.undescribed := by
  induction fs generalizing s with
  | nil => rfl
  | cons f fs ih =>
    rw [List.foldl_cons, ih, List.foldl_cons, addOperation_eq, addOperation_eq,
      apply_ite Struct.undescribed]
    rfl

theorem Struct.undescribed_implement (s : Struct) (c : CapabilityMark) :
    (s.implement c).undescribed = s.undescribed.implement c := by
  rw [implement_eq, implement_eq, apply_ite Struct.undescribed]
  rfl

theorem Struct.undescribed_addHook (s : Struct) (h : Hook) :
    (s.addHook h).undescribed = s.undescribed.addHook h := by
  rw [addHook_eq, addHook_eq, apply_ite Struct.undescribed]
  rfl

theorem Struct.undescribed_addRequirement (s : Struct) (r : Requirement) :
    (s.addRequirement r).undescribed = s.undescribed.addRequirement r := by
  rw [addRequirement_eq, addRequirement_eq, apply_ite Struct.undescribed]
  rfl

theorem Struct.undescribed_makeStored (s : Struct) :
    (Sql.makeStored s).undescribed = Sql.makeStored s.undescribed := by
  rw [Sql.makeStored, undescribed_addRequirement, undescribed_addHook, undescribed_addOperations,
    Sql.makeStored]

theorem Model.undescribed_updateStruct {change : Struct → Struct}
    (h : ∀ s, (change s).undescribed = change s.undescribed) (model : Model) (n : String) :
    (model.updateStruct n change).undescribed = model.undescribed.updateStruct n change := by
  have go : ∀ ss : List Struct, (updateStruct.go n change ss).map Struct.undescribed =
      updateStruct.go n change (ss.map Struct.undescribed) := by
    intro ss
    induction ss with
    | nil => rfl
    | cons s ss ih =>
      by_cases hs : s.name = n
      · simp [updateStruct.go, hs, h]
      · simp [updateStruct.go, hs, ih]
  simp only [undescribed, updateStruct, go]

theorem Sql.undescribed_linkElements (holder : String) (elements : List String) (model : Model) :
    (linkElements holder model elements).undescribed =
      linkElements holder model.undescribed elements := by
  induction elements generalizing model with
  | nil => rfl
  | cons e elements ih =>
    refine (ih _).trans ?_
    rw [Model.undescribed_updateStruct (fun s => s.undescribed_addMember rfl)]
    rfl

theorem Sql.elementsIn_undescribed (model : Model) (n : String) :
    elementsIn model.undescribed n = elementsIn model n := by
  unfold elementsIn
  rw [Model.struct?_undescribed]
  cases model.struct? n with
  | none => rfl
  | some s => simp [elementNames, Struct.undescribed, List.filterMap_map, Member.undescribed,
      Function.comp_def]

namespace Builtin

theorem undescribed_contribute (b : Builtin) (model : Model) (n : String) :
    (b.contribute model n).undescribed = b.contribute model.undescribed n := by
  cases b with
  | sql o =>
    simp only [contribute, Sql.undescribed_linkElements,
      ← Model.undescribed_updateStruct Struct.undescribed_makeStored, Sql.elementsIn_undescribed]
  | jsonSchema => exact Model.undescribed_updateStruct (Struct.undescribed_addOperations _) model n
  | rust => rfl

theorem undescribed_contributeAll (b : Builtin) (names : List String) (model : Model) :
    (b.contributeAll names model).undescribed = b.contributeAll names model.undescribed := by
  induction names generalizing model with
  | nil => rfl
  | cons n names ih =>
    refine (ih _).trans ?_
    rw [undescribed_contribute]
    rfl

theorem undescribed_marked (registry : Registry) (s : Struct) :
    (marked registry s).undescribed = marked registry s.undescribed := by
  have go : ∀ (cs : List Capability) (s : Struct),
      (cs.foldl (fun s c => s.implement c.mark) s).undescribed =
        cs.foldl (fun s c => s.implement c.mark) s.undescribed := by
    intro cs
    induction cs with
    | nil => exact fun _ => rfl
    | cons c cs ih =>
      intro s
      rw [List.foldl_cons, ih, Struct.undescribed_implement, List.foldl_cons]
  exact go registry.capabilities s

/-- Composition does not look at descriptions, and adds none. -/
theorem undescribed_composed (bs : List Builtin) (model : Model) :
    (composed bs model).undescribed = composed bs model.undescribed := by
  have run : ∀ (bs : List Builtin) (names : List String) (model : Model),
      (bs.foldl (fun m b => b.contributeAll names m) model).undescribed =
        bs.foldl (fun m b => b.contributeAll names m) model.undescribed := by
    intro bs names
    induction bs with
    | nil => exact fun _ => rfl
    | cons b bs ih =>
      intro model
      rw [List.foldl_cons, ih, undescribed_contributeAll, List.foldl_cons]
  rw [composed, run, composed, Model.structNames_undescribed]
  congr 1
  simp [Model.undescribed, undescribed_marked, Function.comp_def]

theorem undescribed_composed_eq (bs : List Builtin) {model model' : Model}
    (h : model'.undescribed = model.undescribed) :
    (composed bs model').undescribed = (composed bs model).undescribed := by
  rw [undescribed_composed, undescribed_composed, h]

end Builtin

end Entities

/-! ## Files of SQL -/

/-- The path of a file, and its lines outside of comments. -/
def Artifact.outline (marker : String) (a : Artifact) : Path × List String :=
  (a.path, codeLines marker a.contents)

namespace Sql

variable {model : Model} {s : Struct} {m : Member} {d : Dialect}

def Column.undescribed (c : Column) : Column :=
  { c with description := none }

def Table.undescribed (t : Table) : Table :=
  { t with columns := t.columns.map Column.undescribed }

/-- A description is one comment line, since its line breaks become blanks. -/
theorem interchangeable_description (description : Option String) :
    Interchangeable "--" (Column.renderDescription description) "" := by
  intro rest
  cases description with
  | none => rfl
  | some text =>
    have hOne : '\n' ∉
        (String.ofList (text.toList.map (fun c => if c = '\n' then ' ' else c))).toList := by
      simp only [String.toList_ofList, List.mem_map, not_exists, not_and]
      intro c _
      split <;> simp_all
    rw [Column.renderDescription, String.append_assoc, codeLines_append,
      codeLines_behind (by decide) (fun _ => rfl), strayLines_of_noBreak hOne, List.nil_append,
      String.empty_append]

theorem interchangeable_column (c : Column) :
    Interchangeable "--" (c.render d) (c.undescribed.render d) :=
  ((((interchangeable_description c.description).append_right _).append_right _).append_right
    _).append_right _

theorem render_lines (d : Dialect) (t : Table) (rest : String) : t.render d ++ rest =
    "CREATE TABLE IF NOT EXISTS " ++ d.quote t.name ++ " (" ++ ("\n" ++
      (",\n".intercalate (t.columns.map (Column.render d) ++
        t.columns.filterMap (Column.renderLink d)) ++ ("\n" ++ (");" ++ ("\n" ++ rest))))) := by
  have hRender : t.render d = "CREATE TABLE IF NOT EXISTS " ++ d.quote t.name ++ " (\n" ++
      ",\n".intercalate (t.columns.map (Column.render d) ++
        t.columns.filterMap (Column.renderLink d)) ++ "\n);\n" := rfl
  have hOpen : " (\n" = " (" ++ "\n" := by decide
  have hClose : "\n);\n" = "\n" ++ (");" ++ "\n") := by decide
  rw [hRender, hOpen, hClose]
  simp only [String.append_assoc]

theorem interchangeable_table {a b : String} (t : Table) (h : Interchangeable "--" a b) :
    Interchangeable "--" (t.render d ++ a) (t.undescribed.render d ++ b) := by
  have hEntries : List.Forall₂ (Interchangeable "--")
      (t.columns.map (Column.render d) ++ t.columns.filterMap (Column.renderLink d))
      (t.undescribed.columns.map (Column.render d) ++
        t.undescribed.columns.filterMap (Column.renderLink d)) := by
    have hLinks : t.undescribed.columns.filterMap (Column.renderLink d) =
        t.columns.filterMap (Column.renderLink d) := by
      rw [Table.undescribed, List.filterMap_map]
      rfl
    rw [hLinks]
    refine List.rel_append ?_ (List.forall₂_same.2 (fun _ _ => .refl _ _))
    rw [Table.undescribed, List.map_map, List.forall₂_map_left_iff, List.forall₂_map_right_iff,
      List.forall₂_same]
    exact fun c _ => interchangeable_column c
  rw [render_lines, render_lines]
  exact (Interchangeable.refl _ _).append ((interchangeable_intercalate hEntries).append
    ((Interchangeable.refl _ _).append h))

theorem interchangeable_tables (ts : List Table) :
    Interchangeable "--" (String.join (ts.map (fun t => "\n" ++ t.render d)))
      (String.join ((ts.map Table.undescribed).map (fun t => "\n" ++ t.render d))) := by
  induction ts with
  | nil => exact .refl _ _
  | cons t ts ih =>
    have hNext := (Interchangeable.refl "--" "").append (interchangeable_table (d := d) t ih)
    simpa only [List.map_cons, String.join_cons, String.append_assoc, String.empty_append]
      using hNext

/-! ### From the model -/

theorem isStored_undescribed (m : Member) :
    isStored model.undescribed m.undescribed = isStored model m := by
  simp [isStored, Model.hasStruct_undescribed, Member.undescribed]

theorem storedMembers_undescribed :
    storedMembers model.undescribed s.undescribed =
      (storedMembers model s).map Member.undescribed := by
  simp only [storedMembers, Struct.undescribed, List.filter_map, Function.comp_def,
    isStored_undescribed]

theorem valueMembers_undescribed :
    valueMembers model.undescribed s.undescribed =
      (valueMembers model s).map Member.undescribed := by
  rw [valueMembers, storedMembers_undescribed, List.filter_map, valueMembers]
  rfl

theorem storedNames_undescribed :
    storedNames model.undescribed s.undescribed = storedNames model s := by
  rw [storedNames, storedMembers_undescribed, List.map_map, storedNames]
  rfl

theorem valueNames_undescribed :
    valueNames model.undescribed s.undescribed = valueNames model s := by
  rw [valueNames, valueMembers_undescribed, List.map_map, valueNames]
  rfl

/-- Columns are told from the values of enums. -/
theorem columnOfMember_undescribed (m : Member) :
    Column.ofMember model.undescribed m.undescribed = (Column.ofMember model m).undescribed := by
  have hType : columnTypeOf model.undescribed m.type = columnTypeOf model m.type := by
    cases m.type with
    | named n =>
      simp only [columnTypeOf, Model.enum?_undescribed]
      cases model.enum? n <;> rfl
    | scalar _ => rfl
    | array _ => rfl
  have hInitial : initialValue model.undescribed m.type = initialValue model m.type := by
    funext text
    cases m.type with
    | named n =>
      simp only [initialValue, Model.enum?_undescribed]
      cases model.enum? n <;> rfl
    | scalar _ => rfl
    | array _ => rfl
  have hTarget : targetOf model.undescribed m.undescribed = targetOf model m := by
    simp only [targetOf, Model.hasEnum_undescribed]
    rfl
  unfold Column.ofMember
  rw [apply_ite Column.undescribed]
  simp only [Member.undescribed] at hTarget ⊢
  simp only [hType, hInitial, hTarget]
  rfl

theorem tableOfStruct_undescribed :
    Table.ofStruct model.undescribed s.undescribed = (Table.ofStruct model s).undescribed := by
  simp only [Table.ofStruct, storedMembers_undescribed, Table.undescribed, List.map_map,
    Function.comp_def, columnOfMember_undescribed]
  rfl

theorem statement?_undescribed :
    statement? model.undescribed s.undescribed = statement? model s := by
  funext role
  cases role <;> simp [statement?, valueNames_undescribed, storedNames_undescribed]

theorem structFile_lines (d : Dialect) (model : Model) (s : Struct) : structFile d model s =
    header ++ String.join (s.requirements.map (fun r => "-- requires: " ++ r.path ++ "\n")) ++
      ("\n" ++ ((Table.ofStruct model s).render d ++
        String.join (s.operations.filterMap (renderOperation d model s)))) := by
  unfold structFile
  simp only [String.append_assoc]

theorem codeLines_structFile : codeLines "--" (structFile d model s) =
    codeLines "--" (structFile d model.undescribed s.undescribed) := by
  have hOperation : renderOperation d model.undescribed s.undescribed =
      renderOperation d model s := by
    funext f
    rw [renderOperation, statement?_undescribed, renderOperation]
  rw [structFile_lines, structFile_lines, hOperation, tableOfStruct_undescribed]
  exact ((Interchangeable.refl _ _).append (interchangeable_table _ (.refl _ _))).codeLines_eq

theorem queryFile_undescribed :
    queryFile d model.undescribed s.undescribed = queryFile d model s := by
  simp only [queryFile, queries, valueMembers_undescribed, valueNames_undescribed,
    storedNames_undescribed, List.length_map, Struct.name_undescribed]

theorem outline_structArtifacts (o : Options) :
    (structArtifacts o model s).map (List.map (Artifact.outline "--")) =
      (structArtifacts o model.undescribed s.undescribed).map
        (List.map (Artifact.outline "--")) := by
  have hOwn : Artifact.outline "--" ⟨⟨s.name ++ ".sql"⟩, structFile o.dialect model s⟩ =
      Artifact.outline "--"
        ⟨⟨s.name ++ ".sql"⟩, structFile o.dialect model.undescribed s.undescribed⟩ := by
    rw [Artifact.outline, Artifact.outline, codeLines_structFile]
  simp only [structArtifacts, queryFile_undescribed, valueMembers_undescribed, List.isEmpty_map,
    Struct.name_undescribed]
  split
  · cases queryFile o.dialect model s with
    | error e => simp only [bind, Except.bind, Except.map]
    | ok text => simp only [bind, Except.bind, Except.map, List.map_cons, hOwn]
  · simp only [Except.map, List.map_cons, hOwn]

theorem ofModel_undescribed :
    StructGraph.ofModel model.undescribed = StructGraph.ofModel model := by
  have hEdge : ∀ (s : Struct) (m : Member),
      StructGraph.edgeOf? model.undescribed s.undescribed m.undescribed =
        StructGraph.edgeOf? model s m := by
    intro s m
    simp only [StructGraph.edgeOf?, Model.hasStruct_undescribed]
    rfl
  have hEdges : model.undescribed.structs.flatMap (fun s =>
        s.members.filterMap (StructGraph.edgeOf? model.undescribed s)) =
      model.structs.flatMap (fun s => s.members.filterMap (StructGraph.edgeOf? model s)) := by
    rw [Model.undescribed, List.flatMap_map]
    refine List.flatMap_congr ?_
    intro s _
    rw [Struct.undescribed, List.filterMap_map]
    exact List.filterMap_congr (fun m _ => hEdge s m)
  rw [StructGraph.ofModel, Model.structNames_undescribed, hEdges, StructGraph.ofModel]

theorem orderedStructs_undescribed :
    orderedStructs model.undescribed = (orderedStructs model).map Struct.undescribed := by
  simp only [orderedStructs, ofModel_undescribed, List.map_filterMap]
  congr 1
  funext n
  exact model.struct?_undescribed n

theorem tables_undescribed : tables model.undescribed = (tables model).map Table.undescribed := by
  simp only [tables, orderedStructs_undescribed, List.map_map, Function.comp_def,
    tableOfStruct_undescribed]

theorem codeLines_schemaText (d : Dialect) (ts : List Table) :
    codeLines "--" (schemaText d ts) =
      codeLines "--" (schemaText d (ts.map Table.undescribed)) := by
  have hLines : ∀ ts, schemaText d ts = header ++ "-- dialect: " ++ d.name ++
      ("\n" ++ String.join (ts.map (fun t => "\n" ++ t.render d))) := by
    intro ts
    unfold schemaText
    simp only [String.append_assoc]
  rw [hLines, hLines]
  exact ((Interchangeable.refl _ _).append (interchangeable_tables ts)).codeLines_eq

/-- Without their comments, the files are told from the model without descriptions. -/
theorem outline_emit (o : Options) (model : Model) :
    (emit o model).map (List.map (Artifact.outline "--")) =
      (emit o model.undescribed).map (List.map (Artifact.outline "--")) := by
  have hParts : ∀ model, (emit o model).map (List.map (Artifact.outline "--")) =
      (((orderedStructs model).mapM (structArtifacts o model)).map
        (fun parts => parts.flatten.map (Artifact.outline "--"))).map
          (· ++ [Artifact.outline "--" ⟨schemaFile, schemaText o.dialect (tables model)⟩]) := by
    intro model
    unfold emit
    cases (orderedStructs model).mapM (structArtifacts o model) with
    | error e => rfl
    | ok parts => simp [bind, Except.bind, Except.map]
  have hStructs : List.Forall₂ (fun s s' =>
      (structArtifacts o model s).map (List.map (Artifact.outline "--")) =
        (structArtifacts o model.undescribed s').map (List.map (Artifact.outline "--")))
      (orderedStructs model) (orderedStructs model.undescribed) := by
    rw [orderedStructs_undescribed, List.forall₂_map_right_iff, List.forall₂_same]
    exact fun s _ => outline_structArtifacts o
  have hTables : Artifact.outline "--" ⟨schemaFile, schemaText o.dialect (tables model)⟩ =
      Artifact.outline "--" ⟨schemaFile, schemaText o.dialect (tables model.undescribed)⟩ := by
    rw [Artifact.outline, Artifact.outline, tables_undescribed, codeLines_schemaText]
  rw [hParts, hParts, map_mapM_congr hStructs, hTables]

end Sql

/-! ## Modules of structs -/

namespace Rust

theorem strayLines_eq_nil_iff {text : String} : strayLines "///" text = [] ↔ FitsComment text := by
  simp [strayLines, FitsComment]

/-- The lines that leave the comment of a description. -/
def straysOf : Option String → List String
  | some text => strayLines "///" text
  | none => []

theorem straysOf_eq_nil_iff {description : Option String} :
    straysOf description = [] ↔ ∀ text ∈ description, FitsComment text := by
  cases description with
  | none => simp [straysOf]
  | some text => simp [straysOf, strayLines_eq_nil_iff]

def Field.undescribed (f : Field) : Field :=
  { f with description := none }

def StructModule.undescribed (s : StructModule) : StructModule :=
  { s with fields := s.fields.map Field.undescribed }

theorem codeLines_field (f : Field) : f.lines.flatMap (codeLines "///") =
    straysOf f.description ++ codeLines "///" f.line := by
  rw [Field.lines, List.flatMap_append, List.flatMap_singleton]
  cases f.description with
  | none => rfl
  | some text =>
    rw [descriptionLines, List.flatMap_singleton, codeLines_behind (by decide) (fun _ => rfl)]
    rfl

/-- Descriptions stand in front of the fields and nowhere else. -/
theorem codeLines_render (s : StructModule) : ∃ front back, ∀ fs : List Field,
    codeLines "///" { s with fields := fs }.render =
      front ++ (fs.flatMap (fun f => straysOf f.description ++ codeLines "///" f.line) ++ back) := by
  refine ⟨s.linesAbove.flatMap (codeLines "///"),
    s.linesBelow.flatMap (codeLines "///") ++ codeLines "///" "", ?_⟩
  intro fs
  rw [StructModule.render_eq, codeLines_unlines, StructModule.lines]
  simp only [List.flatMap_append, List.flatMap_assoc, codeLines_field, List.append_assoc]
  rfl

/-- Beside a module whose descriptions stay in their comments, another one that differs in
descriptions only has the same lines exactly if its own stay there too. -/
theorem codeLines_render_eq_iff {s s' : StructModule} (hSame : s'.undescribed = s.undescribed)
    (hFits : ∀ f ∈ s.fields, straysOf f.description = []) :
    codeLines "///" s'.render = codeLines "///" s.render ↔
      ∀ f ∈ s'.fields, straysOf f.description = [] := by
  obtain ⟨front, back, hRender⟩ := codeLines_render s
  have hOther : s' = { s with fields := s'.fields } := by
    simp only [StructModule.undescribed, StructModule.mk.injEq] at hSame
    obtain ⟨hName, hRequirements, -, hAccessors, hOperations, hImplementations⟩ := hSame
    rw [← hName, ← hRequirements, ← hAccessors, ← hOperations, ← hImplementations]
  -- The fields have the same lines, since those are without descriptions.
  have hLines : s.fields.flatMap (fun f => codeLines "///" f.line) =
      s'.fields.flatMap (fun f => codeLines "///" f.line) := by
    have hFields : s'.fields.map Field.undescribed = s.fields.map Field.undescribed :=
      congrArg StructModule.fields hSame
    have hShown := congrArg (List.flatMap (fun f => codeLines "///" f.line)) hFields
    rw [List.flatMap_map, List.flatMap_map] at hShown
    exact hShown.symm
  rw [hOther, hRender, hRender s.fields, List.append_cancel_left_eq, List.append_cancel_right_eq,
    flatMap_append_eq_iff.2 hFits, hLines]
  -- Only stray lines come on top of these, so there are none if nothing is different.
  exact flatMap_append_eq_iff

section Modules

variable {registry : Registry} {model : Model} {s : Struct}

theorem fieldType_undescribed (m : Member) :
    fieldType model.undescribed m.undescribed = fieldType model m := by
  simp only [fieldType, presentType, Model.hasStruct_undescribed, Member.undescribed]
  rfl

theorem takenNames_undescribed : takenNames registry s.undescribed = takenNames registry s := by
  have hSetters : s.undescribed.members.map setterName = s.members.map setterName := by
    rw [Struct.undescribed, List.map_map]
    rfl
  rw [takenNames, hSetters, takenNames]
  rfl

theorem accessors_undescribed (taken : List String) (before after : HookCalls) (m : Member) :
    [getter model.undescribed taken before m.undescribed,
        setter model.undescribed after m.undescribed] =
      [getter model taken before m, setter model after m] := by
  rw [getter, setter, fieldType_undescribed, getter, setter]
  rfl

/-- Of a module only the fields have descriptions of members. -/
theorem ofStruct_undescribed :
    StructModule.ofStruct registry model.undescribed s.undescribed =
      (StructModule.ofStruct registry model s).undescribed := by
  have hOperation : Function.ofOperation s.undescribed = Function.ofOperation s := rfl
  have hHooks : HookCalls.at s.undescribed = HookCalls.at s := rfl
  have hMembers : s.undescribed.members = s.members.map Member.undescribed := rfl
  unfold StructModule.ofStruct StructModule.undescribed
  simp only [takenNames_undescribed, hOperation, hHooks, hMembers, List.map_map, List.flatMap_map,
    accessors_undescribed, Function.comp_def, fieldType_undescribed]
  rfl

end Modules

end Rust

theorem Rust.codeLines_moduleFile_eq_iff {registry : Registry} {model model' : Model}
    {s s' : Struct} (hModel : model'.undescribed = model.undescribed)
    (hStruct : s'.undescribed = s.undescribed) (hFits : s.FitsComments) :
    codeLines "///" (moduleFile registry model' s').contents =
      codeLines "///" (moduleFile registry model s).contents ↔ s'.FitsComments := by
  have hFields : ∀ (model : Model) (s : Struct),
      (∀ f ∈ (StructModule.ofStruct registry model s).fields, straysOf f.description = []) ↔
        s.FitsComments := by
    intro model s
    simp only [StructModule.ofStruct, List.forall_mem_map, straysOf_eq_nil_iff]
    rfl
  rw [← hFields model' s']
  refine codeLines_render_eq_iff ?_ ((hFields model s).2 hFits)
  rw [← ofStruct_undescribed, ← ofStruct_undescribed, hModel, hStruct]

/-! ## Two runs -/

/-- A file without its comments: the generator, the path, and the lines outside of comments if it is
one of SQL. -/
def Engine.Emitted.outline (e : Emitted) : String × Path × Option (List String) :=
  (e.generator, e.artifact.path,
    if e.generator = "sql" then some (codeLines "--" e.artifact.contents) else none)

namespace Builtin

theorem outline_sql (o : Sql.Options) (cx : Context) (model : Model) :
    (Engine.artifactsOf cx model (sql o).generator).map
        (List.map (fun a => Engine.Emitted.outline ⟨"sql", a⟩)) =
      (Engine.artifactsOf cx model.undescribed (sql o).generator).map
        (List.map (fun a => Engine.Emitted.outline ⟨"sql", a⟩)) := by
  have hShown : ∀ as : Except GeneratorError (List Artifact),
      as.map (List.map (fun a => Engine.Emitted.outline ⟨"sql", a⟩)) =
        (as.map (List.map (Artifact.outline "--"))).map
          (List.map (fun p => ("sql", p.1, some p.2))) := by
    intro as
    cases as with
    | error e => rfl
    | ok as => simp [Except.map, Engine.Emitted.outline, Artifact.outline]
  have hEmit : ∀ model, Engine.artifactsOf cx model (sql o).generator = Sql.emit o model :=
    fun model => Engine.artifactsOf_eq_emit rfl cx model
  rw [hEmit, hEmit, hShown, Sql.outline_emit, ← hShown]

theorem outline_jsonSchema (cx : Context) (model : Model) :
    (Engine.artifactsOf cx model jsonSchema.generator).map
        (List.map (fun a => Engine.Emitted.outline ⟨"json_schema", a⟩)) =
      (Engine.artifactsOf cx model.undescribed jsonSchema.generator).map
        (List.map (fun a => Engine.Emitted.outline ⟨"json_schema", a⟩)) := by
  have hEmit : ∀ model, Engine.artifactsOf cx model jsonSchema.generator =
      .ok ((JsonSchema.documents model).map JsonSchema.Document.artifact) :=
    fun model => Engine.artifactsOf_eq_emit rfl cx model
  rw [hEmit, hEmit]
  simp [Except.map, JsonSchema.documents, Model.undescribed, JsonSchema.Document.artifact,
    JsonSchema.Document.ofStruct, JsonSchema.Document.ofEnum, Engine.Emitted.outline,
    Function.comp_def]

theorem outline_rust (cx : Context) (model : Model) :
    (Engine.artifactsOf cx model rust.generator).map
        (List.map (fun a => Engine.Emitted.outline ⟨"rust", a⟩)) =
      (Engine.artifactsOf cx model.undescribed rust.generator).map
        (List.map (fun a => Engine.Emitted.outline ⟨"rust", a⟩)) := by
  have hOwn : (Rust.emit cx.registry model).map (fun a => Engine.Emitted.outline ⟨"rust", a⟩) =
      (Rust.emit cx.registry model.undescribed).map
        (fun a => Engine.Emitted.outline ⟨"rust", a⟩) := by
    simp [Rust.emit, Rust.artifact, Model.undescribed, Engine.Emitted.outline, Function.comp_def]
  have hArtifacts : ∀ model, Engine.artifactsOf cx model rust.generator =
      (cx.registry.capabilities.mapM (Rust.generator.emitCapability cx)).bind
        (fun headers => .ok (headers.filterMap id ++ Rust.emit cx.registry model)) :=
    fun _ => rfl
  rw [hArtifacts, hArtifacts]
  cases cx.registry.capabilities.mapM (Rust.generator.emitCapability cx) with
  | error e => simp only [Except.bind, Except.map]
  | ok headers => simp only [Except.bind, Except.map, List.map_append, hOwn]

theorem outline_artifactsOf (b : Builtin) (cx : Context) (model : Model) :
    (Engine.artifactsOf cx model b.generator).map
        (List.map (fun a => Engine.Emitted.outline ⟨b.name, a⟩)) =
      (Engine.artifactsOf cx model.undescribed b.generator).map
        (List.map (fun a => Engine.Emitted.outline ⟨b.name, a⟩)) := by
  cases b with
  | sql o => exact outline_sql o cx model
  | jsonSchema => exact outline_jsonSchema cx model
  | rust => exact outline_rust cx model

/-- Without comments in SQL, the files are told from the model without descriptions. -/
theorem outline_emit (bs : List Builtin) (registry : Registry) (model : Model) :
    ((Engine.mk (bs.map generator)).emit model registry).map (List.map Engine.Emitted.outline) =
      ((Engine.mk (bs.map generator)).emit model.undescribed registry).map
        (List.map Engine.Emitted.outline) := by
  let cx := (Engine.mk (bs.map generator)).context registry
  let part : Model → Generator → Except GeneratorError (List Engine.Emitted) := fun model g =>
    (Engine.artifactsOf cx model g).bind (fun as => .ok (as.map (fun a => ⟨g.name, a⟩)))
  -- Errors are the same too, so the runs are compared as they are and not only if they succeed.
  have hParts : ∀ model, ((Engine.mk (bs.map generator)).emit model registry).map
      (List.map Engine.Emitted.outline) = (((bs.map generator).mapM (part model)).map
        (fun parts => parts.flatten.map Engine.Emitted.outline)).mapError .generator := by
    intro model
    unfold Engine.emit
    simp only
    split
    · rename_i parts hAll
      have hOk : (bs.map generator).mapM (part model) = .ok parts := hAll
      rw [hOk]
      rfl
    · rename_i e hAll
      have hError : (bs.map generator).mapM (part model) = .error e := hAll
      rw [hError]
      rfl
  have hPart : ∀ (model : Model) (b : Builtin),
      (part model b.generator).map (List.map Engine.Emitted.outline) =
        (Engine.artifactsOf cx model b.generator).map
          (List.map (fun a => Engine.Emitted.outline ⟨b.name, a⟩)) := by
    intro model b
    simp only [part, generator_name]
    cases Engine.artifactsOf cx model b.generator with
    | error e => rfl
    | ok as => simp [Except.bind, Except.map]
  rw [hParts, hParts]
  refine congrArg _ (map_mapM_congr (List.forall₂_same.2 ?_))
  intro g hg
  obtain ⟨b, _, rfl⟩ := List.mem_map.1 hg
  rw [hPart, hPart, outline_artifactsOf]

end Builtin

theorem forall₂_undescribed {model model' : Model} (h : model'.undescribed = model.undescribed) :
    List.Forall₂ (fun s s' => s'.undescribed = s.undescribed) model.structs model'.structs := by
  have hStructs : model.structs.map Struct.undescribed = model'.structs.map Struct.undescribed :=
    (congrArg Model.structs h).symm
  rw [← List.forall₂_eq_eq_eq, List.forall₂_map_left_iff, List.forall₂_map_right_iff] at hStructs
  exact hStructs.imp (fun s s' hs => hs.symm)

/-- Two runs on models that differ in descriptions only, with the same generators. Both compose and
emit the same files, or fail in the same way, and the files of SQL have the same lines outside of
comments. The modules of a struct, which are emitted if Rust takes part, have the same lines outside
of comments exactly if the descriptions of the second run stay in their comments, given that those
of the first do. -/
theorem descriptions_inert_iff {model model' : Model}
    (hSame : model'.undescribed = model.undescribed) {bs : List Builtin} {engine : Engine}
    (hBs : Builtin.register bs = .ok engine) :
    ∃ composed composed' registry, engine.compose model = (composed, .ok registry) ∧
      engine.compose model' = (composed', .ok registry) ∧
      (engine.emit composed' registry).map (List.map Engine.Emitted.outline) =
        (engine.emit composed registry).map (List.map Engine.Emitted.outline) ∧
      List.Forall₂ (fun s s' => s'.name = s.name ∧ (s.FitsComments →
          (codeLines "///" (Rust.moduleFile registry composed' s').contents =
            codeLines "///" (Rust.moduleFile registry composed s).contents ↔ s'.FitsComments)))
        composed.structs composed'.structs ∧
      (.rust ∈ bs →
        (∀ es, engine.emit composed registry = .ok es → ∀ s ∈ composed.structs,
          ⟨"rust", Rust.moduleFile registry composed s⟩ ∈ es) ∧
        ∀ es, engine.emit composed' registry = .ok es → ∀ s ∈ composed'.structs,
          ⟨"rust", Rust.moduleFile registry composed' s⟩ ∈ es) := by
  obtain ⟨-, rfl⟩ := Builtin.register_eq_ok_iff.1 hBs
  have hComposed := Builtin.undescribed_composed_eq bs hSame
  refine ⟨_, _, _, Builtin.compose_eq_composed bs model, Builtin.compose_eq_composed bs model',
    ?_, (forall₂_undescribed hComposed).imp ?_, ?_⟩
  · rw [Builtin.outline_emit, hComposed, ← Builtin.outline_emit]
  · intro s s' hStruct
    exact ⟨Struct.name_of_undescribed hStruct, Rust.codeLines_moduleFile_eq_iff hComposed hStruct⟩
  · intro hRust
    have hGenerator : Rust.generator ∈ bs.map Builtin.generator :=
      List.mem_map.2 ⟨.rust, hRust, rfl⟩
    exact ⟨fun es hEs s hs => Rust.moduleFile_mem_emit hGenerator hEs hs,
      fun es hEs s hs => Rust.moduleFile_mem_emit hGenerator hEs hs⟩

/-- Two schemas that are read into models that agree in what is asked of them. -/
theorem exists_of_any_compile_both {source source' : String} {p : Model → Model → Prop}
    [∀ model model', Decidable (p model model')]
    (h : (compile source).toOption.any (fun model =>
      (compile source').toOption.any (fun model' => decide (p model model'))) = true) :
    ∃ model model', compile source = .ok model ∧ compile source' = .ok model' ∧ p model model' := by
  obtain ⟨model, hCompile, h⟩ := exists_of_any_compile source _ h
  obtain ⟨model', hCompile', h⟩ := exists_of_any_compile source' _ h
  exact ⟨model, model', hCompile, hCompile', of_decide_eq_true h⟩

/-- A description may hold markers and code, and even line breaks if comments follow. -/
theorem noted_descriptions_inert :
    ∃ model model' engine composed composed' registry es es',
      compile "struct A \x7b bool: x: description(\"seen\"); \x7d" = .ok model ∧
      compile "struct A \x7b bool: x: description(\"-- a;\n  /// \x7d b\"); \x7d" = .ok model' ∧
      model'.undescribed = model.undescribed ∧
      Builtin.register [.sql ⟨.mysql, false⟩, .rust] = .ok engine ∧
      engine.compose model = (composed, .ok registry) ∧
      engine.compose model' = (composed', .ok registry) ∧
      engine.emit composed registry = .ok es ∧ engine.emit composed' registry = .ok es' ∧
      es'.map Engine.Emitted.outline = es.map Engine.Emitted.outline ∧
      List.Forall₂ (fun s s' => s'.name = s.name ∧ s.FitsComments ∧ s'.FitsComments ∧
          codeLines "///" (Rust.moduleFile registry composed' s').contents =
            codeLines "///" (Rust.moduleFile registry composed s).contents)
        composed.structs composed'.structs := by
  let bs : List Builtin := [.sql ⟨.mysql, false⟩, .rust]
  have hBs : Builtin.register bs = .ok ⟨bs.map Builtin.generator⟩ :=
    Builtin.register_eq_ok_iff.2 ⟨by decide, rfl⟩
  obtain ⟨model, model', hCompile, hCompile', hSame, hFits, hFits'⟩ :
      ∃ model model', compile "struct A \x7b bool: x: description(\"seen\"); \x7d" = .ok model ∧
        compile "struct A \x7b bool: x: description(\"-- a;\n  /// \x7d b\"); \x7d" = .ok model' ∧
        model'.undescribed = model.undescribed ∧
        (∀ s ∈ (Builtin.composed bs model).structs, s.FitsComments) ∧
        ∀ s ∈ (Builtin.composed bs model').structs, s.FitsComments :=
    exists_of_any_compile_both (by decide +kernel)
  have hQueries : ∀ o, .sql o ∈ bs → o.filteredQueries = false := by simp [bs]
  obtain ⟨es, hEs⟩ := Builtin.emit_composed_isOk hQueries model
  obtain ⟨es', hEs'⟩ := Builtin.emit_composed_isOk hQueries model'
  obtain ⟨composed, composed', registry, hCompose, hCompose', hOutline, hStructs, -⟩ :=
    descriptions_inert_iff hSame hBs
  obtain ⟨rfl, hRegistry⟩ := Prod.mk.inj
    ((Builtin.compose_eq_composed bs model).symm.trans hCompose)
  obtain rfl := Except.ok.inj hRegistry
  obtain ⟨rfl, -⟩ := Prod.mk.inj ((Builtin.compose_eq_composed bs model').symm.trans hCompose')
  rw [hEs, hEs'] at hOutline
  have hBoth := (List.forall₂_and_left _ _).2
    ⟨hFits, ((List.forall₂_and_left _ _).2 ⟨hFits', hStructs.flip⟩).flip⟩
  refine ⟨model, model', _, _, _, _, es, es', hCompile, hCompile', hSame, hBs, hCompose, hCompose',
    hEs, hEs', Except.ok.inj hOutline, hBoth.imp ?_⟩
  rintro s s' ⟨hs, hs', hName, hIff⟩
  exact ⟨hName, hs, hs', (hIff hs).2 hs'⟩

/-- The schemas differ in descriptions only, and the modules of a struct differ in lines outside of
comments. -/
def LeavesComment (source source' : String) : Prop :=
  ∃ model model' engine composed composed' registry es es',
    compile source = .ok model ∧ compile source' = .ok model' ∧
    model'.undescribed = model.undescribed ∧ Builtin.register [.rust] = .ok engine ∧
    engine.compose model = (composed, .ok registry) ∧
    engine.compose model' = (composed', .ok registry) ∧
    engine.emit composed registry = .ok es ∧ engine.emit composed' registry = .ok es' ∧
    ∃ s ∈ composed.structs, ∃ s' ∈ composed'.structs, s'.name = s.name ∧
      ⟨"rust", Rust.moduleFile registry composed s⟩ ∈ es ∧
      ⟨"rust", Rust.moduleFile registry composed' s'⟩ ∈ es' ∧
      codeLines "///" (Rust.moduleFile registry composed' s').contents ≠
        codeLines "///" (Rust.moduleFile registry composed s).contents

theorem leavesComment_of_compile {source source' : String}
    (h : (compile source).toOption.any (fun model =>
      (compile source').toOption.any (fun model' => decide (
        model'.undescribed = model.undescribed ∧
          ∃ s ∈ (Builtin.composed [.rust] model).structs,
          ∃ s' ∈ (Builtin.composed [.rust] model').structs,
            s'.undescribed = s.undescribed ∧ s.FitsComments ∧ ¬ s'.FitsComments))) = true) :
    LeavesComment source source' := by
  obtain ⟨model, model', hCompile, hCompile', hSame, s, hs, s', hs', hStruct, hFits, hLeaves⟩ :=
    exists_of_any_compile_both h
  let bs : List Builtin := [.rust]
  have hBs : Builtin.register bs = .ok ⟨bs.map Builtin.generator⟩ :=
    Builtin.register_eq_ok_iff.2 ⟨List.nodup_singleton _, rfl⟩
  have hRust : Rust.generator ∈ bs.map Builtin.generator := List.mem_cons_self
  have hQueries : ∀ o, .sql o ∈ bs → o.filteredQueries = false := by simp [bs]
  obtain ⟨es, hEs⟩ := Builtin.emit_composed_isOk hQueries model
  obtain ⟨es', hEs'⟩ := Builtin.emit_composed_isOk hQueries model'
  have hComposed := Builtin.undescribed_composed_eq bs hSame
  refine ⟨model, model', _, _, _, _, es, es', hCompile, hCompile', hSame, hBs,
    Builtin.compose_eq_composed bs model, Builtin.compose_eq_composed bs model', hEs, hEs', s, hs,
    s', hs', Struct.name_of_undescribed hStruct, Rust.moduleFile_mem_emit hRust hEs hs,
    Rust.moduleFile_mem_emit hRust hEs' hs', ?_⟩
  exact mt (Rust.codeLines_moduleFile_eq_iff hComposed hStruct hFits).1 hLeaves

/-- A line break in a description lets what follows out of the comment. -/
theorem description_leaves_comment :
    LeavesComment "struct A \x7b bool: x: description(\"a\"); \x7d"
      "struct A \x7b bool: x: description(\"a\nb\"); \x7d" :=
  leavesComment_of_compile (by decide +kernel)

end EntitySchema
