import EntitySchema.Proofs.FilteredQueries

/-!
The statements on the rows of a table. The table of a struct is made of its members, and each of the
statements of an operation and of a choice of members of its own, on structs that other generators
have written to as well. The main result is that they agree: the file of a struct is told from its
table alone, where one column is the key and no two have the same name.
-/

namespace EntitySchema

namespace Sql

/-! ## What a table tells -/

namespace Table

variable (d : Dialect) (t : Table)

def columnNames : List String :=
  t.columns.map Column.name

/-- What says that a column is the key of its table, a number that the table counts up by itself. -/
def keyClause : Dialect → String
  | .sqlite => "INTEGER PRIMARY KEY AUTOINCREMENT"
  | .postgres => "BIGINT GENERATED BY DEFAULT AS IDENTITY PRIMARY KEY"
  | .mysql => "BIGINT NOT NULL AUTO_INCREMENT PRIMARY KEY"

/-- What says which value a row gets that is given none. A text is quoted, and the name of a value
of an enum is its number. Any other default stands as the schema gives it, and is read as SQL:
nothing here says that it is a value, or that it ends where the schema ends it. -/
def defaultClause : Literal → String
  | .text s => " DEFAULT " ++ Text.Doubled.quote '\'' s
  | .number n => " DEFAULT " ++ Number.signedDecimal n
  | .verbatim s => " DEFAULT " ++ s

/-- What follows the name of a column. -/
def columnClauses (name : String) : ColumnBody → String
  | .key => keyClause d
  | .value type required unique counts initial allowed =>
    d.columnType type ++ (if required then " NOT NULL" else "") ++
      (if unique then " UNIQUE" else "") ++
      (if counts ∧ d = .postgres then " GENERATED BY DEFAULT AS IDENTITY" else "") ++
      initial.elim "" defaultClause ++
      allowed.elim "" (fun values => " CHECK (" ++ d.quote name ++ " IN (" ++
        ", ".intercalate (values.map Number.signedDecimal) ++ "))")

/-- A column in the statement that creates its table, below its description on a line of its own. -/
def columnEntry (c : Column) : String :=
  c.description.elim "" (fun text => "    -- " ++
      String.ofList (text.toList.map (fun c => if c = '\n' then ' ' else c)) ++ "\n") ++
    "    " ++ d.quote c.name ++ " " ++ columnClauses d c.name c.body

/-- What says that the values of a column are those of another one. -/
def linkEntry (c : Column) : Option String :=
  c.target.map (fun r => "    FOREIGN KEY (" ++ d.quote c.name ++ ") REFERENCES " ++
    d.quote r.struct ++ " (" ++ d.quote r.field ++ ")")

/-- The statement that creates a table: its columns in their order, then the links of some. -/
def createTable : String :=
  "CREATE TABLE IF NOT EXISTS " ++ d.quote t.name ++ " (\n" ++
    ",\n".intercalate (t.columns.map (columnEntry d) ++ t.columns.filterMap (linkEntry d)) ++
    "\n);\n"

/-- The columns that a row is given values for. -/
def valueColumns : List String :=
  t.columnNames.filter (· ≠ "id")

/-- The statement for a new row. Where there are no values to give, it names no column. -/
def insertRow : String :=
  "INSERT INTO " ++ d.quote t.name ++
    if t.valueColumns = [] then (if d = .mysql then " () VALUES ();" else " DEFAULT VALUES;")
    else
      " (" ++ ", ".intercalate (t.valueColumns.map d.quote) ++ ") VALUES (" ++
        ", ".intercalate (t.valueColumns.mapIdx (fun i _ => valueMark d (i + 1))) ++ ");"

/-- The statement that gives a row other values. Its key comes after them. -/
def updateRow : String :=
  "UPDATE " ++ d.quote t.name ++ " SET " ++
    ", ".intercalate (t.valueColumns.mapIdx
      (fun i column => d.quote column ++ " = " ++ valueMark d (i + 1))) ++
    " WHERE " ++ d.quote "id" ++ " = " ++ valueMark d (t.valueColumns.length + 1) ++ ";"

def deleteRow : String :=
  "DELETE FROM " ++ d.quote t.name ++ " WHERE " ++ d.quote "id" ++ " = " ++ valueMark d 1 ++ ";"

/-- The statement that looks up a row, with all of its columns. -/
def loadRow : String :=
  "SELECT " ++ ", ".intercalate (t.columnNames.map d.quote) ++ " FROM " ++ d.quote t.name ++
    " WHERE " ++ d.quote "id" ++ " = " ++ valueMark d 1 ++ ";"

/-- The statements on the rows of a table, with their names. A row without values is never given
others. -/
def rowStatements : List (String × String) :=
  [("insert", t.insertRow d)] ++
    (if t.valueColumns = [] then [] else [("update", t.updateRow d)]) ++
    [("delete", t.deleteRow d), ("load_by_id", t.loadRow d)]

/-- The file of a table. -/
def rowFile : String :=
  "-- Generated by schemagen. Do not edit.\n" ++ "-- requires: schemagen_store\n" ++ "\n" ++
    t.createTable d ++
    String.join ((t.rowStatements d).map
      (fun named => "\n-- name: " ++ named.1 ++ "\n" ++ named.2 ++ "\n"))

end Table

/-! ## Statements as texts -/

section Texts

variable {d : Dialect} {model : Model} {s : Struct}

theorem bindings_singleton (d : Dialect) (column : String) (n : Nat) :
    " AND ".intercalate (Statement.bindings d [column] n) =
      d.quote column ++ " = " ++ valueMark d n := by
  rw [← placeholder_eq]
  rfl

theorem values_eq (d : Dialect) (columns : List String) :
    Statement.values d columns.length =
      ", ".intercalate (columns.mapIdx (fun i _ => valueMark d (i + 1))) := by
  have hPlaces : (List.range' 1 columns.length).map d.placeholder =
      columns.mapIdx (fun i _ => valueMark d (i + 1)) := by
    apply List.ext_getElem
    · simp
    · intro i _ _
      simp [placeholder_eq, Nat.add_comm]
  rw [Statement.values, hPlaces]

theorem defaultClause_eq (l : Literal) : Table.defaultClause l = " DEFAULT " ++ l.render := by
  cases l <;> rfl

theorem columnClauses_eq (d : Dialect) (name : String) (body : ColumnBody) :
    Table.columnClauses d name body = Column.renderBody d name body := by
  cases body with
  | key => cases d <;> rfl
  | value type required unique counts initial allowed =>
    have hRender : Column.renderBody d name (.value type required unique counts initial allowed) =
        String.join [d.columnType type, if required then " NOT NULL" else "",
          if unique then " UNIQUE" else "",
          if counts ∧ d = .postgres then " GENERATED BY DEFAULT AS IDENTITY" else "",
          initial.elim "" Table.defaultClause, allowed.elim "" (fun values =>
            " CHECK (" ++ d.quote name ++ " IN (" ++
              ", ".intercalate (values.map Number.signedDecimal) ++ "))")] := by
      have hDefault : Table.defaultClause = (" DEFAULT " ++ ·.render) := funext defaultClause_eq
      rw [hDefault]
      cases counts <;> cases d <;> cases initial <;> cases allowed <;> rfl
    rw [hRender]
    simp [Table.columnClauses, String.join, String.append_assoc]

theorem columnEntry_eq (d : Dialect) (c : Column) : Table.columnEntry d c = c.render d := by
  obtain ⟨name, description, body, target⟩ := c
  simp only [Table.columnEntry, columnClauses_eq]
  cases description <;> rfl

theorem createTable_eq (d : Dialect) (t : Table) : t.createTable d = t.render d := by
  have hColumns : Table.columnEntry d = Column.render d := funext (columnEntry_eq d)
  unfold Table.createTable
  rw [hColumns]
  rfl

theorem storedNames_eq (model : Model) (s : Struct) :
    storedNames model s = (Table.ofStruct model s).columnNames := by
  simp [storedNames, Table.columnNames, Table.ofStruct, name_ofMember]

theorem body_ofMember (model : Model) (m : Member) :
    (Column.ofMember model m).body = .key ↔ m.isOwnKey = true := by
  unfold Column.ofMember
  split
  · simp_all
  · simp_all

theorem render_insert (hValues : valueNames model s = (Table.ofStruct model s).valueColumns) :
    (Statement.insert s.name (valueNames model s)).render d =
      (Table.ofStruct model s).insertRow d := by
  unfold Table.insertRow
  rw [← hValues]
  cases hNames : valueNames model s with
  | nil => cases d <;> rfl
  | cons n names =>
    -- One equation of `render` is all that is needed; to unfold it would open all of them.
    have hRender : (Statement.insert s.name (n :: names)).render d =
        "INSERT INTO " ++ d.quote s.name ++ " (" ++ Statement.names d (n :: names) ++
          ") VALUES (" ++ Statement.values d (n :: names).length ++ ");" := rfl
    rw [hRender, values_eq, if_neg (by simp), Statement.names]
    simp only [String.append_assoc]
    rfl

theorem render_update (hValues : valueNames model s = (Table.ofStruct model s).valueColumns) :
    (Statement.update s.name (valueNames model s)).render d =
      (Table.ofStruct model s).updateRow d := by
  have hRender : (Statement.update s.name (valueNames model s)).render d =
      "UPDATE " ++ d.quote s.name ++ " SET " ++
        ", ".intercalate (Statement.bindings d (valueNames model s) 1) ++ " WHERE " ++
        " AND ".intercalate
          (Statement.bindings d [keyName] ((valueNames model s).length + 1)) ++ ";" := rfl
  rw [hRender, bindings_eq, bindings_singleton, hValues]
  unfold Table.updateRow
  simp only [String.append_assoc]
  rfl

theorem render_delete (d : Dialect) (model : Model) (s : Struct) :
    (Statement.delete s.name).render d = (Table.ofStruct model s).deleteRow d := by
  have hRender : (Statement.delete s.name).render d = "DELETE FROM " ++ d.quote s.name ++
      " WHERE " ++ " AND ".intercalate (Statement.bindings d [keyName] 1) ++ ";" := rfl
  rw [hRender, bindings_singleton]
  unfold Table.deleteRow
  simp only [String.append_assoc]
  rfl

theorem render_load (d : Dialect) (model : Model) (s : Struct) :
    (Statement.select s.name (storedNames model s) [keyName]).render d =
      (Table.ofStruct model s).loadRow d := by
  rw [render_select, bindings_singleton, storedNames_eq, Statement.names]
  unfold Table.loadRow
  simp only [String.append_assoc]
  rfl

theorem renderOperation_own {f : Operation} (hf : f.owner = owner) :
    renderOperation d model s f = (statement? model s f.role).map
      (fun st => "\n-- name: " ++ f.name ++ "\n" ++ st.render d ++ "\n") := by
  unfold renderOperation
  rw [if_pos (beq_iff_eq.2 hf)]
  rfl

/-- The statement to write a row again is left out exactly if the row has no values. -/
theorem statement?_update (model : Model) (s : Struct) :
    statement? model s .update = if valueNames model s = [] then none
      else some (.update s.name (valueNames model s)) := by
  simp only [statement?]
  cases valueNames model s <;> rfl

/-- What the operations that store and load a struct say in its file. -/
theorem renderOperations_stored
    (hValues : valueNames model s = (Table.ofStruct model s).valueColumns) :
    storedOperations.filterMap (renderOperation d model s) =
      ((Table.ofStruct model s).rowStatements d).map
        (fun named => "\n-- name: " ++ named.1 ++ "\n" ++ named.2 ++ "\n") := by
  have hInsert : statement? model s .insert = some (.insert s.name (valueNames model s)) := rfl
  have hDelete : statement? model s .delete = some (.delete s.name) := rfl
  have hLoad : statement? model s .load =
    some (.select s.name (storedNames model s) [keyName]) := rfl
  have hOwned : ∀ f ∈ storedOperations, f.owner = owner := by simp [storedOperations]
  -- Of the four operations only the second may have no statement.
  rw [List.filterMap_congr (fun f hf => renderOperation_own (hOwned f hf))]
  unfold storedOperations Table.rowStatements
  simp only [List.filterMap_cons, List.filterMap_nil, hInsert, statement?_update, hDelete, hLoad,
    Option.map_some, render_insert hValues, render_delete d model s, render_load]
  by_cases hNone : valueNames model s = []
  · rw [if_pos hNone, if_pos (hValues ▸ hNone)]
    rfl
  · rw [if_neg hNone, if_neg (hValues ▸ hNone)]
    simp only [Option.map_some, render_update hValues]
    rfl

end Texts

/-! ## What SQL leaves on a struct -/

/-- SQL has asked the struct for all of its operations and its library, or for nothing yet. -/
def AllOrNothing (s : Struct) : Prop :=
  ((seen s).operations = [] ∧ (seen s).requirements = []) ∨
    ((seen s).operations = storedOperations ∧
      (seen s).requirements = [⟨owner, storeLibrary⟩])

theorem AllOrNothing.makeStored {s : Struct} (h : AllOrNothing s) :
    AllOrNothing (makeStored s) := by
  right
  rw [seen_makeStored, storeSeen]
  rcases h with ⟨hOperations, hRequirements⟩ | ⟨hOperations, hRequirements⟩
  · simp [storedOperations, Struct.addRequirement_eq, Struct.addOperation_eq, hOperations,
      hRequirements]
  · -- The second time nothing is added, since all is there.
    have hThere : Builtin.HasOperations (seen s) storedOperations :=
      fun f hf => ⟨f, hOperations ▸ hf, rfl, rfl⟩
    rw [Builtin.addOperations_eq_self hThere, Struct.addRequirement_eq, if_pos]
    · exact ⟨hOperations, hRequirements⟩
    · simp [hRequirements]

theorem AllOrNothing.addMember {s : Struct} (h : AllOrNothing s) (m : Member) :
    AllOrNothing (s.addMember m) := by
  rw [Struct.addMember_eq]
  split
  · exact h
  · exact h

end Sql

theorem Model.forall_updateStruct {model : Model} {n : String} {change : Struct → Struct}
    {P : Struct → Prop} (hChange : ∀ s, P s → P (change s)) (h : ∀ s ∈ model.structs, P s) :
    ∀ s ∈ (model.updateStruct n change).structs, P s := by
  have go : ∀ ss : List Struct, (∀ s ∈ ss, P s) → ∀ s ∈ updateStruct.go n change ss, P s := by
    intro ss hss
    induction ss with
    | nil => exact hss
    | cons s ss ih =>
      obtain ⟨hs, hss⟩ := List.forall_mem_cons.1 hss
      simp only [updateStruct.go]
      split
      · exact List.forall_mem_cons.2 ⟨hChange s hs, hss⟩
      · exact List.forall_mem_cons.2 ⟨hs, ih hss⟩
  exact go model.structs h

namespace Sql

theorem allOrNothing_linkElements (holder : String) (elements : List String) {model : Model}
    (h : ∀ s ∈ model.structs, AllOrNothing s) :
    ∀ s ∈ (linkElements holder model elements).structs, AllOrNothing s := by
  induction elements generalizing model with
  | nil => exact h
  | cons e elements ih => exact ih (Model.forall_updateStruct (fun s hs => hs.addMember _) h)

theorem allOrNothing_contributeAll (o : Options) (names : List String) {model : Model}
    (h : ∀ s ∈ model.structs, AllOrNothing s) :
    ∀ s ∈ ((Builtin.sql o).contributeAll names model).structs, AllOrNothing s := by
  induction names generalizing model with
  | nil => exact h
  | cons n names ih =>
    refine ih (allOrNothing_linkElements n _ ?_)
    exact Model.forall_updateStruct (fun s hs => hs.makeStored) h

/-- A schema declares no operations and no libraries. -/
theorem allOrNothing_of_declared {model : Model} {s : Struct} (h : s.Declared model) :
    AllOrNothing s := by
  obtain ⟨ms, hs, -⟩ := h.members
  left
  rw [hs]
  exact ⟨rfl, rfl⟩

end Sql

namespace Builtin

variable {bs : List Builtin} {o : Sql.Options} {model : Model} {s : Struct}

/-- Whatever other generators take part, SQL leaves its four operations and its library on every
struct, and no generator leaves another library. -/
theorem stored_composed (hDistinct : (bs.map name).Nodup) (ho : sql o ∈ bs)
    (hModel : model.Consistent) (hs : s ∈ (composed bs model).structs) :
    (Sql.seen s).operations = Sql.storedOperations ∧
      s.requirements = [⟨Sql.owner, Sql.storeLibrary⟩] := by
  -- What SQL sees of the struct is what it would have made of it alone.
  have hSeen : Sql.seen s ∈ (Sql.view (composed bs model)).structs := List.mem_map_of_mem hs
  rw [view_composed hDistinct ho] at hSeen
  obtain ⟨t, ht, hSame⟩ := List.mem_map.1 hSeen
  have hStart : ∀ s ∈ model.structs, Sql.AllOrNothing s :=
    fun s hs => Sql.allOrNothing_of_declared (hModel.structs s hs)
  have hEnd := Sql.allOrNothing_contributeAll o model.structNames hStart t ht
  unfold Sql.AllOrNothing at hEnd
  rw [hSame] at hEnd
  refine hEnd.resolve_left ?_
  -- An operation of its own is there, since SQL came to every struct.
  rintro ⟨hNone, -⟩
  have hGrows := (sql o).grows_contributeAll model.structNames model
  have hFound := Model.struct?_of_mem (by rw [hGrows.structNames]; exact hModel.structNames) ht
  have hName : t.name ∈ model.structNames := hGrows.structNames ▸ List.mem_map_of_mem ht
  have hSettled := (sql o).settled_contributeAll model.structNames model t.name hName t hFound
  obtain ⟨g, hg, hOwner, -⟩ := hSettled.1.operations _ List.mem_cons_self
  have hOwn : g ∈ (Sql.seen t).operations := List.mem_filter.2 ⟨hg, by simp [hOwner]⟩
  rw [hSame, hNone] at hOwn
  cases hOwn

end Builtin

/-! ## The key and the values -/

namespace SqlComposition

variable {model composed : Model} {s : Struct} {m : Member}

/-- No member but the key that structs get by themselves has the name of the key. -/
theorem eq_key_of_name (h : SqlComposition model composed) (hs : s ∈ composed.structs)
    (hm : m ∈ s.members) (hName : m.name = "id") : m = Member.key := by
  obtain ⟨c, hc, hKeys⟩ := h.exists_source hs
  rw [hKeys.members, List.mem_append] at hm
  rcases hm with hm | hm
  · rcases Reader.declared_or_key (h.consistent.structs c hc) hm with hDeclared | hKey
    · exact absurd hName hDeclared.notKey
    · exact hKey
  · obtain ⟨p, _, rfl⟩ := List.mem_map.1 hm
    exact absurd hName (holderKeyName_ne_keyName p.name)

theorem isOwnKey_iff (h : SqlComposition model composed) (hs : s ∈ composed.structs)
    (hm : m ∈ s.members) : m.isOwnKey = true ↔ m.name = "id" := by
  constructor
  · intro hOwn
    simp only [Member.isOwnKey, Bool.and_eq_true, beq_iff_eq] at hOwn
    exact hOwn.2
  · intro hName
    rw [h.eq_key_of_name hs hm hName]
    rfl

/-- A primary key is told by its name, since the rules allow no other one. -/
theorem primaryKey_iff (h : SqlComposition model composed) (hs : s ∈ composed.structs)
    (hm : m ∈ s.members) : m.primaryKey = true ↔ m.name = "id" := by
  constructor
  · intro hKey
    exact (h.isOwnKey_iff hs hm).1 ((h.sound.valid.members s hs m hm).key hKey)
  · intro hName
    rw [h.eq_key_of_name hs hm hName]
    rfl

theorem nodup_columnNames (h : SqlComposition model composed) (hs : s ∈ composed.structs) :
    (Sql.Table.ofStruct composed s).columnNames.Nodup := by
  rw [← Sql.storedNames_eq]
  exact (h.nodup_members hs).sublist (List.filter_sublist.map _)

theorem valueNames_eq (h : SqlComposition model composed) (hs : s ∈ composed.structs) :
    Sql.valueNames composed s = (Sql.Table.ofStruct composed s).valueColumns := by
  rw [Sql.Table.valueColumns, ← Sql.storedNames_eq, Sql.storedNames, List.filter_map,
    Sql.valueNames, Sql.valueMembers]
  congr 1
  apply List.filter_congr
  intro m hm
  have hKey := h.primaryKey_iff hs (List.mem_of_mem_filter hm)
  by_cases hName : m.name = "id"
  · simp [hName, hKey.2 hName]
  · simp [hName, mt hKey.1 hName]

theorem id_mem_columnNames (h : SqlComposition model composed) (hs : s ∈ composed.structs) :
    "id" ∈ (Sql.Table.ofStruct composed s).columnNames := by
  obtain ⟨m, hm, hName⟩ := List.any_eq_true.1 (h.sound.keys s hs)
  have hName : m.name = "id" := beq_iff_eq.1 hName
  have hStored : Sql.isStored composed m = true := by
    rw [h.eq_key_of_name hs hm hName]
    rfl
  rw [← Sql.storedNames_eq, ← hName]
  exact List.mem_map_of_mem (List.mem_filter.2 ⟨hm, hStored⟩)

/-- Of the columns of a table one is the key. -/
theorem keyColumns_eq (h : SqlComposition model composed) (hs : s ∈ composed.structs) :
    ((Sql.Table.ofStruct composed s).columns.filter (fun c => c.body = .key)).map
      Sql.Column.name = ["id"] := by
  have hNames : ((Sql.Table.ofStruct composed s).columns.filter (fun c => c.body = .key)).map
      Sql.Column.name = (Sql.Table.ofStruct composed s).columnNames.filter (· = "id") := by
    rw [Sql.Table.columnNames, List.filter_map]
    congr 1
    apply List.filter_congr
    intro c hc
    obtain ⟨m, hm, rfl⟩ := List.mem_map.1 hc
    rw [Function.comp_apply, decide_eq_decide, Sql.body_ofMember, Sql.name_ofMember]
    exact h.isOwnKey_iff hs (List.mem_of_mem_filter hm)
  rw [hNames, List.filter_eq, List.count_eq_one_of_mem (h.nodup_columnNames hs)
    (h.id_mem_columnNames hs)]
  rfl

/-- The file of a struct is that of its table. -/
theorem structFile_eq (h : SqlComposition model composed) (hs : s ∈ composed.structs)
    (hStored : (Sql.seen s).operations = Sql.storedOperations ∧
      s.requirements = [⟨Sql.owner, Sql.storeLibrary⟩]) (d : Sql.Dialect) :
    Sql.structFile d composed s = (Sql.Table.ofStruct composed s).rowFile d := by
  obtain ⟨hOperations, hRequirements⟩ := hStored
  unfold Sql.structFile Sql.Table.rowFile
  rw [Sql.createTable_eq, ← Sql.renderOperations_view, Sql.renderOperation_view, hOperations,
    Sql.renderOperations_stored (h.valueNames_eq hs), hRequirements]
  rfl

end SqlComposition

namespace Sql

variable {o : Options} {model : Model} {s : Struct}

theorem tableFile_mem_structArtifacts {files : List Artifact}
    (h : structArtifacts o model s = .ok files) : tableFile o.dialect model s ∈ files := by
  unfold structArtifacts at h
  split at h
  · obtain ⟨text, -, hFiles⟩ := bind_eq_ok_iff.1 h
    rw [← Except.ok.inj hFiles]
    exact List.mem_cons_self
  · rw [← Except.ok.inj h]
    exact List.mem_cons_self

theorem tableFile_mem_emit {as : List Artifact} (h : emit o model = .ok as)
    (hs : s ∈ orderedStructs model) : tableFile o.dialect model s ∈ as := by
  obtain ⟨files, hFiles, hAs⟩ := bind_eq_ok_iff.1 h
  obtain ⟨own, hOwn, hArtifacts⟩ := exists_of_mem_right (mapM_eq_ok_iff.1 hFiles).flip hs
  have hTable := tableFile_mem_structArtifacts hArtifacts
  rw [← Except.ok.inj hAs]
  exact List.mem_append_left _ (List.mem_flatten_of_mem hOwn hTable)

end Sql

/-- The file of every table that is emitted. -/
theorem Builtin.rowFile_mem_emit {bs : List Builtin} (hDistinct : (bs.map Builtin.name).Nodup)
    {o : Sql.Options} (ho : .sql o ∈ bs) {model : Model} {registry : Registry}
    {es : List Engine.Emitted}
    (h : (Engine.mk (bs.map Builtin.generator)).emit model registry = .ok es) {s : Struct}
    (hs : s ∈ Sql.orderedStructs model) : ⟨"sql", Sql.tableFile o.dialect model s⟩ ∈ es := by
  obtain ⟨as, has, hFiles⟩ := emit_filter hDistinct h ho
  rw [Engine.artifactsOf_eq_emit rfl] at has
  exact (List.mem_filter.1 (hFiles ▸ List.mem_map_of_mem (Sql.tableFile_mem_emit has hs))).1

/-- The tables of a checked schema that is composed with SQL and other generators. The columns of a
table have different names, and one of them is the key, `id`. The statements that store and load a
row are told from these columns: a row is loaded with all of them, and stored and changed by those
that are not the key, each bound to the value of its place. In whatever dialect, the file of a
struct creates its table and has these statements, and it is emitted. The columns are those that the
table is made of: a default that is neither text nor a value of an enum stands in its text as the
schema gives it, whatever SQL reads there. -/
theorem rowStatements_match_table {source : String} {files : FileSystem} {model : Model}
    (h : compile source files = .ok model) {bs : List Builtin} {engine : Engine}
    (hBs : Builtin.register bs = .ok engine) {o : Sql.Options} (ho : .sql o ∈ bs) :
    ∃ composed registry, engine.compose model = (composed, .ok registry) ∧
      ∀ s ∈ composed.structs, ∃ t ∈ Sql.tables composed, t = Sql.Table.ofStruct composed s ∧
        t.columnNames.Nodup ∧
        (t.columns.filter (fun c => c.body = .key)).map Sql.Column.name = ["id"] ∧
        (∀ d, Sql.structFile d composed s = t.rowFile d) ∧
        ∀ es, engine.emit composed registry = .ok es →
          ⟨"sql", ⟨s.name ++ ".sql"⟩, t.rowFile o.dialect⟩ ∈ es := by
  obtain ⟨hDistinct, rfl⟩ := Builtin.register_eq_ok_iff.1 hBs
  have hComposition := sqlComposition_of_compile h hDistinct ho
  refine ⟨Builtin.composed bs model, Builtin.registryOf bs, Builtin.compose_eq_composed bs model,
    ?_⟩
  intro s hs
  have hOrdered := (Sql.mem_orderedStructs hComposition.structNames).2 hs
  have hFile := hComposition.structFile_eq hs
    (Builtin.stored_composed hDistinct ho hComposition.consistent hs)
  refine ⟨Sql.Table.ofStruct _ s, List.mem_map_of_mem hOrdered, rfl,
    hComposition.nodup_columnNames hs, hComposition.keyColumns_eq hs, hFile, ?_⟩
  intro es hEs
  rw [← hFile]
  exact Builtin.rowFile_mem_emit hDistinct ho hEs hOrdered

/-- The file of orders, which get two columns from what holds them. -/
def orderFile : String :=
  "-- Generated by schemagen. Do not edit.\n-- requires: schemagen_store\n\n" ++
  "CREATE TABLE IF NOT EXISTS \"Order\" (\n" ++
  "    \"id\" BIGINT GENERATED BY DEFAULT AS IDENTITY PRIMARY KEY,\n" ++
  "    \"ShopId\" BIGINT,\n" ++
  "    \"OrderId\" BIGINT,\n" ++
  "    FOREIGN KEY (\"ShopId\") REFERENCES \"Shop\" (\"id\"),\n" ++
  "    FOREIGN KEY (\"OrderId\") REFERENCES \"Order\" (\"id\")\n" ++
  ");\n\n" ++
  "-- name: insert\nINSERT INTO \"Order\" (\"ShopId\", \"OrderId\") VALUES ($1, $2);\n\n" ++
  "-- name: update\n" ++
  "UPDATE \"Order\" SET \"ShopId\" = $1, \"OrderId\" = $2 WHERE \"id\" = $3;\n\n" ++
  "-- name: delete\nDELETE FROM \"Order\" WHERE \"id\" = $1;\n\n" ++
  "-- name: load_by_id\n" ++
  "SELECT \"id\", \"ShopId\", \"OrderId\" FROM \"Order\" WHERE \"id\" = $1;\n"

/-- Trips have no column but their key. -/
theorem shop_rowStatements :
    compile shopSource = .ok shopModel ∧
      ∃ engine, Builtin.register [.jsonSchema, .sql ⟨.postgres, false⟩, .rust] = .ok engine ∧
        ∃ composed registry es, engine.compose shopModel = (composed, .ok registry) ∧
          engine.emit composed registry = .ok es ∧
          (∃ t ∈ Sql.tables composed, t.columnNames = ["id", "ShopId", "OrderId"] ∧
            t.rowFile .postgres = orderFile ∧ ⟨"sql", ⟨"Order.sql"⟩, orderFile⟩ ∈ es) ∧
          ∃ t ∈ Sql.tables composed, t.columnNames = ["id"] ∧
            t.rowStatements .mysql =
              [("insert", "INSERT INTO `Trip` () VALUES ();"),
                ("delete", "DELETE FROM `Trip` WHERE `id` = ?;"),
                ("load_by_id", "SELECT `id` FROM `Trip` WHERE `id` = ?;")] ∧
            ⟨"sql", ⟨"Trip.sql"⟩, t.rowFile .postgres⟩ ∈ es := by
  let bs : List Builtin := [.jsonSchema, .sql ⟨.postgres, false⟩, .rust]
  have hBs : Builtin.register bs = .ok ⟨bs.map Builtin.generator⟩ :=
    Builtin.register_eq_ok_iff.2 ⟨by decide, rfl⟩
  obtain ⟨es, hEs⟩ := Builtin.generate_isOk hBs (by simp [bs]) shopModel
  obtain ⟨composed, registry, hCompose, hAll⟩ := rowStatements_match_table compile_shopSource hBs
    (List.mem_cons_of_mem _ List.mem_cons_self)
  rw [Engine.generate, hCompose] at hEs
  obtain ⟨rfl, -⟩ := Prod.mk.inj ((Builtin.compose_eq_composed bs shopModel).symm.trans hCompose)
  obtain ⟨order, hOrder, hOrderName, hColumns, hFile⟩ :
      ∃ s ∈ (Builtin.composed bs shopModel).structs, s.name = "Order" ∧
        (Sql.Table.ofStruct (Builtin.composed bs shopModel) s).columnNames =
          ["id", "ShopId", "OrderId"] ∧
        (Sql.Table.ofStruct (Builtin.composed bs shopModel) s).rowFile .postgres = orderFile := by
    decide +kernel
  obtain ⟨trip, hTrip, hTripName, hKey, hStatements⟩ :
      ∃ s ∈ (Builtin.composed bs shopModel).structs, s.name = "Trip" ∧
        (Sql.Table.ofStruct (Builtin.composed bs shopModel) s).columnNames = ["id"] ∧
        (Sql.Table.ofStruct (Builtin.composed bs shopModel) s).rowStatements .mysql =
          [("insert", "INSERT INTO `Trip` () VALUES ();"),
            ("delete", "DELETE FROM `Trip` WHERE `id` = ?;"),
            ("load_by_id", "SELECT `id` FROM `Trip` WHERE `id` = ?;")] := by
    decide +kernel
  obtain ⟨_, hOrderTable, rfl, -, -, -, hOrderFile⟩ := hAll order hOrder
  obtain ⟨_, hTripTable, rfl, -, -, -, hTripFile⟩ := hAll trip hTrip
  rw [hOrderName] at hOrderFile
  rw [hTripName] at hTripFile
  exact ⟨compile_shopSource, _, hBs, _, _, es, hCompose, hEs,
    ⟨_, hOrderTable, hColumns, hFile, hFile ▸ hOrderFile es hEs⟩,
    ⟨_, hTripTable, hKey, hStatements, hTripFile es hEs⟩⟩

end EntitySchema
