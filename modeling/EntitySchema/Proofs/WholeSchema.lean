import EntitySchema.Proofs.FilteredQueries

/-!
The tables of a schema as one text. It is taken from the files that SQL emits, as the first that has
the name of the file with all tables. The main result is that this is the whole text, one table for
every struct in the order of dependencies, exactly if no struct has that name itself; the file of
such a struct comes first and is taken in its place.
-/

namespace EntitySchema

namespace Sql

variable {o : Options} {d : Dialect} {model : Model} {s : Struct} {n : String}

/-! ## The files without queries -/

/-- The file of every table, and last the file with all tables. -/
def tableFiles (d : Dialect) (model : Model) : List Artifact :=
  (orderedStructs model).map (tableFile d model) ++ [⟨schemaFile, schemaText d (tables model)⟩]

theorem emit_eq_of_off (hOff : o.filteredQueries = false) :
    emit o model = .ok (tableFiles o.dialect model) := by
  have hStructs : (orderedStructs model).mapM (structArtifacts o model) =
      .ok ((orderedStructs model).map (fun s => [tableFile o.dialect model s])) := by
    rw [mapM_eq_ok_iff, List.forall₂_map_right_iff, List.forall₂_same]
    intro s _
    simp [structArtifacts, hOff, tableFile]
  unfold emit tableFiles
  rw [hStructs]
  simp [bind, Except.bind, ← List.flatMap_def, ← List.map_eq_flatMap]

/-- The order of emission does not matter for what a name stands for. -/
theorem find?_orderedStructs (hNames : model.structNames.Nodup) :
    (orderedStructs model).find? (fun s => s.name == n) = model.struct? n := by
  cases hFound : model.struct? n with
  | none =>
    rw [List.find?_eq_none]
    intro s hs hName
    have hs := (mem_orderedStructs hNames).1 hs
    rw [Model.struct?_eq_none_iff] at hFound
    exact hFound (beq_iff_eq.1 hName ▸ List.mem_map_of_mem hs)
  | some s =>
    have hs := (mem_orderedStructs hNames).2 (Model.struct?_mem hFound)
    cases hFirst : (orderedStructs model).find? (fun s => s.name == n) with
    | none =>
      have hNone := List.find?_eq_none.1 hFirst s hs
      simp [Model.struct?_name hFound] at hNone
    | some t =>
      have ht := (mem_orderedStructs hNames).1 (List.mem_of_find?_eq_some hFirst)
      have hName : t.name = s.name := by
        rw [Model.struct?_name hFound]
        simpa using List.find?_some hFirst
      rw [List.inj_on_of_nodup_map hNames ht (Model.struct?_mem hFound) hName]

/-- Only a struct of the same name has a file with the name of the file with all tables. -/
theorem same_schemaFile (hName : '/' ∉ s.name.toList) :
    (tableFile d model s).path.same schemaFile = (s.name == "schema") := by
  have hSlash : '/' ∉ (s.name ++ ".sql").toList := by simpa using hName
  have hLong : 2 < (s.name ++ ".sql").toList.length := by
    rw [String.toList_append, List.length_append]
    exact Nat.lt_add_left _ (by decide)
  have hStruct : (tableFile d model s).path.components = [.name (s.name ++ ".sql")] :=
    Path.components_of_name hSlash hLong
  have hSchema : schemaFile.components = [.name ("schema" ++ ".sql")] := by
    decide
  rw [Path.same, hStruct, hSchema, Bool.eq_iff_iff, beq_iff_eq, beq_iff_eq, List.singleton_inj,
    Path.Component.name.injEq]
  exact String.append_left_inj ".sql"

/-- The first file with the name of the file with all tables. -/
theorem find?_schemaFile (hNames : model.structNames.Nodup)
    (hSlashes : ∀ s ∈ model.structs, '/' ∉ s.name.toList) :
    (tableFiles d model).find? (fun a => a.path.same schemaFile) =
      some (((model.struct? "schema").map (tableFile d model)).getD
        ⟨schemaFile, schemaText d (tables model)⟩) := by
  have hStructs : (orderedStructs model).find?
      (fun s => (tableFile d model s).path.same schemaFile) = model.struct? "schema" := by
    rw [← find?_orderedStructs hNames, ← List.head?_filter, ← List.head?_filter,
      List.filter_congr]
    intro s hs
    exact same_schemaFile (hSlashes s ((mem_orderedStructs hNames).1 hs))
  have hLast : ∀ text, [Artifact.mk schemaFile text].find? (fun a => a.path.same schemaFile) =
      some ⟨schemaFile, text⟩ := by
    simp [Path.same]
  rw [tableFiles, List.find?_append, List.find?_map, hLast]
  simp only [Function.comp_def, hStructs]
  cases model.struct? "schema" <;> rfl

/-- After the header the file of a struct goes on with what it requires, or an empty line; the file
with all tables goes on with the dialect. -/
theorem structFile_ne_schemaText (tables : List Table) :
    structFile d model s ≠ schemaText d tables := by
  intro h
  have hChars := congrArg String.toList h
  unfold structFile schemaText at hChars
  simp only [String.toList_append, List.append_assoc, List.append_cancel_left_eq] at hChars
  cases hRequired : s.requirements with
  | nil => simp [hRequired] at hChars
  | cons r rest => simp [hRequired] at hChars

end Sql

/-! ## The text of a schema -/

namespace Builtin

/-- One generator alone emits its own files under its name. -/
theorem emit_alone {b : Builtin} {model : Model} {registry : Registry} {as : List Artifact}
    (h : Engine.artifactsOf ((Engine.mk [b.generator]).context registry) model b.generator =
      .ok as) :
    (Engine.mk [b.generator]).emit model registry = .ok (as.map (Engine.Emitted.mk b.name)) := by
  simp [Engine.emit, h, generator_name, bind, Except.bind, pure, Except.pure]

end Builtin

theorem register_sql (d : Sql.Dialect) :
    Engine.register {} (Sql.generator { dialect := d }) =
      .ok ⟨[Sql.generator { dialect := d }]⟩ := by
  have hPlain : Engine.isPlainName (Sql.generator { dialect := d }).name = true :=
    Builtin.isPlainName_name (.sql { dialect := d })
  simp [Engine.register, hPlain, Engine.names]

theorem compose_sql (d : Sql.Dialect) (model : Model) :
    (Engine.mk [Sql.generator { dialect := d }]).compose model =
      (Builtin.composed [.sql { dialect := d }] model,
        .ok (Builtin.registryOf [.sql { dialect := d }])) :=
  Builtin.compose_eq_composed [.sql { dialect := d }] model

theorem generate_sql (d : Sql.Dialect) (model : Model) :
    (Engine.mk [Sql.generator { dialect := d }]).generate model =
      .ok ((Sql.tableFiles d (Builtin.composed [.sql { dialect := d }] model)).map
        (Engine.Emitted.mk "sql")) := by
  rw [Engine.generate, compose_sql]
  apply Builtin.emit_alone (b := .sql { dialect := d })
  rw [Engine.artifactsOf_eq_emit rfl]
  exact Sql.emit_eq_of_off (o := { dialect := d }) rfl

theorem sqlComposition_alone {source : String} {files : FileSystem} {model : Model}
    (h : compile source files = .ok model) (d : Sql.Dialect) :
    SqlComposition model (Builtin.composed [.sql { dialect := d }] model) :=
  sqlComposition_of_compile h (List.nodup_singleton _) List.mem_cons_self

/-- What is taken for the text of a schema: the file of the struct that has the name of the file
with all tables, if there is one. -/
theorem schemaToSql_eq {source : String} {files : FileSystem} {model : Model}
    (h : compile source files = .ok model) (d : Sql.Dialect) {composed : Model}
    (hComposed : composed = Builtin.composed [.sql { dialect := d }] model) :
    schemaToSql source d files =
      .ok (((composed.struct? "schema").map (Sql.structFile d composed)).getD
        (Sql.schemaText d (Sql.tables composed))) := by
  have hComposition : SqlComposition model composed := hComposed ▸ sqlComposition_alone h d
  have hSlashes : ∀ s ∈ composed.structs, '/' ∉ s.name.toList :=
    fun s hs => (hComposition.isPlain hs).1 '/' (by decide) (by decide)
  have hFind := Sql.find?_schemaFile (d := d) hComposition.structNames hSlashes
  unfold schemaToSql
  simp only [h, register_sql, generate_sql, ← hComposed, bind, Except.bind, List.find?_map,
    Function.comp_def, hFind, Option.map_some, Option.getD_some]
  cases composed.struct? "schema" <;> rfl

/-- The text of a checked schema, in any dialect. There always is one. It is the header with the
dialect and one table for every struct, in the order of dependencies, exactly if no struct is named
like the file that it is looked for by. If one is, the text is the file of that struct. -/
theorem schemaToSql_whole_iff {source : String} {files : FileSystem} {model : Model}
    (h : compile source files = .ok model) (d : Sql.Dialect) :
    ∃ engine composed registry,
      Engine.register {} (Sql.generator { dialect := d }) = .ok engine ∧
      engine.compose model = (composed, .ok registry) ∧
      ∃ text, ∃ ordered : List Struct, schemaToSql source d files = .ok text ∧
        ordered.Perm composed.structs ∧
        ordered.map Struct.name = (StructGraph.ofModel composed).ordered ∧
        (text = "-- Generated by schemagen. Do not edit.\n" ++ "-- dialect: " ++ d.name ++ "\n" ++
            String.join (ordered.map (fun s => "\n" ++ (Sql.Table.ofStruct composed s).render d)) ↔
          "schema" ∉ model.structNames) ∧
        ∀ s ∈ composed.structs, s.name = "schema" → text = Sql.structFile d composed s := by
  obtain ⟨composed, hComposed⟩ : ∃ composed,
    composed = Builtin.composed [.sql { dialect := d }] model := ⟨_, rfl⟩
  have hComposition : SqlComposition model composed := hComposed ▸ sqlComposition_alone h d
  have hNames := hComposition.structNames
  have hCompose := compose_sql d model
  rw [← hComposed] at hCompose
  have hWhole : Sql.schemaText d (Sql.tables composed) =
      "-- Generated by schemagen. Do not edit.\n" ++ "-- dialect: " ++ d.name ++ "\n" ++
        String.join ((Sql.orderedStructs composed).map
          (fun s => "\n" ++ (Sql.Table.ofStruct composed s).render d)) := by
    rw [Sql.schemaText, Sql.tables, List.map_map]
    rfl
  refine ⟨_, composed, _, register_sql d, hCompose, _, Sql.orderedStructs composed,
    schemaToSql_eq h d hComposed, Sql.perm_orderedStructs hNames, Sql.name_orderedStructs composed,
    ?_, ?_⟩
  · rw [← hWhole, ← hComposition.grows.structNames, ← Model.struct?_eq_none_iff]
    cases composed.struct? "schema" with
    | none => simp
    | some s => simpa using Sql.structFile_ne_schemaText (Sql.tables composed)
  · intro s hs hName
    have hFound := Model.struct?_of_mem hNames hs
    rw [hName] at hFound
    rw [hFound]
    rfl

/-- No struct of the shop is named like the file, so its text has all tables. -/
theorem shop_schemaToSql_whole :
    compile shopSource = .ok shopModel ∧
      ∃ engine composed registry,
        Engine.register {} (Sql.generator { dialect := .mysql }) = .ok engine ∧
        engine.compose shopModel = (composed, .ok registry) ∧
        ∃ ordered : List Struct, ordered.Perm composed.structs ∧
          ordered.map Struct.name = (StructGraph.ofModel composed).ordered ∧
          schemaToSql shopSource .mysql = .ok ("-- Generated by schemagen. Do not edit.\n" ++
            "-- dialect: " ++ "mysql" ++ "\n" ++ String.join (ordered.map
              (fun s => "\n" ++ (Sql.Table.ofStruct composed s).render .mysql))) := by
  obtain ⟨engine, composed, registry, hRegister, hCompose, text, ordered, hText, hPerm, hOrder,
    hWhole, -⟩ := schemaToSql_whole_iff compile_shopSource .mysql
  have hName : "schema" ∉ shopModel.structNames := by decide
  exact ⟨compile_shopSource, engine, composed, registry, hRegister, hCompose, ordered, hPerm,
    hOrder, by rw [hText, hWhole.2 hName]; rfl⟩

/-- A struct with the name of the file is all that is found: its table with the statements on its
rows, and no dialect. -/
theorem schema_struct_hides_tables :
    ∃ model engine composed registry s text,
      compile "struct schema \x7b bool: x; \x7d" = .ok model ∧
      Engine.register {} (Sql.generator { dialect := .sqlite }) = .ok engine ∧
      engine.compose model = (composed, .ok registry) ∧ composed.structs = [s] ∧
      schemaToSql "struct schema \x7b bool: x; \x7d" .sqlite = .ok text ∧
      text = Sql.structFile .sqlite composed s ∧
      text ≠ "-- Generated by schemagen. Do not edit.\n" ++ "-- dialect: " ++ "sqlite" ++ "\n" ++
        String.join ["\n" ++ (Sql.Table.ofStruct composed s).render .sqlite] := by
  obtain ⟨model, h, hSchema⟩ := exists_of_any_compile
    "struct schema \x7b bool: x; \x7d" (fun model => model.structNames == ["schema"])
    (by decide +kernel)
  obtain ⟨composed, hComposed⟩ : ∃ composed,
    composed = Builtin.composed [.sql { dialect := .sqlite }] model := ⟨_, rfl⟩
  have hCompose := compose_sql .sqlite model
  rw [← hComposed] at hCompose
  have hGrows : model.Grows composed := hComposed ▸ Builtin.grows_composed _ model
  obtain ⟨s, hs, hName⟩ : ∃ s, composed.structs = [s] ∧ s.name = "schema" := by
    rw [← List.map_eq_singleton_iff]
    exact hGrows.structNames.trans (beq_iff_eq.1 hSchema)
  have hFound : composed.struct? "schema" = some s := by
    simp [Model.struct?, hs, hName]
  have hText := schemaToSql_eq h .sqlite hComposed
  rw [hFound] at hText
  exact ⟨model, _, composed, _, s, _, h, register_sql .sqlite, hCompose, hs, hText, rfl,
    Sql.structFile_ne_schemaText [Sql.Table.ofStruct composed s]⟩

end EntitySchema
