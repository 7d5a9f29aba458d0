import EntitySchema.Proofs.SchemaDocuments
import EntitySchema.Proofs.SnakeCase
import EntitySchema.Proofs.TableOrder
import EntitySchema.Proofs.Writing

/-!
The names of the files that generators emit. Each generator has its own scheme: SQL puts an ending
after the name of a struct, beside one file for all tables, and Rust writes names in snake case,
beside one module for all others. Names that differ in a schema can therefore meet as names of
files, and the main result says exactly when they do. If they do not, every artifact is written to a
file of its own.
-/

namespace EntitySchema

/-! ## Paths of one name -/

namespace Path

theorem components_of_name {n : String} (hSlash : '/' ∉ n.toList) (hLong : 2 < n.toList.length) :
    (Path.mk n).components = [.name n] := by
  have hSegments : (Path.mk n).segments = [n.toList] := List.splitOn_eq_singleton hSlash
  have hComponent : component? n.toList = some (.name n) := by
    unfold component? isVoid
    rw [if_neg, if_neg, String.ofList_toList]
    · intro h
      simp [h] at hLong
    · intro h
      rw [Bool.or_eq_true, beq_iff_eq, beq_iff_eq] at h
      rcases h with h | h <;> simp [h] at hLong
  unfold components
  rw [hSegments]
  split
  · rename_i h
    simp [List.singleton_inj.1 h] at hLong
  · rename_i h
    simp [(List.cons.inj h).1] at hLong
  · rename_i h
    simp [(List.cons.inj h).1] at hLong
  · rw [List.filterMap_cons_some hComponent, List.filterMap_nil]

/-- Files with an ending of at least three characters are told apart by their names. -/
theorem nodup_components_iff {ns : List String} {ending : String}
    (hSlash : ∀ n ∈ ns, '/' ∉ (n ++ ending).toList) (hLong : 2 < ending.toList.length) :
    (ns.map (fun n => (Path.mk (n ++ ending)).components)).Nodup ↔ ns.Nodup := by
  have hInjective : ∀ n ∈ ns, ∀ n' ∈ ns, (Path.mk (n ++ ending)).components =
      (Path.mk (n' ++ ending)).components → n = n' := by
    intro n hn n' hn' hSame
    have hName : ∀ n ∈ ns, (Path.mk (n ++ ending)).components = [.name (n ++ ending)] := by
      intro n hn
      refine components_of_name (hSlash n hn) ?_
      rw [String.toList_append, List.length_append]
      omega
    rw [hName n hn, hName n' hn', List.singleton_inj] at hSame
    exact (String.append_left_inj ending).1 (Component.name.inj hSame)
  constructor
  · exact fun h => h.of_map
  · exact fun h => h.map_on hInjective

end Path

theorem slash_not_mem_of_isName {n : String} (h : Grammar.isName n = true) : '/' ∉ n.toList :=
  not_mem_of_isName (by decide) (by decide) h

/-! ## Files of SQL -/

namespace Sql

variable {o : Options} {model : Model} {s : Struct}

/-- The name of the file of the filtered queries of a struct, without its ending. A struct that has
only its key has no such file. -/
def queryStems (o : Options) (model : Model) (s : Struct) : List String :=
  if o.filteredQueries && !(valueMembers model s).isEmpty then [s.name ++ "_queries"] else []

/-- The names of all files, without their ending. -/
def stems (o : Options) (model : Model) : List String :=
  (orderedStructs model).flatMap (fun s => s.name :: queryStems o model s) ++ ["schema"]

theorem path_structArtifacts {files : List Artifact} (h : structArtifacts o model s = .ok files) :
    files.map Artifact.path =
      (s.name :: queryStems o model s).map (fun n => ⟨n ++ ".sql"⟩) := by
  unfold structArtifacts at h
  unfold queryStems
  simp only at h
  split at h
  · rename_i hQueries
    obtain ⟨text, _, hFiles⟩ := bind_eq_ok_iff.1 h
    obtain rfl := Except.ok.inj hFiles
    rw [if_pos hQueries]
    simp [String.append_assoc]
  · rename_i hQueries
    obtain rfl := Except.ok.inj h
    rw [if_neg hQueries]
    rfl

theorem path_flatten {ss : List Struct} {files : List (List Artifact)}
    (h : List.Forall₂ (fun s part => structArtifacts o model s = .ok part) ss files) :
    files.flatten.map Artifact.path =
      (ss.flatMap (fun s => s.name :: queryStems o model s)).map (fun n => ⟨n ++ ".sql"⟩) := by
  induction h with
  | nil => rfl
  | cons hStruct _ ih =>
    rw [List.flatten_cons, List.map_append, path_structArtifacts hStruct, ih, List.flatMap_cons,
      List.map_append]

theorem path_emit {as : List Artifact} (h : emit o model = .ok as) :
    as.map Artifact.path = (stems o model).map (fun n => ⟨n ++ ".sql"⟩) := by
  obtain ⟨files, hFiles, hAll⟩ := bind_eq_ok_iff.1 h
  obtain rfl := Except.ok.inj hAll
  rw [List.map_append, path_flatten (mapM_eq_ok_iff.1 hFiles), stems, List.map_append]
  rfl

theorem flatMap_queryStems (ss : List Struct) :
    ss.flatMap (queryStems o model) =
      (ss.filter (fun s => o.filteredQueries && !(valueMembers model s).isEmpty)).map
        (fun s => s.name ++ "_queries") := by
  induction ss with
  | nil => rfl
  | cons s ss ih =>
    rw [List.flatMap_cons, ih, List.filter_cons]
    unfold queryStems
    split <;> rfl

theorem queries_ne_schema (n : String) : n ++ "_queries" ≠ "schema" := by
  intro h
  have hReverse := congrArg (fun s => s.toList.reverse) h
  simp at hReverse

/-- The names of files meet exactly if a struct is named like the file with all tables, or like the
file of the queries of a struct. -/
theorem nodup_stems_iff (hNames : model.structNames.Nodup) :
    (stems o model).Nodup ↔ "schema" ∉ model.structNames ∧
      (o.filteredQueries = true → ∀ s ∈ model.structs, valueMembers model s ≠ [] →
        s.name ++ "_queries" ∉ model.structNames) := by
  have hOrdered := nodup_orderedStructs model
  have hMem : ∀ n, n ∈ (orderedStructs model).map Struct.name ↔ n ∈ model.structNames := by
    intro n
    simp [Model.structNames, mem_orderedStructs hNames]
  have hQueries : ((orderedStructs model).flatMap (queryStems o model)).Nodup := by
    rw [flatMap_queryStems]
    have hAll := hOrdered.map (f := fun n => n ++ "_queries")
      (fun n n' h => (String.append_left_inj "_queries").1 h)
    rw [List.map_map] at hAll
    exact hAll.sublist (List.filter_sublist.map _)
  have hQuery : ∀ n, n ∈ (orderedStructs model).flatMap (queryStems o model) ↔
      o.filteredQueries = true ∧ ∃ s ∈ model.structs, valueMembers model s ≠ [] ∧
        s.name ++ "_queries" = n := by
    intro n
    simp only [flatMap_queryStems, List.mem_map, List.mem_filter, mem_orderedStructs hNames,
      Bool.and_eq_true, Bool.not_eq_true', List.isEmpty_eq_false_iff]
    constructor
    · rintro ⟨s, ⟨hs, hOn, hValues⟩, hName⟩
      exact ⟨hOn, s, hs, hValues, hName⟩
    · rintro ⟨hOn, s, hs, hValues, hName⟩
      exact ⟨s, ⟨hs, hOn, hValues⟩, hName⟩
  -- Structs have different names, and so have their queries; the rest is where they meet.
  have hPerm : (stems o model).Perm ((orderedStructs model).map Struct.name ++
      (orderedStructs model).flatMap (queryStems o model) ++ ["schema"]) :=
    (List.map_append_flatMap_perm _ _ _).symm.append_right _
  rw [hPerm.nodup_iff, List.nodup_append, List.nodup_append]
  constructor
  · rintro ⟨⟨_, _, hApart⟩, _, hSchema⟩
    refine ⟨?_, ?_⟩
    · intro hThere
      exact hSchema _ (List.mem_append_left _ ((hMem _).2 hThere)) _ List.mem_cons_self rfl
    · intro hOn s hs hValues hThere
      exact hApart _ ((hMem _).2 hThere) _ ((hQuery _).2 ⟨hOn, s, hs, hValues, rfl⟩) rfl
  · rintro ⟨hSchema, hApart⟩
    refine ⟨⟨hOrdered, hQueries, ?_⟩, List.nodup_singleton _, ?_⟩
    · intro n hn n' hn' hSame
      obtain ⟨hOn, s, hs, hValues, rfl⟩ := (hQuery n').1 hn'
      exact hApart hOn s hs hValues (hSame ▸ (hMem n).1 hn)
    · intro n hn n' hn' hSame
      obtain rfl := List.mem_singleton.1 hn'
      rcases List.mem_append.1 hn with hn | hn
      · exact hSchema (hSame ▸ (hMem n).1 hn)
      · obtain ⟨_, s, _, _, rfl⟩ := (hQuery n).1 hn
        exact queries_ne_schema s.name hSame

theorem slash_not_mem_stems (hNames : model.structNames.Nodup)
    (hWords : ∀ n ∈ model.structNames, '/' ∉ n.toList) :
    ∀ n ∈ stems o model, '/' ∉ (n ++ ".sql").toList := by
  intro n hn
  have hStruct : ∀ s ∈ orderedStructs model, '/' ∉ s.name.toList := by
    intro s hs
    exact hWords s.name (List.mem_map_of_mem ((mem_orderedStructs hNames).1 hs))
  rw [stems, List.mem_append, List.mem_flatMap, List.mem_singleton] at hn
  rcases hn with ⟨s, hs, hn⟩ | rfl
  · have hs := hStruct s hs
    unfold queryStems at hn
    rcases List.mem_cons.1 hn with rfl | hn
    · simpa using hs
    · split at hn
      · rw [List.mem_singleton.1 hn]
        simpa using hs
      · cases hn
  · decide

end Sql

/-! ## Files of Rust -/

namespace Rust

open Text

variable {a b : String}

/-- The name of the file of a module, without its ending. -/
def stem (entity : String) : String :=
  if pathKeywords.contains (snakeCase entity) then snakeCase entity ++ "_" else snakeCase entity

theorem withoutRawMark_eq_self {cs : List Char} (h : '#' ∉ cs) : withoutRawMark cs = cs := by
  unfold withoutRawMark
  split
  · simp at h
  · rfl

/-- The mark of a raw name is taken off again, since no name in snake case has one. -/
theorem fileName_eq (entity : String) : fileName entity = stem entity ++ ".rs" := by
  have hMark := not_mem_snakeCase (c := '#') (by decide) (by decide) entity
  unfold fileName identifier stem
  simp only
  split
  · rw [withoutRawMark_eq_self, String.ofList_toList]
    simpa using hMark
  · split
    · have hRaw : ("r#" ++ snakeCase entity).toList = 'r' :: '#' :: (snakeCase entity).toList := by
        simp
      rw [hRaw, withoutRawMark, withoutRawMark_eq_self hMark, String.ofList_toList]
    · rw [withoutRawMark_eq_self hMark, String.ofList_toList]

/-- Files are told apart by names in snake case: what a keyword gets at its end stands at the end of
no other name. -/
theorem stem_eq_iff : stem a = stem b ↔ snakeCase a = snakeCase b := by
  constructor
  · intro h
    unfold stem at h
    split at h
    · split at h
      · exact (String.append_left_inj "_").1 h
      · exact absurd h (snakeCase_append_ne a b)
    · split at h
      · exact absurd h.symm (snakeCase_append_ne b a)
      · exact h
  · intro h
    rw [stem, stem, h]

theorem slash_not_mem_fileName (entity : String) : '/' ∉ (stem entity ++ ".rs").toList := by
  have hSlash := not_mem_snakeCase (c := '/') (by decide) (by decide) entity
  unfold stem
  split <;> simpa using hSlash

/-- The names of the modules beside the root module. -/
def moduleNames (registry : Registry) (model : Model) : List String :=
  registry.capabilities.map Capability.name ++ model.enums.map Enumeration.name ++ model.structNames

theorem stem_mod : stem "mod" = "mod" := by
  decide +kernel

theorem headers_eq {cx : Context} {cs : List Capability} {headers : List (Option Artifact)}
    (h : List.Forall₂ (fun c header => generator.emitCapability cx c = .ok header) cs headers) :
    headers = cs.map (fun c => some (artifact c.name (capabilityModule c))) := by
  induction h with
  | nil => rfl
  | cons hFirst _ ih => rw [List.map_cons, ← ih, ← Except.ok.inj hFirst]

theorem path_artifactsOf {cx : Context} {model : Model} {as : List Artifact}
    (h : Engine.artifactsOf cx model generator = .ok as) :
    as.map Artifact.path =
      ((moduleNames cx.registry model ++ ["mod"]).map stem).map (fun n => ⟨n ++ ".rs"⟩) := by
  obtain ⟨headers, hHeaders, hAll⟩ := bind_eq_ok_iff.1 h
  obtain rfl := Except.ok.inj hAll
  rw [headers_eq (mapM_eq_ok_iff.1 hHeaders)]
  simp [moduleNames, emit, artifact, fileName_eq, stem_mod, Model.structNames, Function.comp_def]

/-- Modules meet exactly if their names are the same in snake case. -/
theorem nodup_stems_iff {names : List String} :
    ((names ++ ["mod"]).map stem).Nodup ↔ ("mod" :: names.map snakeCase).Nodup := by
  have hMod : snakeCase "mod" = "mod" := by decide +kernel
  have hPerm : (names ++ ["mod"]).Perm ("mod" :: names) := List.perm_append_singleton _ _
  rw [(hPerm.map stem).nodup_iff, ← hMod, ← List.map_cons (f := snakeCase)]
  simp only [List.Nodup, List.pairwise_map, ne_eq, stem_eq_iff]
  rw [hMod]

end Rust

/-! ## Files of all generators -/

namespace Engine

/-- Files of one generator have different names exactly if the pairs of a generator and a name are
different. -/
theorem nodup_places_iff {es : List Emitted} :
    (es.map (fun e => (e.generator, e.artifact.path.components))).Nodup ↔
      ∀ n, ((es.filter (fun e => e.generator == n)).map
        (fun e => e.artifact.path.components)).Nodup := by
  simp only [List.Nodup, List.pairwise_map, List.pairwise_filter, beq_iff_eq]
  constructor
  · intro h n
    refine h.imp ?_
    intro e e' hPair hn hn' hSame
    exact hPair (Prod.ext (hn.trans hn'.symm) hSame)
  · intro h
    rw [List.pairwise_iff_forall_sublist]
    intro e e' hBoth hPair
    obtain ⟨hGenerator, hPath⟩ := Prod.mk.inj hPair
    exact List.pairwise_iff_forall_sublist.1 (h e'.generator) hBoth hGenerator rfl hPath

end Engine

namespace Builtin

/-- Only JSON Schema asks structs for a capability. -/
theorem capabilities_registryOf (bs : List Builtin) :
    (registryOf bs).capabilities.map Capability.name =
      if jsonSchema ∈ bs then ["JsonSerializable"] else [] := by
  let c : Capability := ⟨JsonSchema.generatorName, JsonSchema.capability⟩
  -- At any time the capability is there once or not at all.
  have go : ∀ (bs : List Builtin) (r : Registry), r.capabilities = [] ∨ r.capabilities = [c] →
      (((bs.map generator).filterMap Engine.declared?).foldl Registry.insert r).capabilities =
        if jsonSchema ∈ bs then [c] else r.capabilities := by
    intro bs
    induction bs with
    | nil => exact fun _ _ => rfl
    | cons b bs ih =>
      intro r hr
      cases b with
      | sql | rust =>
        refine (ih r hr).trans ?_
        simp
      | jsonSchema =>
        have hInsert : (r.insert c).capabilities = [c] := by
          rcases hr with hr | hr <;> simp [Registry.insert, Registry.get?, hr]
        refine (ih (r.insert c) (.inr hInsert)).trans ?_
        simp [hInsert]
  rw [registryOf, Engine.registry, go bs {} (.inl rfl)]
  split <;> rfl

end Builtin

/-- The names of a composed model do not meet as names of files. -/
structure FilesDiffer (bs : List Builtin) (composed : Model) : Prop where
  /-- No struct is named like the file with all tables. -/
  tables : ∀ o, .sql o ∈ bs → "schema" ∉ composed.structNames
  /-- No struct is named like the file of the filtered queries of a struct, which every struct has
  that has a column besides its key. -/
  queries : ∀ o, .sql o ∈ bs → o.filteredQueries = true → ∀ s ∈ composed.structs,
    Sql.valueMembers composed s ≠ [] → s.name ++ "_queries" ∉ composed.structNames
  /-- The modules have different names in snake case, and none is that of the root module. -/
  modules : .rust ∈ bs → ("mod" :: ((if .jsonSchema ∈ bs then ["JsonSerializable"] else []) ++
    composed.enums.map Enumeration.name ++ composed.structNames).map Text.snakeCase).Nodup

namespace Builtin

variable {bs : List Builtin} {model : Model} {es : List Engine.Emitted}

/-- The paths under the name of a generator are those that it emits. -/
theorem emit_components (hDistinct : (bs.map name).Nodup) {registry : Registry}
    (h : (Engine.mk (bs.map generator)).emit model registry = .ok es) {b : Builtin} (hb : b ∈ bs) :
    ∃ as, Engine.artifactsOf ((Engine.mk (bs.map generator)).context registry) model b.generator =
        .ok as ∧
      (es.filter (fun e => e.generator == b.name)).map (fun e => e.artifact.path.components) =
        (as.map Artifact.path).map Path.components := by
  obtain ⟨as, has, hFiles⟩ := emit_filter hDistinct h hb
  refine ⟨as, has, ?_⟩
  rw [hFiles, List.map_map, List.map_map]
  rfl

theorem nodup_sql_iff (hDistinct : (bs.map name).Nodup) (hNames : model.structNames.Nodup)
    (hWords : ∀ n ∈ model.structNames, '/' ∉ n.toList)
    (h : (Engine.mk (bs.map generator)).emit model (registryOf bs) = .ok es) {o : Sql.Options}
    (ho : sql o ∈ bs) :
    ((es.filter (fun e => e.generator == "sql")).map
        (fun e => e.artifact.path.components)).Nodup ↔
      "schema" ∉ model.structNames ∧
        (o.filteredQueries = true → ∀ s ∈ model.structs, Sql.valueMembers model s ≠ [] →
          s.name ++ "_queries" ∉ model.structNames) := by
  obtain ⟨as, has, hFiles⟩ := emit_components hDistinct h ho
  rw [Engine.artifactsOf_eq_emit rfl] at has
  rw [Sql.path_emit has, List.map_map] at hFiles
  rw [← Sql.nodup_stems_iff hNames]
  exact hFiles ▸ Path.nodup_components_iff (Sql.slash_not_mem_stems hNames hWords) (by decide)

theorem nodup_rust_iff (hDistinct : (bs.map name).Nodup)
    (h : (Engine.mk (bs.map generator)).emit model (registryOf bs) = .ok es) (hb : rust ∈ bs) :
    ((es.filter (fun e => e.generator == "rust")).map
        (fun e => e.artifact.path.components)).Nodup ↔
      ("mod" :: ((if jsonSchema ∈ bs then ["JsonSerializable"] else []) ++
        model.enums.map Enumeration.name ++ model.structNames).map Text.snakeCase).Nodup := by
  obtain ⟨as, has, hFiles⟩ := emit_components hDistinct h hb
  rw [Rust.path_artifactsOf has, List.map_map] at hFiles
  rw [← capabilities_registryOf, ← Rust.nodup_stems_iff]
  refine hFiles ▸ Path.nodup_components_iff ?_ (by decide)
  intro n hn
  obtain ⟨entity, _, rfl⟩ := List.mem_map.1 hn
  exact Rust.slash_not_mem_fileName entity

theorem nodup_jsonSchema (hDistinct : (bs.map name).Nodup) (hNames : model.names.Nodup)
    (hWords : ∀ n ∈ model.names, '/' ∉ n.toList)
    (h : (Engine.mk (bs.map generator)).emit model (registryOf bs) = .ok es)
    (hb : jsonSchema ∈ bs) :
    ((es.filter (fun e => e.generator == "json_schema")).map
      (fun e => e.artifact.path.components)).Nodup := by
  obtain ⟨as, has, hFiles⟩ := emit_components hDistinct h hb
  rw [Engine.artifactsOf_eq_emit rfl] at has
  obtain rfl := Except.ok.inj has
  have hPaths : ((JsonSchema.documents model).map JsonSchema.Document.artifact).map Artifact.path =
      model.names.map (fun n => ⟨n ++ ".schema.json"⟩) := by
    rw [← JsonSchema.name_documents, List.map_map, List.map_map]
    rfl
  rw [hPaths, List.map_map] at hFiles
  refine hFiles ▸ (Path.nodup_components_iff ?_ (by decide)).2 hNames
  intro n hn
  simpa using hWords n hn

theorem exists_generator_of_mem (h : (Engine.mk (bs.map generator)).emit model (registryOf bs) =
    .ok es) {e : Engine.Emitted} (he : e ∈ es) : ∃ b ∈ bs, e.generator = b.name := by
  obtain ⟨parts, hParts, rfl⟩ := Engine.emit_eq_ok h
  by_contra hNone
  have hOther : e.generator ∉ (bs.map generator).map Generator.name := by
    simp only [List.map_map, List.mem_map, Function.comp_apply, generator_name]
    exact fun ⟨b, hb, hName⟩ => hNone ⟨b, hb, hName.symm⟩
  have hNil := hParts.filter_eq_nil hOther
  rw [List.filter_eq_nil_iff] at hNil
  exact hNil e he (beq_self_eq_true _)

/-- Whether the names of files meet is told from each generator alone. -/
theorem nodup_places_iff (hDistinct : (bs.map name).Nodup) (hNames : model.names.Nodup)
    (hWords : ∀ n ∈ model.names, '/' ∉ n.toList)
    (h : (Engine.mk (bs.map generator)).emit model (registryOf bs) = .ok es) :
    (es.map (fun e => (e.generator, e.artifact.path.components))).Nodup ↔
      FilesDiffer bs model := by
  have hStructs : model.structNames.Nodup := (List.nodup_append.1 hNames).1
  have hStructWords : ∀ n ∈ model.structNames, '/' ∉ n.toList :=
    fun n hn => hWords n (List.mem_append_left _ hn)
  have hSql := fun {o} => nodup_sql_iff (o := o) hDistinct hStructs hStructWords h
  rw [Engine.nodup_places_iff]
  constructor
  · intro hAll
    refine ⟨?_, ?_, ?_⟩
    · exact fun o ho => ((hSql ho).1 (hAll _)).1
    · exact fun o ho => ((hSql ho).1 (hAll _)).2
    · exact fun hb => (nodup_rust_iff hDistinct h hb).1 (hAll _)
  · intro hDiffer n
    by_cases hn : n ∈ bs.map name
    · obtain ⟨b, hb, rfl⟩ := List.mem_map.1 hn
      cases b with
      | sql o => exact (hSql hb).2 ⟨hDiffer.tables o hb, hDiffer.queries o hb⟩
      | jsonSchema => exact nodup_jsonSchema hDistinct hNames hWords h hb
      | rust => exact (nodup_rust_iff hDistinct h hb).2 (hDiffer.modules hb)
    · -- No other generator has emitted anything.
      have hNil : es.filter (fun e => e.generator == n) = [] := by
        rw [List.filter_eq_nil_iff]
        intro e he hName
        obtain ⟨b, hb, hOf⟩ := exists_generator_of_mem h he
        exact hn (List.mem_map.2 ⟨b, hb, by rw [← hOf, beq_iff_eq.1 hName]⟩)
      rw [hNil]
      exact List.nodup_nil

theorem components_name (b : Builtin) : (Path.mk b.name).components = [.name b.name] := by
  have hName : '/' ∉ b.name.toList ∧ 2 < b.name.toList.length := by
    cases b <;> simp [name, Sql.generatorName, JsonSchema.generatorName, Rust.generatorName]
  exact Path.components_of_name hName.1 hName.2

/-- Different paths below the directories of generators are different places below the root. -/
theorem nodup_place
    (h : (Engine.mk (bs.map generator)).emit model (registryOf bs) = .ok es)
    (hNodup : (es.map (fun e => (e.generator, e.artifact.path.components))).Nodup) :
    (es.map Engine.Emitted.place).Nodup := by
  rw [List.Nodup, List.pairwise_map] at hNodup ⊢
  refine hNodup.imp_of_mem ?_
  intro e e' he he' hPair hSame
  obtain ⟨b, _, hOf⟩ := exists_generator_of_mem h he
  obtain ⟨b', _, hOf'⟩ := exists_generator_of_mem h he'
  rw [Engine.Emitted.place, Engine.Emitted.place, hOf, hOf', components_name, components_name,
    List.singleton_append, List.singleton_append, List.cons.injEq] at hSame
  apply hPair
  rw [hOf, hOf', Path.Component.name.inj hSame.1, hSame.2]

end Builtin

/-- The files that generators of the program emit for a checked schema. Two of them have the same
path in the directory of one generator exactly if names of the schema meet as names of files. If
none do, whatever is written is written to a file of its own, and the file holds it in the end. -/
theorem files_differ_iff {source : String} {files : FileSystem} {model : Model}
    (h : compile source files = .ok model) {bs : List Builtin} {engine : Engine}
    (hBs : Builtin.register bs = .ok engine) :
    ∃ composed registry, engine.compose model = (composed, .ok registry) ∧
      ∀ es, engine.emit composed registry = .ok es →
        ((es.map (fun e => (e.generator, e.artifact.path.components))).Nodup ↔
          FilesDiffer bs composed) ∧
        (FilesDiffer bs composed → ∀ tree root tree' paths,
          Engine.write tree root es = (tree', .ok paths) →
            paths = es.map (fun e => e.target root) ∧
            ∃ locations : List Location, locations.Nodup ∧
              List.Forall₂ (fun e l => tree'.locate (e.target root) = .ok l ∧
                tree'.entry? l = some (.file (.text e.artifact.contents))) es locations) := by
  obtain ⟨hDistinct, rfl⟩ := Builtin.register_eq_ok_iff.1 hBs
  have hModel := Printer.consistent_of_readModel (Printer.compile_eq_ok h).1
  have hNames := (Builtin.grows_composed bs model).names
  have hWords : ∀ n ∈ model.names, '/' ∉ n.toList := by
    intro n hn
    rcases List.mem_append.1 hn with hn | hn
    · obtain ⟨s, hs, rfl⟩ := List.mem_map.1 hn
      exact slash_not_mem_of_isName (hModel.structs s hs).name
    · obtain ⟨e, he, rfl⟩ := List.mem_map.1 hn
      exact slash_not_mem_of_isName (hModel.enums e he).name
  refine ⟨Builtin.composed bs model, Builtin.registryOf bs, Builtin.compose_eq_composed bs model,
    fun es hEs => ?_⟩
  have hIff := Builtin.nodup_places_iff hDistinct (hNames ▸ hModel.names) (hNames ▸ hWords) hEs
  refine ⟨hIff, ?_⟩
  intro hDiffer tree root tree' paths hWrite
  refine Engine.write_one_file_each ?_ (Builtin.nodup_place hEs (hIff.2 hDiffer)) hWrite
  intro e he
  obtain ⟨b, _, hOf⟩ := Builtin.exists_generator_of_mem hEs he
  exact hOf ▸ b.isPlainName_name

/-- Structs with files of SQL and of JSON Schema and with modules. -/
theorem shop_files_differ :
    compile shopSource = .ok shopModel ∧
      ∃ engine, Builtin.register [.sql {}, .jsonSchema, .rust] = .ok engine ∧
        ∃ composed registry es, engine.compose shopModel = (composed, .ok registry) ∧
          engine.emit composed registry = .ok es ∧
          FilesDiffer [.sql {}, .jsonSchema, .rust] composed ∧
          (es.map (fun e => (e.generator, e.artifact.path.components))).Nodup := by
  let bs : List Builtin := [.sql {}, .jsonSchema, .rust]
  have hBs : Builtin.register bs = .ok ⟨bs.map Builtin.generator⟩ :=
    Builtin.register_eq_ok_iff.2 ⟨by decide, rfl⟩
  obtain ⟨es, hEs⟩ := Builtin.generate_isOk hBs (by simp [bs]) shopModel
  obtain ⟨composed, registry, hCompose, hAll⟩ := files_differ_iff compile_shopSource hBs
  rw [Engine.generate, hCompose] at hEs
  obtain ⟨rfl, -⟩ := Prod.mk.inj ((Builtin.compose_eq_composed bs shopModel).symm.trans hCompose)
  have hDiffer : FilesDiffer bs (Builtin.composed bs shopModel) := by
    refine ⟨fun _ _ => by decide +kernel, ?_, fun _ => by decide +kernel⟩
    intro o ho hOn
    obtain rfl : o = {} := by simpa [bs] using ho
    cases hOn
  exact ⟨compile_shopSource, _, hBs, _, _, es, hCompose, hEs, hDiffer, (hAll es hEs).1.2 hDiffer⟩

/-- A struct may have the name of the file with all tables, which then takes the place of the file
of the struct. -/
theorem schema_struct_meets_tables :
    ∃ model engine composed registry es,
      compile "struct schema \x7b bool: x; \x7d" = .ok model ∧
      Builtin.register [.sql {}] = .ok engine ∧ engine.compose model = (composed, .ok registry) ∧
      engine.emit composed registry = .ok es ∧
      ¬ (es.map (fun e => (e.generator, e.artifact.path.components))).Nodup := by
  obtain ⟨model, hCompile, hShows⟩ := exists_of_any_compile "struct schema \x7b bool: x; \x7d"
    (fun model => decide (
      let composed := Builtin.composed [.sql {}] model
      composed.names.Nodup ∧ (∀ n ∈ composed.names, '/' ∉ n.toList) ∧
        "schema" ∈ composed.structNames)) (by decide +kernel)
  obtain ⟨hNames, hWords, hSchema⟩ := of_decide_eq_true hShows
  let bs : List Builtin := [.sql {}]
  have hDistinct : (bs.map Builtin.name).Nodup := List.nodup_singleton _
  have hBs : Builtin.register bs = .ok ⟨bs.map Builtin.generator⟩ :=
    Builtin.register_eq_ok_iff.2 ⟨hDistinct, rfl⟩
  obtain ⟨es, hEs⟩ := Builtin.generate_isOk hBs (by simp [bs]) model
  rw [Engine.generate, Builtin.compose_eq_composed] at hEs
  refine ⟨model, _, _, _, es, hCompile, hBs, Builtin.compose_eq_composed bs model, hEs, ?_⟩
  rw [Builtin.nodup_places_iff hDistinct hNames hWords hEs]
  exact fun hDiffer => hDiffer.tables {} List.mem_cons_self hSchema

end EntitySchema
