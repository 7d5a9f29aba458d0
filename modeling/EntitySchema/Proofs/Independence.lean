import EntitySchema.Proofs.Composition

/-!
The generators of the program do not disturb each other. What a generator reads of a model is its
view. Other generators leave the views of SQL and of JSON Schema as they are, what SQL adds depends
on its view only, and so does what each of the two emits. The main result compares two runs: with
other generators around them, or in another order, SQL and JSON Schema emit the same files.
-/

namespace EntitySchema

/-! ## What SQL reads -/

namespace Sql

/-- What SQL reads of a struct: no hooks, no marks, and of the operations only its own. -/
def seen (s : Struct) : Struct where
  name := s.name
  members := s.members
  operations := s.operations.filter (fun f => f.owner == owner)
  requirements := s.requirements

/-- What SQL reads of a model. -/
def view (model : Model) : Model where
  structs := model.structs.map seen
  enums := model.enums

variable {model model' : Model} {s s' : Struct}

@[simp] theorem seen_name (s : Struct) : (seen s).name = s.name := rfl

@[simp] theorem seen_members (s : Struct) : (seen s).members = s.members := rfl

theorem hasStruct_view : (view model).hasStruct = model.hasStruct := by
  funext n
  simp [Model.hasStruct, view, Function.comp_def]

theorem struct?_view (model : Model) (n : String) :
    (view model).struct? n = (model.struct? n).map seen := by
  simp only [Model.struct?, view, List.find?_map]
  rfl

theorem isStored_view : isStored (view model) = isStored model := by
  funext m
  simp [isStored, hasStruct_view]

theorem storedMembers_view : storedMembers (view model) (seen s) = storedMembers model s := by
  simp [storedMembers, isStored_view]

theorem valueMembers_view : valueMembers (view model) (seen s) = valueMembers model s := by
  simp [valueMembers, storedMembers_view]

/-- Columns are told from enums only, and the view has them all. -/
theorem tableOfStruct_view : Table.ofStruct (view model) (seen s) = Table.ofStruct model s := by
  have hColumn : Column.ofMember (view model) = Column.ofMember model := rfl
  simp [Table.ofStruct, storedMembers_view, hColumn]

theorem statement?_view : statement? (view model) (seen s) = statement? model s := by
  funext role
  cases role <;> simp [statement?, valueNames, storedNames, valueMembers_view, storedMembers_view]

theorem queries_view : queries (view model) (seen s) = queries model s := by
  simp [queries, valueNames, storedNames, valueMembers_view, storedMembers_view]

theorem renderOperation_view (d : Dialect) :
    renderOperation d (view model) (seen s) = renderOperation d model s := by
  funext f
  simp [renderOperation, statement?_view]

/-- Operations of others have no statement, so that leaving them out changes no file. -/
theorem renderOperations_view (d : Dialect) :
    (seen s).operations.filterMap (renderOperation d (view model) (seen s)) =
      s.operations.filterMap (renderOperation d model s) := by
  rw [renderOperation_view, seen, List.filterMap_filter]
  congr 1
  funext f
  by_cases hf : f.owner = owner <;> simp [renderOperation, hf]

theorem structFile_view (d : Dialect) :
    structFile d (view model) (seen s) = structFile d model s := by
  simp only [structFile, tableOfStruct_view, renderOperations_view]
  rfl

theorem queryFile_view (d : Dialect) :
    queryFile d (view model) (seen s) = queryFile d model s := by
  simp only [queryFile, valueMembers_view, queries_view]
  rfl

theorem structArtifacts_view (o : Options) :
    structArtifacts o (view model) (seen s) = structArtifacts o model s := by
  simp only [structArtifacts, structFile_view, queryFile_view, valueMembers_view]
  rfl

theorem ofModel_view : StructGraph.ofModel (view model) = StructGraph.ofModel model := by
  have hEdge : ∀ s, StructGraph.edgeOf? (view model) (seen s) = StructGraph.edgeOf? model s := by
    intro s
    funext m
    simp only [StructGraph.edgeOf?, hasStruct_view]
    rfl
  simp [StructGraph.ofModel, Model.structNames, view, List.flatMap_map, Function.comp_def, ← hEdge]

theorem orderedStructs_view : orderedStructs (view model) = (orderedStructs model).map seen := by
  simp only [orderedStructs, ofModel_view, List.map_filterMap]
  congr 1
  funext n
  exact struct?_view model n

theorem tables_view : tables (view model) = tables model := by
  simp [tables, orderedStructs_view, Function.comp_def, tableOfStruct_view]

/-- What is emitted is told from the view. -/
theorem emit_view (o : Options) : emit o (view model) = emit o model := by
  simp only [emit, orderedStructs_view, tables_view, List.mapM_map, structArtifacts_view,
    Function.comp_def]

/-! ## What contributions do to the view of SQL -/

theorem seen_addMember (s : Struct) (m : Member) :
    seen (s.addMember m) = (seen s).addMember m := by
  rw [Struct.addMember_eq, Struct.addMember_eq]
  by_cases hm : s.hasMember m.name
  · have hSeen : (seen s).hasMember m.name = true := hm
    rw [if_pos hm, if_pos hSeen]
  · have hSeen : ¬ (seen s).hasMember m.name = true := hm
    rw [if_neg hm, if_neg hSeen]
    rfl

/-- Whether an own operation is there is told from the own operations. -/
theorem seen_addOwnOperation (s : Struct) {f : Operation} (hf : f.owner = owner) :
    seen (s.addOperation f) = (seen s).addOperation f := by
  have hThere : (seen s).operations.any (fun g => g.owner == f.owner && g.name == f.name) =
      s.operations.any (fun g => g.owner == f.owner && g.name == f.name) := by
    simp only [seen, List.any_filter, hf]
    congr 1
    funext g
    cases g.owner == owner <;> rfl
  rw [Struct.addOperation_eq, Struct.addOperation_eq, hThere]
  split
  · rfl
  · simp [seen, hf]

theorem seen_addOtherOperation (s : Struct) {f : Operation} (hf : f.owner ≠ owner) :
    seen (s.addOperation f) = seen s := by
  rw [Struct.addOperation_eq]
  split
  · rfl
  · simp [seen, hf]

theorem seen_addRequirement (s : Struct) (r : Requirement) :
    seen (s.addRequirement r) = (seen s).addRequirement r := by
  rw [Struct.addRequirement_eq, Struct.addRequirement_eq]
  by_cases hr : s.requirements.contains r
  · have hSeen : (seen s).requirements.contains r = true := hr
    rw [if_pos hr, if_pos hSeen]
  · have hSeen : ¬ (seen s).requirements.contains r = true := hr
    rw [if_neg hr, if_neg hSeen]
    rfl

theorem seen_addHook (s : Struct) (h : Hook) : seen (s.addHook h) = seen s := by
  rw [Struct.addHook_eq]
  split <;> rfl

theorem seen_implement (s : Struct) (c : CapabilityMark) : seen (s.implement c) = seen s := by
  rw [Struct.implement_eq]
  split <;> rfl

/-- What SQL sees of a struct that is made one that can be stored. -/
def storeSeen (s : Struct) : Struct :=
  (storedOperations.foldl Struct.addOperation s).addRequirement ⟨owner, storeLibrary⟩

theorem seen_makeStored (s : Struct) : seen (makeStored s) = storeSeen (seen s) := by
  have hOperations : ∀ (fs : List Operation) (s : Struct), (∀ f ∈ fs, f.owner = owner) →
      seen (fs.foldl Struct.addOperation s) = fs.foldl Struct.addOperation (seen s) := by
    intro fs
    induction fs with
    | nil => exact fun _ _ => rfl
    | cons f fs ih =>
      intro s hfs
      obtain ⟨hf, hfs⟩ := List.forall_mem_cons.1 hfs
      rw [List.foldl_cons, ih _ hfs, seen_addOwnOperation s hf, List.foldl_cons]
  have hOwned : ∀ f ∈ storedOperations, f.owner = owner := by simp [storedOperations]
  rw [makeStored, seen_addRequirement, seen_addHook, hOperations _ _ hOwned, storeSeen]

theorem view_updateStruct {change : Struct → Struct} (change' : Struct → Struct)
    (h : ∀ s, seen (change s) = change' (seen s)) (model : Model) (n : String) :
    view (model.updateStruct n change) = (view model).updateStruct n change' := by
  have go : ∀ ss : List Struct, (Model.updateStruct.go n change ss).map seen =
      Model.updateStruct.go n change' (ss.map seen) := by
    intro ss
    induction ss with
    | nil => rfl
    | cons s ss ih =>
      by_cases hs : s.name = n
      · simp [Model.updateStruct.go, hs, h]
      · simp [Model.updateStruct.go, hs, ih]
  simp only [view, Model.updateStruct, go]

theorem view_linkElements (holder : String) (elements : List String) (model : Model) :
    view (linkElements holder model elements) = linkElements holder (view model) elements := by
  induction elements generalizing model with
  | nil => rfl
  | cons e elements ih =>
    refine (ih _).trans ?_
    rw [view_updateStruct (·.addMember (holderKey holder))
      (fun s => seen_addMember s (holderKey holder))]
    rfl

theorem elementsIn_view (model : Model) (n : String) :
    elementsIn (view model) n = elementsIn model n := by
  unfold elementsIn
  rw [struct?_view]
  cases model.struct? n <;> rfl

end Sql

namespace Builtin

variable {model model' : Model}

/-- What SQL adds, as far as it sees it, is told from what it sees. -/
theorem view_contribute_sql (o : Sql.Options) (hView : Sql.view model = Sql.view model')
    (n : String) :
    Sql.view ((sql o).contribute model n) = Sql.view ((sql o).contribute model' n) := by
  have hStep : ∀ m : Model, Sql.view ((sql o).contribute m n) =
      Sql.linkElements n ((Sql.view m).updateStruct n Sql.storeSeen)
        (Sql.elementsIn ((Sql.view m).updateStruct n Sql.storeSeen) n) := by
    intro m
    simp only [contribute, Sql.view_linkElements, ← Sql.view_updateStruct _ Sql.seen_makeStored,
      Sql.elementsIn_view]
  rw [hStep, hStep, hView]

/-- SQL sees nothing of what the other generators add. -/
theorem view_contribute_other {b : Builtin} (hb : b.name ≠ Sql.generatorName) (model : Model)
    (n : String) : Sql.view (b.contribute model n) = Sql.view model := by
  cases b with
  | sql o => exact absurd rfl hb
  | jsonSchema =>
    have hSeen : ∀ s,
        Sql.seen (JsonSchema.operations.foldl Struct.addOperation s) = Sql.seen s := by
      intro s
      have hOwner : JsonSchema.owner ≠ Sql.owner := by decide
      simp only [JsonSchema.operations, List.foldl_cons, List.foldl_nil]
      rw [Sql.seen_addOtherOperation _ hOwner, Sql.seen_addOtherOperation _ hOwner]
    refine (Sql.view_updateStruct id hSeen model n).trans ?_
    exact Model.updateStruct_eq_self (fun _ _ => rfl)
  | rust => rfl

theorem view_contributeAll_sql (o : Sql.Options) (names : List String)
    (hView : Sql.view model = Sql.view model') :
    Sql.view ((sql o).contributeAll names model) =
      Sql.view ((sql o).contributeAll names model') := by
  induction names generalizing model model' with
  | nil => exact hView
  | cons n names ih => exact ih (view_contribute_sql o hView n)

theorem view_contributeAll_other {b : Builtin} (hb : b.name ≠ Sql.generatorName)
    (names : List String) (model : Model) :
    Sql.view (b.contributeAll names model) = Sql.view model := by
  induction names generalizing model with
  | nil => rfl
  | cons n names ih => exact (ih _).trans (view_contribute_other hb model n)

theorem view_foldl_others {bs : List Builtin} (hbs : ∀ b ∈ bs, b.name ≠ Sql.generatorName)
    (names : List String) (model : Model) :
    Sql.view (bs.foldl (fun m b => b.contributeAll names m) model) = Sql.view model := by
  induction bs generalizing model with
  | nil => rfl
  | cons b bs ih =>
    obtain ⟨hFirst, hRest⟩ := List.forall_mem_cons.1 hbs
    exact (ih hRest _).trans (view_contributeAll_other hFirst names model)

theorem view_marked (registry : Registry) (model : Model) :
    Sql.view { model with structs := model.structs.map (marked registry) } = Sql.view model := by
  have hMarks : ∀ (cs : List Capability) (s : Struct),
      Sql.seen (cs.foldl (fun s c => s.implement c.mark) s) = Sql.seen s := by
    intro cs
    induction cs with
    | nil => exact fun _ => rfl
    | cons c cs ih => exact fun s => (ih _).trans (Sql.seen_implement s c.mark)
  simp only [Sql.view, List.map_map]
  congr 2
  funext s
  exact hMarks registry.capabilities s

/-- For SQL it is all the same which other generators take part, and when. -/
theorem view_composed {bs : List Builtin} (hDistinct : (bs.map name).Nodup) {o : Sql.Options}
    (ho : sql o ∈ bs) (model : Model) :
    Sql.view (composed bs model) =
      Sql.view ((sql o).contributeAll model.structNames model) := by
  -- The turns of the others, before SQL and after it, do not show in its view.
  obtain ⟨before, after, rfl⟩ := List.append_of_mem ho
  rw [List.map_append, List.map_cons, List.nodup_append, List.nodup_cons] at hDistinct
  obtain ⟨_, ⟨hAfter, _⟩, hBefore⟩ := hDistinct
  have hBefore' : ∀ b ∈ before, b.name ≠ Sql.generatorName :=
    fun b hb => hBefore b.name (List.mem_map_of_mem hb) (sql o).name List.mem_cons_self
  have hAfter' : ∀ b ∈ after, b.name ≠ Sql.generatorName :=
    fun b hb h => hAfter (List.mem_map.2 ⟨b, hb, h⟩)
  rw [composed, List.foldl_append, List.foldl_cons, view_foldl_others hAfter']
  refine view_contributeAll_sql o model.structNames ?_
  rw [view_foldl_others hBefore', view_marked]

end Builtin

/-! ## What JSON Schema reads -/

namespace JsonSchema

/-- What JSON Schema reads of a struct: its name and what the schema declares. -/
def seen (s : Struct) : Struct where
  name := s.name
  members := declaredMembers s

/-- What JSON Schema reads of a model. -/
def view (model : Model) : Model where
  structs := model.structs.map seen
  enums := model.enums

theorem documents_view (model : Model) : documents (view model) = documents model := by
  have hByKey : isByKey (view model) = isByKey model := by
    funext m
    have hStruct : (view model).hasStruct = model.hasStruct := by
      funext n
      simp [Model.hasStruct, view, seen, Function.comp_def]
    simp [isByKey, hStruct]
  have hMember : PropertySchema.ofMember (view model) = PropertySchema.ofMember model := by
    funext m
    simp only [PropertySchema.ofMember, hByKey]
  have hStruct : ∀ s, Document.ofStruct (view model) (seen s) = Document.ofStruct model s := by
    intro s
    simp [Document.ofStruct, hMember, seen, declaredMembers]
  simp [documents, view, Function.comp_def, ← hStruct]

/-- The keys of holders belong to a generator and are not described. -/
theorem view_of_grows {model model' : Model} (h : model.Grows model') :
    view model' = view model := by
  have hSeen : ∀ {s s' : Struct}, s.Grows s' → seen s' = seen s := by
    intro s s' hs
    obtain ⟨holders, hMembers⟩ := hs.members
    have hKeys : ∀ holder, (Sql.holderKey holder).owner.isSchema = false := fun _ => rfl
    simp [seen, declaredMembers, hs.name, hMembers, List.filter_map, Function.comp_def, hKeys]
  rw [view, view, h.map_structs hSeen, h.enums]

/-- Composition does not change the documents. -/
theorem documents_of_grows {model model' : Model} (h : model.Grows model') :
    documents model' = documents model := by
  rw [← documents_view model', view_of_grows h, documents_view]

end JsonSchema

/-! ## Two runs -/

namespace Engine

/-- What each generator emits, part by part. -/
def Parts (cx : Context) (model : Model) : List Generator → List (List Emitted) → Prop :=
  List.Forall₂ (fun g part => ∃ as, artifactsOf cx model g = .ok as ∧
    part = as.map (Emitted.mk g.name))

theorem emit_eq_ok {engine : Engine} {model : Model} {registry : Registry} {es : List Emitted}
    (h : engine.emit model registry = .ok es) :
    ∃ parts, Parts (engine.context registry) model engine.generators parts ∧
      es = parts.flatten := by
  unfold Engine.emit at h
  simp only at h
  split at h
  · rename_i parts hParts
    refine ⟨parts, (mapM_eq_ok_iff.1 hParts).imp ?_, (Except.ok.inj h).symm⟩
    intro g part hPart
    obtain ⟨as, has, hPart⟩ := bind_eq_ok_iff.1 hPart
    exact ⟨as, has, (Except.ok.inj hPart).symm⟩
  · cases h

theorem emit_isOk {engine : Engine} {model : Model} {registry : Registry}
    (h : ∀ g ∈ engine.generators, ∃ as,
      artifactsOf (engine.context registry) model g = .ok as) :
    ∃ es, engine.emit model registry = .ok es := by
  have hParts : ∀ g ∈ engine.generators, ∃ part,
      (do
        let artifacts ← artifactsOf (engine.context registry) model g
        .ok (artifacts.map (fun a => Emitted.mk g.name a)) :
        Except GeneratorError (List Emitted)) = .ok part := by
    intro g hg
    obtain ⟨as, has⟩ := h g hg
    exact ⟨_, bind_eq_ok_iff.2 ⟨as, has, rfl⟩⟩
  obtain ⟨parts, hAll⟩ := mapM_isOk hParts
  refine ⟨parts.flatten, ?_⟩
  simp only [Engine.emit]
  rw [hAll]

theorem filter_labelled (n n' : String) (as : List Artifact) :
    (as.map (Emitted.mk n)).filter (fun e => e.generator == n') =
      if n = n' then as.map (Emitted.mk n) else [] := by
  split
  · rename_i hn
    simp [hn]
  · rename_i hn
    simp [hn]

theorem Parts.filter_eq_nil {cx : Context} {model : Model} {gs : List Generator}
    {parts : List (List Emitted)} (h : Parts cx model gs parts) {n : String}
    (hn : n ∉ gs.map Generator.name) :
    parts.flatten.filter (fun e => e.generator == n) = [] := by
  induction h with
  | nil => rfl
  | cons hPart _ ih =>
    obtain ⟨as, _, rfl⟩ := hPart
    rw [List.map_cons, List.mem_cons, not_or] at hn
    rw [List.flatten_cons, List.filter_append, filter_labelled, if_neg (Ne.symm hn.1), ih hn.2]
    rfl

/-- With different names, the files under the name of a generator are those that it emits. -/
theorem Parts.filter_eq {cx : Context} {model : Model} {gs : List Generator}
    {parts : List (List Emitted)} (h : Parts cx model gs parts)
    (hNames : (gs.map Generator.name).Nodup) {g : Generator} (hg : g ∈ gs) :
    ∃ as, artifactsOf cx model g = .ok as ∧
      parts.flatten.filter (fun e => e.generator == g.name) = as.map (Emitted.mk g.name) := by
  induction h with
  | nil => cases hg
  | @cons first part gs parts hPart hParts ih =>
    obtain ⟨as, has, rfl⟩ := hPart
    obtain ⟨hNew, hNames⟩ := List.nodup_cons.1 hNames
    rw [List.flatten_cons, List.filter_append, filter_labelled]
    rcases List.mem_cons.1 hg with rfl | hg
    · refine ⟨as, has, ?_⟩
      rw [if_pos rfl, Parts.filter_eq_nil hParts hNew, List.append_nil]
    · have hOther : first.name ≠ g.name := fun h => hNew (h ▸ List.mem_map_of_mem hg)
      rw [if_neg hOther, List.nil_append]
      exact ih hNames hg

theorem artifactsOf_eq_emit {g : Generator} (h : g.hasInterfaces = false) (cx : Context)
    (model : Model) : artifactsOf cx model g = g.emit cx model := by
  simp only [artifactsOf, h, bind, Except.bind]
  cases g.emit cx model <;> rfl

end Engine

namespace Builtin

/-- The files under the name of a generator: those that it emits. -/
theorem emit_filter {bs : List Builtin} (hDistinct : (bs.map name).Nodup) {model : Model}
    {registry : Registry} {es : List Engine.Emitted}
    (h : (Engine.mk (bs.map generator)).emit model registry = .ok es) {b : Builtin} (hb : b ∈ bs) :
    ∃ as, Engine.artifactsOf ((Engine.mk (bs.map generator)).context registry) model b.generator =
        .ok as ∧
      es.filter (fun e => e.generator == b.name) = as.map (Engine.Emitted.mk b.name) := by
  obtain ⟨parts, hParts, rfl⟩ := Engine.emit_eq_ok h
  have hNames : ((bs.map generator).map Generator.name).Nodup := by
    simpa [Function.comp_def, generator_name] using hDistinct
  rw [← generator_name]
  exact hParts.filter_eq hNames (List.mem_map_of_mem hb)

/-- The files under the name of a generator, when a run succeeds: those that it emits from the
composed model. -/
theorem generate_filter {bs : List Builtin} {engine : Engine} (hBs : register bs = .ok engine)
    {model : Model} {es : List Engine.Emitted} (h : engine.generate model = .ok es) {b : Builtin}
    (hb : b ∈ bs) :
    ∃ as, Engine.artifactsOf (engine.context (registryOf bs)) (composed bs model) b.generator =
        .ok as ∧
      es.filter (fun e => e.generator == b.name) = as.map (Engine.Emitted.mk b.name) := by
  obtain ⟨hDistinct, rfl⟩ := register_eq_ok_iff.1 hBs
  rw [Engine.generate, compose_eq_composed] at h
  exact emit_filter hDistinct h hb

theorem artifactsOf_isOk {b : Builtin} (hQueries : ∀ o, b = sql o → o.filteredQueries = false)
    (cx : Context) (model : Model) : ∃ as, Engine.artifactsOf cx model b.generator = .ok as := by
  cases b with
  | sql o =>
    have hStruct : ∀ s ∈ Sql.orderedStructs model,
        ∃ files, Sql.structArtifacts o model s = .ok files := by
      intro s _
      simp [Sql.structArtifacts, hQueries o rfl]
    obtain ⟨files, hFiles⟩ := mapM_isOk hStruct
    rw [Engine.artifactsOf_eq_emit rfl]
    exact ⟨_, bind_eq_ok_iff.2 ⟨files, hFiles, rfl⟩⟩
  | jsonSchema => exact ⟨_, Engine.artifactsOf_eq_emit rfl cx model⟩
  | rust =>
    have hHeaders : ∃ headers,
        cx.registry.capabilities.mapM (Rust.generator.emitCapability cx) = .ok headers :=
      mapM_isOk (fun c _ => ⟨_, rfl⟩)
    obtain ⟨headers, hHeaders⟩ := hHeaders
    exact ⟨_, bind_eq_ok_iff.2 ⟨headers, hHeaders, rfl⟩⟩

/-- Only filtered queries can make a run fail. -/
theorem generate_isOk {bs : List Builtin} {engine : Engine} (hBs : register bs = .ok engine)
    (hQueries : ∀ o, sql o ∈ bs → o.filteredQueries = false) (model : Model) :
    ∃ es, engine.generate model = .ok es := by
  obtain ⟨-, rfl⟩ := register_eq_ok_iff.1 hBs
  rw [Engine.generate, compose_eq_composed]
  apply Engine.emit_isOk
  intro g hg
  obtain ⟨b, hb, rfl⟩ := List.mem_map.1 hg
  exact artifactsOf_isOk (fun o ho => hQueries o (ho ▸ hb)) _ (composed bs model)

end Builtin

/-- Two runs of generators of the program over one model, each with any generators in any order. If
both succeed and SQL takes part in both with the same options, it emits the same files in both; and
likewise JSON Schema. -/
theorem generate_undisturbed {bs bs' : List Builtin} {engine engine' : Engine}
    (hBs : Builtin.register bs = .ok engine) (hBs' : Builtin.register bs' = .ok engine')
    {model : Model} {es es' : List Engine.Emitted} (hEs : engine.generate model = .ok es)
    (hEs' : engine'.generate model = .ok es') :
    (∀ o, .sql o ∈ bs → .sql o ∈ bs' →
      es.filter (fun e => e.generator == "sql") = es'.filter (fun e => e.generator == "sql")) ∧
    (.jsonSchema ∈ bs → .jsonSchema ∈ bs' →
      es.filter (fun e => e.generator == "json_schema") =
        es'.filter (fun e => e.generator == "json_schema")) := by
  refine ⟨?_, ?_⟩
  · intro o ho ho'
    obtain ⟨as, has, hFiles⟩ := Builtin.generate_filter hBs hEs ho
    obtain ⟨as', has', hFiles'⟩ := Builtin.generate_filter hBs' hEs' ho'
    have hView : Sql.view (Builtin.composed bs model) = Sql.view (Builtin.composed bs' model) := by
      rw [Builtin.view_composed (Builtin.register_eq_ok_iff.1 hBs).1 ho,
        Builtin.view_composed (Builtin.register_eq_ok_iff.1 hBs').1 ho']
    have hSame : as = as' := by
      rw [Engine.artifactsOf_eq_emit rfl] at has has'
      have hEmit : Sql.emit o (Builtin.composed bs model) = .ok as := has
      rw [← Sql.emit_view, hView, Sql.emit_view] at hEmit
      exact Except.ok.inj (hEmit.symm.trans has')
    exact hFiles.trans (hSame ▸ hFiles'.symm)
  · intro hb hb'
    obtain ⟨as, has, hFiles⟩ := Builtin.generate_filter hBs hEs hb
    obtain ⟨as', has', hFiles'⟩ := Builtin.generate_filter hBs' hEs' hb'
    have hSame : as = as' := by
      rw [Engine.artifactsOf_eq_emit rfl] at has has'
      obtain rfl := Except.ok.inj has
      obtain rfl := Except.ok.inj has'
      rw [JsonSchema.documents_of_grows (Builtin.grows_composed bs model),
        JsonSchema.documents_of_grows (Builtin.grows_composed bs' model)]
    exact hFiles.trans (hSame ▸ hFiles'.symm)

/-- Arrays that share their elements, an array of the struct itself, and a struct with a member in
the place of the key that it would get. -/
def shopSource : String :=
  "struct Shop \x7b array<Order>: open; array<Order>: done; City: city; \x7d\n" ++
  "struct Order \x7b array<Order>: parts; \x7d\n" ++
  "struct City \x7b int64: TripId: reference(Trip.id); \x7d\n" ++
  "struct Trip \x7b array<City>: stops; \x7d"

def shopModel : Model where
  structs := [
    { name := "Shop"
      position := some ⟨"<input>", 1, 8⟩
      members := [
        { owner := .schema, type := .array (.named "Order"), name := "open",
          position := some ⟨"<input>", 1, 29⟩ },
        { owner := .schema, type := .array (.named "Order"), name := "done",
          position := some ⟨"<input>", 1, 49⟩ },
        { owner := .schema, type := .named "City", name := "city",
          position := some ⟨"<input>", 1, 61⟩ },
        Member.key] },
    { name := "Order"
      position := some ⟨"<input>", 2, 8⟩
      members := [
        { owner := .schema, type := .array (.named "Order"), name := "parts",
          position := some ⟨"<input>", 2, 30⟩ },
        Member.key] },
    { name := "City"
      position := some ⟨"<input>", 3, 8⟩
      members := [
        { owner := .schema, type := .scalar .int64, name := "TripId",
          reference := some ⟨"Trip", "id"⟩, position := some ⟨"<input>", 3, 22⟩ },
        Member.key] },
    { name := "Trip"
      position := some ⟨"<input>", 4, 8⟩
      members := [
        { owner := .schema, type := .array (.named "City"), name := "stops",
          position := some ⟨"<input>", 4, 28⟩ },
        Member.key] }]

theorem compile_shopSource : compile shopSource = .ok shopModel := by
  obtain ⟨model, hCompile, hModel⟩ :=
    exists_of_any_compile shopSource (fun model => decide (model = shopModel)) (by decide +kernel)
  rw [hCompile, of_decide_eq_true hModel]

theorem generate_shop_undisturbed :
    compile shopSource = .ok shopModel ∧
      ∃ engine engine' es es',
        Builtin.register [.sql {}, .jsonSchema] = .ok engine ∧
        Builtin.register [.jsonSchema, .rust, .sql {}] = .ok engine' ∧
        engine.generate shopModel = .ok es ∧ engine'.generate shopModel = .ok es' ∧
        es.filter (fun e => e.generator == "sql") = es'.filter (fun e => e.generator == "sql") ∧
        es.filter (fun e => e.generator == "json_schema") =
          es'.filter (fun e => e.generator == "json_schema") := by
  have hBs : Builtin.register [.sql {}, .jsonSchema] =
      .ok ⟨[.sql {}, .jsonSchema].map Builtin.generator⟩ :=
    Builtin.register_eq_ok_iff.2 ⟨by decide, rfl⟩
  have hBs' : Builtin.register [.jsonSchema, .rust, .sql {}] =
      .ok ⟨[.jsonSchema, .rust, .sql {}].map Builtin.generator⟩ :=
    Builtin.register_eq_ok_iff.2 ⟨by decide, rfl⟩
  obtain ⟨es, hEs⟩ := Builtin.generate_isOk hBs (by simp) shopModel
  obtain ⟨es', hEs'⟩ := Builtin.generate_isOk hBs' (by simp) shopModel
  have hSame := generate_undisturbed hBs hBs' hEs hEs'
  exact ⟨compile_shopSource, _, _, es, es', hBs, hBs', hEs, hEs',
    hSame.1 {} (by simp) (by simp), hSame.2 (by simp) (by simp)⟩

end EntitySchema
