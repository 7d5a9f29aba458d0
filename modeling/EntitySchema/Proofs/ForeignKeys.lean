import EntitySchema.Proofs.TableOrder
import EntitySchema.Proofs.Validity

/-!
The foreign keys of the tables. Each one leads to a table that is created, since the model they are
made of keeps its rules, and to a column of it, unless the field is an array of structs, which no
table has as a column. Such an array is stored as a key of its elements, and the key is lost exactly
if the elements have another member of its name.
-/

namespace EntitySchema

namespace Sql

variable {model : Model} {s : Struct} {m : Member} {r : Reference}

/-! ## Tables and columns -/

/-- What the foreign keys of the tables refer to. -/
def targets (tables : List Table) : List Reference :=
  tables.flatMap (fun t => t.columns.filterMap Column.target)

/-- The table that is referred to is there, and it has the column. -/
def Resolves (tables : List Table) (r : Reference) : Prop :=
  ∃ t ∈ tables, t.name = r.struct ∧ ∃ c ∈ t.columns, c.name = r.field

theorem name_ofMember (model : Model) (m : Member) : (Column.ofMember model m).name = m.name := by
  unfold Column.ofMember
  split <;> rfl

theorem target_ofMember (model : Model) (m : Member) :
    (Column.ofMember model m).target = if m.isOwnKey then none else targetOf model m := by
  unfold Column.ofMember
  split <;> rfl

theorem mem_targets_iff (hNames : model.structNames.Nodup) :
    r ∈ targets (tables model) ↔ ∃ s ∈ model.structs, ∃ m ∈ s.members, isStored model m = true ∧
      m.isOwnKey = false ∧ targetOf model m = some r := by
  simp [targets, tables, Table.ofStruct, storedMembers, mem_orderedStructs hNames, and_assoc,
    target_ofMember]

theorem resolves_tables_iff (hNames : model.structNames.Nodup) :
    Resolves (tables model) r ↔ ∃ s ∈ model.structs, s.name = r.struct ∧
      ∃ m ∈ s.members, isStored model m = true ∧ m.name = r.field := by
  simp [Resolves, tables, Table.ofStruct, storedMembers, mem_orderedStructs hNames, and_assoc,
    name_ofMember]

/-- The only members that are no columns are arrays of structs. -/
theorem isStored_eq_false_iff :
    isStored model m = false ↔ ∃ e ∈ model.structs, m.type = .array (.named e.name) := by
  unfold isStored
  cases m.type with
  | array t =>
    cases t with
    | named n =>
      have hStruct : model.hasStruct n = true ↔ ∃ e ∈ model.structs, n = e.name := by
        simp [Model.hasStruct, eq_comm (a := n)]
      simp [TypeExpr.elementName?, TypeExpr.element?, TypeExpr.named?, hStruct]
    | scalar | array => simp [TypeExpr.elementName?, TypeExpr.element?, TypeExpr.named?]
  | scalar | named => simp [TypeExpr.elementName?, TypeExpr.element?]

/-! ## Foreign keys lead to fields -/

theorem struct?_of_hasStruct {n : String} (h : model.hasStruct n = true) :
    ∃ t, model.struct? n = some t := by
  cases ht : model.struct? n with
  | none => exact absurd (Model.hasStruct_iff.1 h) (Model.struct?_eq_none_iff.1 ht)
  | some t => exact ⟨t, rfl⟩

/-- A column refers to a field that the rules have checked, or to the key of the struct that is its
type. -/
theorem exists_field_of_target (hModel : model.Sound) (hs : s ∈ model.structs)
    (hm : m ∈ s.members) (hr : targetOf model m = some r) :
    ∃ t, model.struct? r.struct = some t ∧ t.hasMember r.field = true := by
  have hRules := hModel.valid.members s hs m hm
  unfold targetOf at hr
  split at hr
  · rename_i r' hReference
    obtain rfl := Option.some.inj hr
    exact hRules.reference r' hReference
  · rename_i n _ hType
    split at hr
    · cases hr
    · -- The type is declared and no enum.
      rename_i hEnum
      obtain rfl := Option.some.inj hr
      have hName : n ∈ model.names := hRules.type n (by rw [hType, TypeExpr.innermostName?])
      have hStruct : model.hasStruct n = true := by
        rw [← Model.isDeclared_iff, Model.isDeclared, Bool.or_eq_true] at hName
        exact hName.resolve_right hEnum
      obtain ⟨t, ht⟩ := struct?_of_hasStruct hStruct
      exact ⟨t, ht, hModel.keys t (Model.struct?_mem ht)⟩
  · cases hr

end Sql

/-! ## Members of composed structs -/

theorem holderKeyName_ne_keyName (p : String) : p ++ "Id" ≠ "id" := by
  intro h
  have hReverse := congrArg (fun s => s.toList.reverse) h
  simp at hReverse

/-- Keys are only given where their name is free, so that no two members share a name. -/
theorem Struct.GetsKeys.nodup_members {model : Model} {c c' : Struct} (h : c.GetsKeys model c')
    (hNames : model.structNames.Nodup) (hMembers : (c.members.map Member.name).Nodup) :
    (c'.members.map Member.name).Nodup := by
  rw [h.members, List.map_append, List.map_map, List.nodup_append]
  refine ⟨hMembers, ?_, ?_⟩
  · have hHolders : ((holdersOf model c).map Struct.name).Nodup :=
      hNames.sublist (List.filter_sublist.map Struct.name)
    have hKeys := hHolders.map (f := fun n => n ++ "Id")
      (fun n n' h => (String.append_left_inj "Id").1 h)
    rwa [List.map_map] at hKeys
  · intro a ha b hb
    obtain ⟨m, hm, rfl⟩ := List.mem_map.1 ha
    obtain ⟨p, hp, rfl⟩ := List.mem_map.1 hb
    have hFree : c.hasMember (p.name ++ "Id") = false := by
      have := (List.mem_filter.1 hp).2
      simp only [Bool.and_eq_true, Bool.not_eq_true'] at this
      exact this.2
    intro hSame
    simp only [Struct.hasMember, List.any_eq_false, beq_iff_eq] at hFree
    exact hFree m hm hSame

/-- A checked schema and what generators of the program, SQL among them, make of it. -/
structure SqlComposition (model composed : Model) : Prop where
  consistent : model.Consistent
  sound : composed.Sound
  grows : model.Grows composed
  keys : List.Forall₂ (Struct.GetsKeys model) model.structs composed.structs

theorem Model.sound_of_compile {source : String} {files : FileSystem} {model : Model}
    (h : compile source files = .ok model) : model.Sound := by
  obtain ⟨hRead, hValid⟩ := Printer.compile_eq_ok h
  refine ⟨validate_eq_ok_iff.1 hValid, ?_⟩
  intro s hs
  obtain ⟨ms, hMembers, _⟩ := ((Printer.consistent_of_readModel hRead).structs s hs).members
  rw [hMembers]
  simp [Struct.hasMember, Member.key]

theorem sqlComposition_of_compile {source : String} {files : FileSystem} {model : Model}
    (h : compile source files = .ok model) {bs : List Builtin}
    (hDistinct : (bs.map Builtin.name).Nodup) {o : Sql.Options} (ho : .sql o ∈ bs) :
    SqlComposition model (Builtin.composed bs model) where
  consistent := Printer.consistent_of_readModel (Printer.compile_eq_ok h).1
  sound := (Model.sound_of_compile h).composed bs
  grows := Builtin.grows_composed bs model
  keys := Builtin.getsKeys_composed hDistinct ho
    (Printer.consistent_of_readModel (Printer.compile_eq_ok h).1).structNames

namespace SqlComposition

variable {model composed : Model} {c : Struct} {m m' : Member} {r : Reference}

theorem structNames (h : SqlComposition model composed) : composed.structNames.Nodup :=
  h.grows.structNames ▸ h.consistent.structNames

/-- What a struct is made of. -/
theorem exists_source (h : SqlComposition model composed) {c' : Struct}
    (hc' : c' ∈ composed.structs) : ∃ c ∈ model.structs, c.GetsKeys model c' :=
  exists_of_mem_right h.keys hc'

/-- What a struct becomes. -/
theorem exists_result (h : SqlComposition model composed) (hc : c ∈ model.structs) :
    ∃ c' ∈ composed.structs, c.GetsKeys model c' := by
  have hFound := Model.struct?_of_mem h.consistent.structNames hc
  obtain ⟨c', hc', hKeys⟩ := Model.struct?_of_forall₂ h.keys (fun hs => hs.name) hFound
  exact ⟨c', Model.struct?_mem hc', hKeys⟩

theorem eq_of_name_eq (h : SqlComposition model composed) {c' d' : Struct}
    (hc' : c' ∈ composed.structs) (hd' : d' ∈ composed.structs) (hName : c'.name = d'.name) :
    c' = d' :=
  List.inj_on_of_nodup_map h.structNames hc' hd' hName

theorem nodup_members (h : SqlComposition model composed) {c' : Struct}
    (hc' : c' ∈ composed.structs) : (c'.members.map Member.name).Nodup := by
  obtain ⟨c, hc, hKeys⟩ := h.exists_source hc'
  exact hKeys.nodup_members h.consistent.structNames
    (Reader.nodup_members (h.consistent.structs c hc))

theorem member_eq_of_name_eq (h : SqlComposition model composed) {c' : Struct}
    (hc' : c' ∈ composed.structs) (hm : m ∈ c'.members) (hm' : m' ∈ c'.members)
    (hName : m.name = m'.name) : m = m' :=
  List.inj_on_of_nodup_map (h.nodup_members hc') hm hm' hName

end SqlComposition

/-! ## Foreign keys that lead nowhere -/

/-- The field is an array of structs. -/
def Model.IsStructArray (model : Model) (r : Reference) : Prop :=
  ∃ s ∈ model.structs, s.name = r.struct ∧ ∃ m ∈ s.members, m.name = r.field ∧
    ∃ e ∈ model.structs, m.type = .array (.named e.name)

namespace SqlComposition

variable {model composed : Model} {c' : Struct} {m : Member} {r : Reference}

/-- What is found under the name of a field decides whether the field is a column. -/
theorem resolves_iff_isStored (h : SqlComposition model composed) (hc' : c' ∈ composed.structs)
    (hName : c'.name = r.struct) (hm : m ∈ c'.members) (hField : m.name = r.field) :
    Sql.Resolves (Sql.tables composed) r ↔ Sql.isStored composed m = true := by
  rw [Sql.resolves_tables_iff h.structNames]
  constructor
  · rintro ⟨d', hd', hName', m', hm', hStored, hField'⟩
    obtain rfl := h.eq_of_name_eq hd' hc' (hName'.trans hName.symm)
    obtain rfl := h.member_eq_of_name_eq hd' hm' hm (hField'.trans hField.symm)
    exact hStored
  · intro hStored
    exact ⟨c', hc', hName, m, hm, hStored, hField⟩

/-- Keys of holders are no arrays, so the arrays are those of the schema. -/
theorem isStructArray_iff (h : SqlComposition model composed) (hc' : c' ∈ composed.structs)
    (hName : c'.name = r.struct) (hm : m ∈ c'.members) (hField : m.name = r.field) :
    model.IsStructArray r ↔ Sql.isStored composed m = false := by
  rw [Sql.isStored_composed h.grows, Sql.isStored_eq_false_iff]
  constructor
  · rintro ⟨c, hc, hcName, m₀, hm₀, hField₀, hArray⟩
    obtain ⟨d', hd', hKeys⟩ := h.exists_result hc
    obtain rfl := h.eq_of_name_eq hd' hc' (hKeys.name.trans (hcName.trans hName.symm))
    have hm₀' : m₀ ∈ d'.members := by
      rw [hKeys.members]
      exact List.mem_append_left _ hm₀
    obtain rfl := h.member_eq_of_name_eq hd' hm₀' hm (hField₀.trans hField.symm)
    exact hArray
  · rintro ⟨e, he, hType⟩
    obtain ⟨c, hc, hKeys⟩ := h.exists_source hc'
    rw [hKeys.members, List.mem_append] at hm
    rcases hm with hm | hm
    · exact ⟨c, hc, hKeys.name.symm.trans hName, m, hm, hField, e, he, hType⟩
    · obtain ⟨p, _, rfl⟩ := List.mem_map.1 hm
      cases hType

theorem resolves_iff (h : SqlComposition model composed)
    (hr : r ∈ Sql.targets (Sql.tables composed)) :
    (∃ t ∈ Sql.tables composed, t.name = r.struct) ∧
      (Sql.Resolves (Sql.tables composed) r ↔ ¬ model.IsStructArray r) := by
  obtain ⟨s, hs, m, hm, -, -, hTarget⟩ := (Sql.mem_targets_iff h.structNames).1 hr
  obtain ⟨t, ht, hHas⟩ := Sql.exists_field_of_target h.sound hs hm hTarget
  have hMem := Model.struct?_mem ht
  have hName := Model.struct?_name ht
  obtain ⟨f, hf, hField⟩ := List.any_eq_true.1 hHas
  have hField : f.name = r.field := by simpa using hField
  refine ⟨⟨Sql.Table.ofStruct composed t, ?_, hName⟩, ?_⟩
  · exact List.mem_map_of_mem ((Sql.mem_orderedStructs h.structNames).2 hMem)
  · rw [h.resolves_iff_isStored hMem hName hf hField, h.isStructArray_iff hMem hName hf hField]
    simp

end SqlComposition

/-- The foreign keys of a checked schema that is composed with SQL and other generators. Each one
refers to a table that is created, and to a column of it exactly if the field is no array of
structs. -/
theorem foreignKeys_resolve_iff {source : String} {files : FileSystem} {model : Model}
    (h : compile source files = .ok model) {bs : List Builtin} {engine : Engine}
    (hBs : Builtin.register bs = .ok engine) {o : Sql.Options} (ho : .sql o ∈ bs) :
    ∃ composed registry, engine.compose model = (composed, .ok registry) ∧
      (∀ es, engine.emit composed registry = .ok es →
        ⟨"sql", Sql.schemaFile, Sql.schemaText o.dialect (Sql.tables composed)⟩ ∈ es) ∧
      ∀ r ∈ Sql.targets (Sql.tables composed),
        (∃ t ∈ Sql.tables composed, t.name = r.struct) ∧
          (Sql.Resolves (Sql.tables composed) r ↔ ¬ model.IsStructArray r) := by
  obtain ⟨hDistinct, rfl⟩ := Builtin.register_eq_ok_iff.1 hBs
  have hComposition := sqlComposition_of_compile h hDistinct ho
  exact ⟨Builtin.composed bs model, Builtin.registryOf bs, Builtin.compose_eq_composed bs model,
    fun es hEs => Builtin.schema_mem_emit hDistinct ho hEs,
    fun r hr => hComposition.resolves_iff hr⟩

theorem shop_foreignKeys_resolve :
    compile shopSource = .ok shopModel ∧
      ∃ engine, Builtin.register [.jsonSchema, .sql ⟨.mysql, false⟩] = .ok engine ∧
        ∃ composed registry, engine.compose shopModel = (composed, .ok registry) ∧
          ⟨"Trip", "id"⟩ ∈ Sql.targets (Sql.tables composed) ∧
          Sql.Resolves (Sql.tables composed) ⟨"Trip", "id"⟩ := by
  let bs : List Builtin := [.jsonSchema, .sql ⟨.mysql, false⟩]
  have hBs : Builtin.register bs = .ok ⟨bs.map Builtin.generator⟩ :=
    Builtin.register_eq_ok_iff.2 ⟨by decide, rfl⟩
  have hNames : (Builtin.composed bs shopModel).structNames.Nodup := by decide +kernel
  have hTarget : ⟨"Trip", "id"⟩ ∈ Sql.targets (Sql.tables (Builtin.composed bs shopModel)) :=
    (Sql.mem_targets_iff hNames).2 (by decide +kernel)
  have hNoArray : ¬ shopModel.IsStructArray ⟨"Trip", "id"⟩ := by
    simp [Model.IsStructArray, shopModel, Member.key, keyName]
  obtain ⟨composed, registry, hCompose, -, hAll⟩ := foreignKeys_resolve_iff compile_shopSource hBs
    (List.mem_cons_of_mem _ List.mem_cons_self)
  obtain ⟨rfl, -⟩ := Prod.mk.inj ((Builtin.compose_eq_composed bs shopModel).symm.trans hCompose)
  exact ⟨compile_shopSource, _, hBs, _, _, hCompose, hTarget, (hAll _ hTarget).2.2 hNoArray⟩

/-- A member may refer to an array of structs. Its column then has a foreign key to a column that no
table has. -/
theorem foreignKey_to_array_dangles :
    ∃ model engine composed registry,
      compile "struct A \x7b array<B>: bs; \x7d struct B \x7b int64: x: reference(A.bs); \x7d" =
        .ok model ∧
      Builtin.register [.sql {}] = .ok engine ∧ engine.compose model = (composed, .ok registry) ∧
      ⟨"A", "bs"⟩ ∈ Sql.targets (Sql.tables composed) ∧
      ¬ Sql.Resolves (Sql.tables composed) ⟨"A", "bs"⟩ := by
  obtain ⟨model, hCompile, hShows⟩ := exists_of_any_compile
    "struct A \x7b array<B>: bs; \x7d struct B \x7b int64: x: reference(A.bs); \x7d"
    (fun model => decide (
      let composed := Builtin.composed [.sql {}] model
      composed.structNames.Nodup ∧
      (∃ s ∈ composed.structs, ∃ m ∈ s.members, Sql.isStored composed m = true ∧
        m.isOwnKey = false ∧ Sql.targetOf composed m = some ⟨"A", "bs"⟩) ∧
      ¬ ∃ s ∈ composed.structs, s.name = "A" ∧
        ∃ m ∈ s.members, Sql.isStored composed m = true ∧ m.name = "bs")) (by decide +kernel)
  obtain ⟨hNames, hTarget, hNone⟩ := of_decide_eq_true hShows
  exact ⟨model, _, _, _, hCompile, Builtin.register_eq_ok_iff.2 ⟨List.nodup_singleton _, rfl⟩,
    Builtin.compose_eq_composed _ model, (Sql.mem_targets_iff hNames).2 hTarget,
    fun h => hNone ((Sql.resolves_tables_iff hNames).1 h)⟩

/-! ## Keys of arrays -/

namespace Sql

variable {model : Model} {p e : String}

/-- The table of the elements has a column for the key of the struct that holds them. -/
def HasHolderKey (tables : List Table) (holder element : String) : Prop :=
  ∃ t ∈ tables, t.name = element ∧
    ∃ c ∈ t.columns, c.name = holder ++ "Id" ∧ c.target = some ⟨holder, "id"⟩

theorem hasHolderKey_tables_iff (hNames : model.structNames.Nodup) :
    HasHolderKey (tables model) p e ↔ ∃ s ∈ model.structs, s.name = e ∧
      ∃ m ∈ s.members, m.name = p ++ "Id" ∧ isStored model m = true ∧
        targetOf model m = some ⟨p, "id"⟩ := by
  have hOwn : ∀ m : Member, m.name = p ++ "Id" → m.isOwnKey = false := by
    intro m hm
    simp [Member.isOwnKey, keyName, hm, holderKeyName_ne_keyName]
  simp only [HasHolderKey, tables, Table.ofStruct, storedMembers, List.mem_map, List.mem_filter,
    mem_orderedStructs hNames, exists_exists_and_eq_and, name_ofMember, target_ofMember]
  constructor
  · rintro ⟨s, hs, hName, m, ⟨hm, hStored⟩, hKey, hTarget⟩
    rw [hOwn m hKey] at hTarget
    exact ⟨s, hs, hName, m, hm, hKey, hStored, hTarget⟩
  · rintro ⟨s, hs, hName, m, hm, hKey, hStored, hTarget⟩
    refine ⟨s, hs, hName, m, ⟨hm, hStored⟩, hKey, ?_⟩
    rw [hOwn m hKey]
    exact hTarget

end Sql

/-- The member is stored as a key of the struct: it refers to the key of the struct, or it has the
struct as its type. -/
def Member.IsKeyOf (model : Model) (p : String) (m : Member) : Prop :=
  (m.reference = some ⟨p, "id"⟩ ∧ ∀ e ∈ model.structs, m.type ≠ .array (.named e.name)) ∨
    (m.reference = none ∧ m.type = .named p)

theorem Member.isKeyOf_iff {model : Model} (hModel : model.Consistent) {p : Struct}
    (hp : p ∈ model.structs) {m : Member} :
    m.IsKeyOf model p.name ↔
      Sql.isStored model m = true ∧ Sql.targetOf model m = some ⟨p.name, "id"⟩ := by
  have hStored : Sql.isStored model m = true ↔
      ∀ e ∈ model.structs, m.type ≠ .array (.named e.name) := by
    rw [← Bool.not_eq_false, Sql.isStored_eq_false_iff]
    simp
  have hEnum : model.hasEnum p.name = false :=
    hModel.hasEnum_eq_false (Model.hasStruct_iff.2 (List.mem_map_of_mem hp))
  unfold IsKeyOf Sql.targetOf
  rw [hStored]
  cases m.reference with
  | some r => simp [and_comm]
  | none =>
    cases m.type with
    | named n =>
      simp only [reduceCtorEq, false_and, TypeExpr.named.injEq, true_and, false_or, ne_eq,
        not_false_eq_true, implies_true]
      constructor
      · rintro rfl
        simp [hEnum, keyName]
      · intro hTarget
        split at hTarget
        · cases hTarget
        · exact congrArg Reference.struct (Option.some.inj hTarget)
    | scalar | array => simp

namespace SqlComposition

variable {model composed : Model} {c p : Struct}

/-- Where the name of the key is free, the elements get it; otherwise the member of that name takes
its place. -/
theorem hasHolderKey_iff (h : SqlComposition model composed) (hp : p ∈ model.structs)
    (hc : c ∈ model.structs) (hArray : ∃ m ∈ p.members, m.type = .array (.named c.name)) :
    Sql.HasHolderKey (Sql.tables composed) p.name c.name ↔
      ∀ m ∈ c.members, m.name = p.name ++ "Id" → m.IsKeyOf model p.name := by
  obtain ⟨c', hc', hKeys⟩ := h.exists_result hc
  have hTarget : Sql.targetOf composed = Sql.targetOf model := by
    funext m
    unfold Sql.targetOf Model.hasEnum
    rw [h.grows.enums]
  simp only [Sql.hasHolderKey_tables_iff h.structNames, Sql.isStored_composed h.grows, hTarget,
    ← Member.isKeyOf_iff h.consistent hp]
  constructor
  · rintro ⟨d', hd', hName, m', hm', hKey', hIsKey⟩ m hm hKey
    obtain rfl := h.eq_of_name_eq hd' hc' (hName.trans hKeys.name.symm)
    have hm : m ∈ d'.members := by
      rw [hKeys.members]
      exact List.mem_append_left _ hm
    obtain rfl := h.member_eq_of_name_eq hd' hm hm' (hKey.trans hKey'.symm)
    exact hIsKey
  · intro hAll
    by_cases hThere : c.hasMember (p.name ++ "Id") = true
    · obtain ⟨m, hm, hKey⟩ := List.any_eq_true.1 hThere
      have hKey : m.name = p.name ++ "Id" := by simpa using hKey
      refine ⟨c', hc', hKeys.name, m, ?_, hKey, hAll m hm hKey⟩
      rw [hKeys.members]
      exact List.mem_append_left _ hm
    · have hHolder : p ∈ holdersOf model c := by
        simp only [holdersOf, List.mem_filter]
        refine ⟨hp, ?_⟩
        simpa [hThere] using hArray
      refine ⟨c', hc', hKeys.name, Sql.holderKey p.name, ?_, rfl, .inl ⟨rfl, by
        simp [Sql.holderKey]⟩⟩
      rw [hKeys.members]
      exact List.mem_append_right _ (List.mem_map_of_mem hHolder)

end SqlComposition

/-- The arrays of structs of a checked schema that is composed with SQL and other generators. The
table of the elements has the key of the struct that holds them, with a foreign key to it, exactly
if the elements declare no member of that name or one that is such a key itself. -/
theorem arrays_keep_keys_iff {source : String} {files : FileSystem} {model : Model}
    (h : compile source files = .ok model) {bs : List Builtin} {engine : Engine}
    (hBs : Builtin.register bs = .ok engine) {o : Sql.Options} (ho : .sql o ∈ bs) :
    ∃ composed registry, engine.compose model = (composed, .ok registry) ∧
      (∀ es, engine.emit composed registry = .ok es →
        ⟨"sql", Sql.schemaFile, Sql.schemaText o.dialect (Sql.tables composed)⟩ ∈ es) ∧
      ∀ p ∈ model.structs, ∀ c ∈ model.structs,
        (∃ m ∈ p.members, m.type = .array (.named c.name)) →
        (Sql.HasHolderKey (Sql.tables composed) p.name c.name ↔
          ∀ m ∈ c.members, m.name = p.name ++ "Id" → m.IsKeyOf model p.name) := by
  obtain ⟨hDistinct, rfl⟩ := Builtin.register_eq_ok_iff.1 hBs
  have hComposition := sqlComposition_of_compile h hDistinct ho
  refine ⟨Builtin.composed bs model, Builtin.registryOf bs, Builtin.compose_eq_composed bs model,
    fun es hEs => Builtin.schema_mem_emit hDistinct ho hEs, ?_⟩
  intro p hp c hc hArray
  exact hComposition.hasHolderKey_iff hp hc hArray

/-- One key is given, and the other one is declared. -/
theorem shop_arrays_keep_keys :
    compile shopSource = .ok shopModel ∧
      ∃ engine, Builtin.register [.jsonSchema, .sql ⟨.postgres, true⟩] = .ok engine ∧
        ∃ composed registry, engine.compose shopModel = (composed, .ok registry) ∧
          Sql.HasHolderKey (Sql.tables composed) "Shop" "Order" ∧
          Sql.HasHolderKey (Sql.tables composed) "Trip" "City" := by
  have hBs : Builtin.register [.jsonSchema, .sql ⟨.postgres, true⟩] =
      .ok ⟨[.jsonSchema, .sql ⟨.postgres, true⟩].map Builtin.generator⟩ :=
    Builtin.register_eq_ok_iff.2 ⟨by decide, rfl⟩
  obtain ⟨composed, registry, hCompose, -, hAll⟩ := arrays_keep_keys_iff compile_shopSource hBs
    (List.mem_cons_of_mem _ List.mem_cons_self)
  refine ⟨compile_shopSource, _, hBs, composed, registry, hCompose, ?_, ?_⟩
  · refine (hAll shopModel.structs[0] ?_ shopModel.structs[1] ?_ ?_).2 ?_
    all_goals simp [shopModel, Member.key, keyName]
  · refine (hAll shopModel.structs[3] ?_ shopModel.structs[2] ?_ ?_).2 ?_
    all_goals simp [shopModel, Member.key, keyName, Member.IsKeyOf]

/-- A member with the name of the key keeps it out, whatever it is: the array then leaves no trace
in the tables. -/
theorem array_loses_key :
    ∃ model engine composed registry,
      compile "struct A \x7b array<B>: bs; \x7d struct B \x7b int64: AId; \x7d" = .ok model ∧
      Builtin.register [.sql {}] = .ok engine ∧ engine.compose model = (composed, .ok registry) ∧
      (∃ p ∈ model.structs, p.name = "A" ∧ ∃ m ∈ p.members, m.type = .array (.named "B")) ∧
      model.hasStruct "B" = true ∧ ¬ Sql.HasHolderKey (Sql.tables composed) "A" "B" := by
  obtain ⟨model, hCompile, hShows⟩ := exists_of_any_compile
    "struct A \x7b array<B>: bs; \x7d struct B \x7b int64: AId; \x7d"
    (fun model => decide (
      let composed := Builtin.composed [.sql {}] model
      composed.structNames.Nodup ∧
      (∃ p ∈ model.structs, p.name = "A" ∧ ∃ m ∈ p.members, m.type = .array (.named "B")) ∧
      model.hasStruct "B" = true ∧
      ¬ ∃ s ∈ composed.structs, s.name = "B" ∧ ∃ m ∈ s.members, m.name = "A" ++ "Id" ∧
        Sql.isStored composed m = true ∧ Sql.targetOf composed m = some ⟨"A", "id"⟩))
    (by decide +kernel)
  obtain ⟨hNames, hArray, hStruct, hNone⟩ := of_decide_eq_true hShows
  exact ⟨model, _, _, _, hCompile, Builtin.register_eq_ok_iff.2 ⟨List.nodup_singleton _, rfl⟩,
    Builtin.compose_eq_composed _ model, hArray, hStruct,
    fun h => hNone ((Sql.hasHolderKey_tables_iff hNames).1 h)⟩

end EntitySchema
