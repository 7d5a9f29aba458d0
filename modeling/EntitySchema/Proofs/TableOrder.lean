import EntitySchema.Proofs.HolderKeys
import EntitySchema.Proofs.Layering

/-!
The order of the tables. A table is to be created after those that its columns link to. The graph of
the model counts the same links as the tables have, as long as keys are where it looks for them, so
tables keep that order but for links into a cycle.
-/

namespace EntitySchema

open Relation StructGraph

/-! ## Links between tables -/

namespace Sql

variable {model : Model} {s : Struct} {a b : String}

/-- A column of the one table links to the other one. -/
def Links (tables : List Table) (a b : String) : Prop :=
  a ≠ b ∧ ∃ t ∈ tables, t.name = a ∧ ∃ c ∈ t.columns, c.target.map Reference.struct = some b

/-- The struct whose table the column of a member links to. -/
def linkOf? (model : Model) (m : Member) : Option String :=
  (Column.ofMember model m).target.map Reference.struct

theorem linkOf?_eq (model : Model) (m : Member) :
    linkOf? model m = if m.isOwnKey then none else (targetOf model m).map Reference.struct := by
  rw [linkOf?, Column.ofMember]
  split <;> rfl

theorem name_orderedStructs (model : Model) :
    (orderedStructs model).map Struct.name = (ofModel model).ordered := by
  have hNamed : ∀ n ∈ (ofModel model).ordered, (model.struct? n).map Struct.name = some n := by
    intro n hn
    have hn : n ∈ model.structNames := mem_ordered.1 hn
    cases hs : model.struct? n with
    | none => exact absurd hn (Model.struct?_eq_none_iff.1 hs)
    | some s => rw [Option.map_some, Model.struct?_name hs]
  rw [orderedStructs, List.map_filterMap, List.filterMap_congr hNamed, List.filterMap_some]

theorem mem_orderedStructs (hNames : model.structNames.Nodup) :
    s ∈ orderedStructs model ↔ s ∈ model.structs := by
  rw [orderedStructs, List.mem_filterMap]
  constructor
  · rintro ⟨n, -, hs⟩
    exact Model.struct?_mem hs
  · intro hs
    exact ⟨s.name, mem_ordered.2 (List.mem_map_of_mem hs), Model.struct?_of_mem hNames hs⟩

theorem nodup_orderedStructs (model : Model) :
    ((orderedStructs model).map Struct.name).Nodup := by
  rw [name_orderedStructs]
  exact nodup_ordered _

theorem name_tables (model : Model) :
    (tables model).map Table.name = (ofModel model).ordered := by
  rw [← name_orderedStructs, tables, List.map_map]
  rfl

theorem links_tables_iff (hNames : model.structNames.Nodup) :
    Links (tables model) a b ↔
      a ≠ b ∧ ∃ s ∈ model.structs, s.name = a ∧ ∃ m ∈ s.members,
        isStored model m = true ∧ linkOf? model m = some b := by
  simp [Links, tables, Table.ofStruct, storedMembers, linkOf?, mem_orderedStructs hNames, and_assoc]

end Sql

/-! ## Links and dependencies -/

namespace Model

variable {model : Model} {c : Struct} {m : Member}

/-- A reference of a checked model leads to a struct. -/
theorem hasStruct_of_validate (h : model.validate = .ok ()) (hc : c ∈ model.structs)
    (hm : m ∈ c.members) {r : Reference} (hr : m.reference = some r) :
    model.hasStruct r.struct = true := by
  obtain ⟨_, hMembers, _⟩ := bind_eq_ok_iff.1 h
  have hMember : Rules.checkMember model c m = .ok () :=
    forM_eq_ok_iff.1 (forM_eq_ok_iff.1 hMembers c hc) m hm
  have hReference : Rules.checkReference model c m = .ok () := by
    obtain ⟨_, _, h⟩ := bind_eq_ok_iff.1 hMember
    obtain ⟨_, _, h⟩ := bind_eq_ok_iff.1 h
    obtain ⟨_, _, h⟩ := bind_eq_ok_iff.1 h
    obtain ⟨_, _, h⟩ := bind_eq_ok_iff.1 h
    obtain ⟨_, _, h⟩ := bind_eq_ok_iff.1 h
    exact h
  unfold Rules.checkReference at hReference
  rw [hr] at hReference
  cases hFound : model.struct? r.struct with
  | none => simp [hFound] at hReference
  | some s =>
    rw [hasStruct_iff, ← struct?_name hFound]
    exact List.mem_map_of_mem (struct?_mem hFound)

theorem Consistent.hasEnum_eq_false (h : model.Consistent) {n : String}
    (hn : model.hasStruct n = true) : model.hasEnum n = false := by
  rw [Bool.eq_false_iff]
  intro hEnum
  have hEnum : n ∈ model.enums.map Enumeration.name := by simpa [hasEnum] using hEnum
  exact (List.nodup_append.1 h.names).2.2 n (hasStruct_iff.1 hn) n hEnum rfl

end Model

namespace Struct

/-- A column that is made of a struct refers to no other struct than its type. -/
def RefersToTypes (model : Model) (c : Struct) : Prop :=
  ∀ m ∈ c.members, Sql.isStored model m = true → ∀ r ∈ m.reference,
    (m.type.innermostName?.filter model.hasStruct).isSome = true → m.type = .named r.struct

instance {model : Model} {c : Struct} : Decidable (c.RefersToTypes model) :=
  inferInstanceAs (Decidable (∀ m ∈ c.members, Sql.isStored model m = true → ∀ r ∈ m.reference,
    (m.type.innermostName?.filter model.hasStruct).isSome = true → m.type = .named r.struct))

/-- The struct gets a key from another one, or it declares a column that links there. -/
def KeepsKeyOf (model : Model) (c p : Struct) : Prop :=
  p ∈ holdersOf model c ∨
    ∃ m ∈ c.members, Sql.isStored model m = true ∧ Sql.linkOf? model m = some p.name

instance {model : Model} {c p : Struct} : Decidable (c.KeepsKeyOf model p) :=
  inferInstanceAs (Decidable (_ ∨ _))

/-- The keys of a struct are where the graph of the model looks for them: whatever holds the struct
in arrays, or in arrays of arrays, has its key there. Of what does not lead into a cycle, the graph
may count more than the tables have. -/
structure KeysInPlace (model composed : Model) (c : Struct) : Prop where
  own : c.RefersToTypes model
  held : ∀ p ∈ model.structs, p.name ≠ c.name → (∃ m ∈ p.members, HoldsMany m c.name) →
    c.KeepsKeyOf model p ∨ ¬ Tangled (ofModel composed).StoresKeyOf p.name

end Struct

namespace Sql

variable {model model' : Model} {c : Struct} {m : Member} {a b : String}

theorem isStored_named {n : String} (hType : m.type = .named n) : isStored model m = true := by
  simp [isStored, hType, TypeExpr.elementName?, TypeExpr.element?]

theorem isStored_of_filter_eq_none (h : m.type.innermostName?.filter model.hasStruct = none) :
    isStored model m = true := by
  rw [isStored]
  split
  · rename_i n hn
    cases hType : m.type with
    | array t =>
      cases t <;> simp_all [TypeExpr.elementName?, TypeExpr.element?, TypeExpr.named?,
        TypeExpr.innermostName?]
    | scalar | named => simp [hType, TypeExpr.elementName?, TypeExpr.element?] at hn
  · rfl

/-- A column that is made of no struct links to what it refers to. -/
theorem link_of_reference (hValid : model.validate = .ok ()) (hc : c ∈ model.structs)
    (hm : m ∈ c.members)
    (hInner : m.type.innermostName?.filter model.hasStruct = none) :
    (targetOf model m).map Reference.struct = m.reference.map Reference.struct := by
  rw [targetOf]
  split
  · rename_i hr
    rw [hr]
  · rename_i n hr hType
    -- A name that is no struct is an enum, and the column holds a number.
    have hName : m.type.innermostName? = some n := by rw [hType, TypeExpr.innermostName?]
    have hNames := Printer.mem_names_of_validate hValid hc hm hName
    have hEnum : model.hasEnum n = true := by
      rw [← Model.isDeclared_iff, Model.isDeclared, Bool.or_eq_true] at hNames
      exact hNames.resolve_left (by simpa [hName] using hInner)
    simp [hEnum, hr]
  · rename_i hr _
    rw [hr]

/-- A column that is made of a struct links to it if the struct is its type. -/
theorem link_of_struct (hModel : model.Consistent) (hRefers : c.RefersToTypes model)
    (hm : m ∈ c.members) {n : String} (hn : m.type.innermostName? = some n)
    (hStruct : model.hasStruct n = true) :
    isStored model m = true ∧ (targetOf model m).map Reference.struct = some b ↔
      m.type = .named b := by
  have hOwn : isStored model m = true → ∀ r, m.reference = some r → m.type = .named r.struct :=
    fun hStored r hr => hRefers m hm hStored r hr (by simp [hn, hStruct])
  have hTarget : ∀ k, m.type = .named k → (targetOf model m).map Reference.struct = some k := by
    intro k hType
    obtain rfl : k = n := by simpa [hType, TypeExpr.innermostName?] using hn
    rw [targetOf, hType]
    cases hr : m.reference with
    | none => simp [hModel.hasEnum_eq_false hStruct]
    | some r =>
      have := hOwn (isStored_named hType) r hr
      simp_all
  constructor
  · rintro ⟨hStored, hb⟩
    cases hr : m.reference with
    | some r =>
      have hType := hOwn hStored r hr
      rw [hTarget _ hType] at hb
      rw [hType, Option.some.inj hb]
    | none =>
      cases hType : m.type with
      | named k =>
        rw [hTarget k hType] at hb
        rw [Option.some.inj hb]
      | scalar | array => simp [targetOf, hr, hType] at hb
  · intro hType
    exact ⟨isStored_named hType, hTarget b hType⟩

/-- Column by column, the table of a struct has the links that the graph counts. -/
theorem linkOf?_eq_some_iff (hModel : model.Consistent) (hValid : model.validate = .ok ())
    (hc : c ∈ model.structs) (hRefers : c.RefersToTypes model) (hm : m ∈ c.members) :
    isStored model m = true ∧ linkOf? model m = some b ↔
      model.hasStruct b = true ∧ PointsTo model m b := by
  rw [linkOf?_eq, PointsTo]
  rcases Reader.declared_or_key (hModel.structs c hc) hm with hDeclared | rfl
  case inr =>
    -- The key that every struct has links to nothing.
    simp [Member.key, Member.isOwnKey, TypeExpr.innermostName?, Owner.isSchema]
  have hOwn : m.isOwnKey = false := by simp [Member.isOwnKey, hDeclared.notKey]
  rw [hOwn, if_neg Bool.false_ne_true]
  cases hInner : m.type.innermostName?.filter model.hasStruct with
  | none =>
    rw [link_of_reference hValid hc hm hInner, isStored_of_filter_eq_none hInner]
    have hNamed : model.hasStruct b = true → m.type ≠ .named b := by
      intro hb hType
      simp [hType, TypeExpr.innermostName?, hb] at hInner
    have hTarget : m.reference.map Reference.struct = some b → model.hasStruct b = true := by
      intro hb
      obtain ⟨r, hr, rfl⟩ := Option.map_eq_some_iff.1 hb
      exact Model.hasStruct_of_validate hValid hc hm hr
    grind
  | some n =>
    obtain ⟨hn, hStruct⟩ := Option.filter_eq_some_iff.1 hInner
    rw [link_of_struct hModel hRefers hm hn hStruct]
    have hNamed : m.type = .named b → model.hasStruct b = true := by
      intro hType
      obtain rfl : b = n := by simpa [hType, TypeExpr.innermostName?] using hn
      exact hStruct
    simp only [reduceCtorEq, false_and, or_false]
    exact ⟨fun h => ⟨hNamed h, h⟩, And.right⟩

/-! ## The composed model -/

theorem exists_member_iff {c' : Struct} (h : c.GetsKeys model c') {p : Member → Prop} :
    (∃ m ∈ c'.members, p m) ↔
      (∃ m ∈ c.members, p m) ∨ ∃ holder ∈ holdersOf model c, p (holderKey holder.name) := by
  rw [h.members]
  simp only [List.mem_append, or_and_right, exists_or, List.mem_map, exists_exists_and_eq_and]
  rfl

section Composed

variable (hGrows : model.Grows model')
  (hKeys : List.Forall₂ (Struct.GetsKeys model) model.structs model'.structs)

include hGrows

theorem isStored_composed : isStored model' = isStored model := by
  funext m
  simp only [isStored, hGrows.hasStruct]

theorem linkOf?_composed : linkOf? model' = linkOf? model := by
  have hEnum : model'.hasEnum = model.hasEnum := by
    funext n
    rw [Model.hasEnum, Model.hasEnum, hGrows.enums]
  have hTarget : targetOf model' = targetOf model := by
    unfold targetOf
    rw [hEnum]
  funext m
  rw [linkOf?_eq, linkOf?_eq, hTarget]

theorem pointsTo_composed : PointsTo model' = PointsTo model := by
  have hStruct : model'.hasStruct = model.hasStruct := funext fun _ => hGrows.hasStruct
  funext m n
  simp only [PointsTo, hStruct]

include hKeys

theorem links_composed_iff (hNames : model.structNames.Nodup) :
    Links (tables model') a b ↔ a ≠ b ∧ ∃ c ∈ model.structs, c.name = a ∧
      ((∃ m ∈ c.members, isStored model m = true ∧ linkOf? model m = some b) ∨
        ∃ holder ∈ holdersOf model c, holder.name = b) := by
  rw [links_tables_iff (hGrows.structNames ▸ hNames), isStored_composed hGrows,
    linkOf?_composed hGrows]
  refine and_congr_right fun _ => (exists_mem_iff_of_forall₂ hKeys fun hc => ?_).symm
  rw [hc.name, exists_member_iff hc]
  simp [isStored, linkOf?_eq, holderKey, Member.isOwnKey, targetOf, TypeExpr.elementName?,
    TypeExpr.element?]

theorem dependsOn_composed_iff :
    DependsOn (ofModel model').dependencies a b ↔ a ≠ b ∧
      ((∃ c ∈ model.structs, c.name = a ∧
        ((∃ m ∈ c.members, model.hasStruct b = true ∧ PointsTo model m b) ∨
          ∃ holder ∈ holdersOf model c, holder.name = b)) ∨
      ∃ p ∈ model.structs, p.name = b ∧ ∃ m ∈ p.members,
        model.hasStruct a = true ∧ HoldsMany m a) := by
  have hHolder : ∀ {c holder}, holder ∈ holdersOf model c → model.hasStruct holder.name = true :=
    fun h => Model.hasStruct_iff.2 (List.mem_map_of_mem (List.mem_filter.1 h).1)
  rw [dependsOn_iff, pointsTo_composed hGrows, hGrows.hasStruct, hGrows.hasStruct]
  refine and_congr_right fun _ => or_congr ?_ ?_
  · refine (exists_mem_iff_of_forall₂ hKeys fun hc => ?_).symm
    rw [hc.name, exists_member_iff hc]
    have hKey : ∀ {n}, PointsTo model (holderKey n) b ↔ n = b := by
      simp [PointsTo, holderKey, TypeExpr.innermostName?]
    simp only [hKey]
    grind
  · refine (exists_mem_iff_of_forall₂ hKeys fun hc => ?_).symm
    rw [hc.name, exists_member_iff hc]
    simp [HoldsMany, holderKey, TypeExpr.isArray]

end Composed

section Dependencies

variable (hModel : model.Consistent) (hValid : model.validate = .ok ())
  (hGrows : model.Grows model')
  (hKeys : List.Forall₂ (Struct.GetsKeys model) model.structs model'.structs)

include hModel hValid hGrows hKeys

/-- The graph counts the links of a table. -/
theorem storesKeyOf_of_links (ha : ∀ c ∈ model.structs, c.name = a → c.RefersToTypes model)
    (h : Links (tables model') a b) : (ofModel model').StoresKeyOf a b := by
  rw [← dependsOn_eq_storesKeyOf, dependsOn_composed_iff hGrows hKeys]
  rw [links_composed_iff hGrows hKeys hModel.structNames] at h
  obtain ⟨hNe, c, hc, hName, ⟨m, hm, hLink⟩ | hHolder⟩ := h
  · have hLink := (linkOf?_eq_some_iff hModel hValid hc (ha c hc hName) hm).1 hLink
    exact ⟨hNe, .inl ⟨c, hc, hName, .inl ⟨m, hm, hLink⟩⟩⟩
  · exact ⟨hNe, .inl ⟨c, hc, hName, .inr hHolder⟩⟩

/-- Where keys are in place, the table has all links that lead into a cycle. -/
theorem links_of_storesKeyOf (ha : ∀ c ∈ model.structs, c.name = a → c.KeysInPlace model model')
    (h : (ofModel model').StoresKeyOf a b) (hb : Tangled (ofModel model').StoresKeyOf b) :
    Links (tables model') a b := by
  rw [← dependsOn_eq_storesKeyOf, dependsOn_composed_iff hGrows hKeys] at h
  rw [links_composed_iff hGrows hKeys hModel.structNames]
  obtain ⟨hNe, ⟨c, hc, hName, ⟨m, hm, hLink⟩ | hHolder⟩ | ⟨p, hp, rfl, m, hm, hStruct, hMany⟩⟩ := h
  · have hLink := (linkOf?_eq_some_iff hModel hValid hc (ha c hc hName).own hm).2 hLink
    exact ⟨hNe, c, hc, hName, .inl ⟨m, hm, hLink⟩⟩
  · exact ⟨hNe, c, hc, hName, .inr hHolder⟩
  · -- The graph counts an array as a key of the elements, whether or not they have got one.
    obtain ⟨c, hc, rfl⟩ := List.mem_map.1 (Model.hasStruct_iff.1 hStruct)
    have hKeeps := ((ha c hc rfl).held p hp (Ne.symm hNe) ⟨m, hm, hMany⟩).resolve_right
      (not_not.2 hb)
    rcases hKeeps with hHolder | hColumn
    · exact ⟨hNe, c, hc, rfl, .inr ⟨p, hHolder, rfl⟩⟩
    · exact ⟨hNe, c, hc, rfl, .inl hColumn⟩

end Dependencies

theorem perm_tables (hNames : model.structNames.Nodup) :
    ((tables model).map Table.name).Perm model.structNames := by
  rw [name_tables, List.perm_ext_iff_of_nodup (nodup_ordered _) hNames]
  exact fun n => mem_ordered

end Sql

namespace Builtin

/-- The file with all tables is among those emitted. -/
theorem schema_mem_emit {bs : List Builtin} (hDistinct : (bs.map name).Nodup) {o : Sql.Options}
    (ho : sql o ∈ bs) {model : Model} {registry : Registry} {es : List Engine.Emitted}
    (h : (Engine.mk (bs.map generator)).emit model registry = .ok es) :
    ⟨"sql", Sql.schemaFile, Sql.schemaText o.dialect (Sql.tables model)⟩ ∈ es := by
  obtain ⟨as, has, hFiles⟩ := emit_filter hDistinct h ho
  rw [Engine.artifactsOf_eq_emit rfl] at has
  obtain ⟨files, -, hEmit⟩ := bind_eq_ok_iff.1 (show Sql.emit o model = .ok as from has)
  refine (List.mem_filter.1 (hFiles ▸ List.mem_map_of_mem ?_)).1
  rw [← Except.ok.inj hEmit]
  exact List.mem_append_right _ (List.mem_singleton_self _)

end Builtin

/-! ## The order of tables -/

namespace Sql

variable {model : Model} {here there : List String} {a b : String}

/-- The tables of the one list link to themselves and to those of the other list only. -/
def LinksInto (model : Model) (here there : List String) : Prop :=
  ∀ s ∈ model.structs, s.name ∈ here → ∀ m ∈ s.members, isStored model m = true →
    ∀ n ∈ linkOf? model m, n = s.name ∨ n ∈ there

instance : Decidable (LinksInto model here there) :=
  inferInstanceAs (Decidable (∀ s ∈ model.structs, s.name ∈ here → ∀ m ∈ s.members,
    isStored model m = true → ∀ n ∈ linkOf? model m, n = s.name ∨ n ∈ there))

theorem LinksInto.of_links (h : LinksInto model here there) (hNames : model.structNames.Nodup)
    (ha : a ∈ here) (hab : Links (tables model) a b) : b ∈ there := by
  obtain ⟨hNe, s, hs, rfl, m, hm, hStored, hLink⟩ := (links_tables_iff hNames).1 hab
  exact (h s hs ha m hm hStored b hLink).resolve_left (Ne.symm hNe)

theorem LinksInto.of_reaches (h : LinksInto model here here) (hNames : model.structNames.Nodup)
    (ha : a ∈ here) (hab : ReflTransGen (Links (tables model)) a b) : b ∈ here := by
  induction hab with
  | refl => exact ha
  | tail _ hStep ih => exact h.of_links hNames ih hStep

end Sql

/-- The tables of a checked schema that is composed with SQL and other generators. There is one for
each struct. Of two structs of which the graph says that one stores the key of the other, the table
of the other one comes first, unless it leads into a cycle: such tables stand in ascending order.
The same holds of the links between tables, if the one table refers to types and keys are in place
in those that the links of the other one lead to. -/
theorem tables_before_iff {source : String} {files : FileSystem} {model : Model}
    (h : compile source files = .ok model) {bs : List Builtin} {engine : Engine}
    (hBs : Builtin.register bs = .ok engine)
    {o : Sql.Options} (ho : .sql o ∈ bs) :
    ∃ composed registry, engine.compose model = (composed, .ok registry) ∧
      (∀ es, engine.emit composed registry = .ok es →
        ⟨"sql", Sql.schemaFile, Sql.schemaText o.dialect (Sql.tables composed)⟩ ∈ es) ∧
      ((Sql.tables composed).map Sql.Table.name).Perm (model.structs.map Struct.name) ∧
      (∀ a b, (ofModel composed).StoresKeyOf a b →
        ([b, a].Sublist ((Sql.tables composed).map Sql.Table.name) ↔
          (Tangled (ofModel composed).StoresKeyOf b → b < a))) ∧
      ∀ a b, Sql.Links (Sql.tables composed) a b →
        (∀ c ∈ model.structs, c.name = a → c.RefersToTypes model) →
        (∀ c ∈ model.structs, ReflTransGen (Sql.Links (Sql.tables composed)) b c.name →
          c.KeysInPlace model composed) →
        ([b, a].Sublist ((Sql.tables composed).map Sql.Table.name) ↔
          (Tangled (Sql.Links (Sql.tables composed)) b → b < a)) := by
  obtain ⟨hDistinct, rfl⟩ := Builtin.register_eq_ok_iff.1 hBs
  obtain ⟨hRead, hValid⟩ := Printer.compile_eq_ok h
  have hModel := Printer.consistent_of_readModel hRead
  have hNames := hModel.structNames
  have hGrows := Builtin.grows_composed bs model
  have hKeys := Builtin.getsKeys_composed hDistinct ho hNames
  have hOrder : ∀ a b, (ofModel (Builtin.composed bs model)).StoresKeyOf a b →
      ([b, a].Sublist ((Sql.tables (Builtin.composed bs model)).map Sql.Table.name) ↔
        (Tangled (ofModel (Builtin.composed bs model)).StoresKeyOf b → b < a)) := by
    intro a b hab
    rw [← dependsOn_eq_storesKeyOf] at hab ⊢
    rw [Sql.name_tables, before_ordered_iff hab]
  refine ⟨Builtin.composed bs model, Builtin.registryOf bs, Builtin.compose_eq_composed bs model,
    fun es hEs => Builtin.schema_mem_emit hDistinct ho hEs, ?_, hOrder, ?_⟩
  · have hPerm := Sql.perm_tables (hGrows.structNames ▸ hNames)
    rwa [hGrows.structNames] at hPerm
  · intro a b hab ha hPlace
    -- What the tables and the graph count leads into the same cycles.
    have hSame : Tangled (Sql.Links (Sql.tables (Builtin.composed bs model))) b ↔
        Tangled (ofModel (Builtin.composed bs model)).StoresKeyOf b := by
      refine Tangled.congr (fun n hn d hnd => ?_) (fun n hn d hnd hd => ?_)
      · exact Sql.storesKeyOf_of_links hModel hValid hGrows hKeys
          (fun c hc hName => (hPlace c hc (hName ▸ hn)).own) hnd
      · exact Sql.links_of_storesKeyOf hModel hValid hGrows hKeys
          (fun c hc hName => hPlace c hc (hName ▸ hn)) hnd hd
    rw [hOrder a b (Sql.storesKeyOf_of_links hModel hValid hGrows hKeys ha hab), hSame]

theorem shop_before_order :
    compile shopSource = .ok shopModel ∧
      ∃ engine, Builtin.register [.jsonSchema, .sql ⟨.mysql, false⟩] = .ok engine ∧
        ∃ composed registry, engine.compose shopModel = (composed, .ok registry) ∧
          Sql.Links (Sql.tables composed) "Order" "Shop" ∧
          (∀ c ∈ shopModel.structs, c.RefersToTypes shopModel) ∧
          (∀ c ∈ shopModel.structs, c.KeysInPlace shopModel composed) ∧
          ¬ Tangled (Sql.Links (Sql.tables composed)) "Shop" ∧
          ["Shop", "Order"].Sublist ((Sql.tables composed).map Sql.Table.name) := by
  let bs : List Builtin := [.jsonSchema, .sql ⟨.mysql, false⟩]
  have hBs : Builtin.register bs = .ok ⟨bs.map Builtin.generator⟩ :=
    Builtin.register_eq_ok_iff.2 ⟨by decide, rfl⟩
  have hNames : (Builtin.composed bs shopModel).structNames.Nodup := by decide +kernel
  have hLink : Sql.Links (Sql.tables (Builtin.composed bs shopModel)) "Order" "Shop" :=
    (Sql.links_tables_iff hNames).2 (by decide +kernel)
  have hRefers : ∀ c ∈ shopModel.structs, c.RefersToTypes shopModel := by decide +kernel
  have hKeeps : ∀ c ∈ shopModel.structs, ∀ p ∈ shopModel.structs, p.name ≠ c.name →
      (∃ m ∈ p.members, HoldsMany m c.name) → c.KeepsKeyOf shopModel p := by
    decide +kernel
  have hPlace : ∀ c ∈ shopModel.structs,
      c.KeysInPlace shopModel (Builtin.composed bs shopModel) :=
    fun c hc => ⟨hRefers c hc, fun p hp hNe hHolds => .inl (hKeeps c hc p hp hNe hHolds)⟩
  have hFree : ¬ Tangled (Sql.Links (Sql.tables (Builtin.composed bs shopModel))) "Shop" := by
    intro hShop
    have hShops : Sql.LinksInto (Builtin.composed bs shopModel) ["Shop"] ["City"] := by
      decide +kernel
    have hCities : Sql.LinksInto (Builtin.composed bs shopModel) ["City"] ["Trip"] := by
      decide +kernel
    have hTrips : Sql.LinksInto (Builtin.composed bs shopModel) ["Trip"] [] := by
      decide +kernel
    obtain ⟨city, hCity, hRest⟩ := hShop.exists_step
    obtain ⟨trip, hTrip, hRest⟩ := hRest.exists_step
    obtain ⟨none, hNone, -⟩ := hRest.exists_step
    have hCity := hShops.of_links hNames List.mem_cons_self hCity
    have hTrip := hCities.of_links hNames hCity hTrip
    cases hTrips.of_links hNames hTrip hNone
  obtain ⟨composed, registry, hCompose, -, -, -, hOrder⟩ := tables_before_iff compile_shopSource hBs
    (List.mem_cons_of_mem _ List.mem_cons_self)
  obtain ⟨rfl, -⟩ := Prod.mk.inj ((Builtin.compose_eq_composed bs shopModel).symm.trans hCompose)
  exact ⟨compile_shopSource, _, hBs, _, _, hCompose, hLink, hRefers, hPlace, hFree,
    (hOrder "Order" "Shop" hLink (fun c hc _ => hRefers c hc) (fun c hc _ => hPlace c hc)).2
      (fun h => absurd h hFree)⟩

/-! ## Tables that come too early -/

namespace Sql

variable {model : Model} {a b : String} {closed : List String}

/-- Composed with SQL, the schema has a table `a` that links to `b` and comes before it, and no
links lead back. -/
def OutOfOrder (source : String) (a b : String) : Prop :=
  ∃ model engine composed registry, compile source = .ok model ∧
    Builtin.register [.sql {}] = .ok engine ∧ engine.compose model = (composed, .ok registry) ∧
    Links (tables composed) a b ∧ ¬ ReflTransGen (Links (tables composed)) b a ∧
    [a, b].Sublist ((tables composed).map Table.name)

/-- What can be computed to see that tables are out of order. -/
structure ShowsDisorder (model : Model) (a b : String) (closed : List String) : Prop where
  ascending : (ofModel model).nodes.Pairwise (· < ·)
  link : a ≠ b ∧ ∃ s ∈ model.structs, s.name = a ∧ ∃ m ∈ s.members,
    isStored model m = true ∧ linkOf? model m = some b
  noWayBack : a ∉ closed ∧ b ∈ closed ∧ LinksInto model closed closed
  order : [a, b].Sublist
    (levelsOf (ofModel model).dependencies (ofModel model).nodes.eraseDups).flatten

instance : Decidable (ShowsDisorder model a b closed) :=
  decidable_of_iff (_ ∧ _ ∧ _ ∧ _) ⟨fun ⟨h, h', h'', h'''⟩ => ⟨h, h', h'', h'''⟩,
    fun ⟨h, h', h'', h'''⟩ => ⟨h, h', h'', h'''⟩⟩

theorem outOfOrder_of_compile {source : String} (closed : List String)
    (h : (compile source).toOption.any (fun model =>
      decide (ShowsDisorder (Builtin.composed [.sql {}] model) a b closed)) = true) :
    OutOfOrder source a b := by
  obtain ⟨model, hCompile, hShows⟩ := exists_of_any_compile source _ h
  obtain ⟨hAscending, hLink, ⟨ha, hb, hClosed⟩, hOrder⟩ := of_decide_eq_true hShows
  have hNames : (Builtin.composed [.sql {}] model).structNames.Nodup :=
    hAscending.imp Std.ne_of_lt
  refine ⟨model, _, _, _, hCompile, Builtin.register_eq_ok_iff.2 ⟨List.nodup_singleton _, rfl⟩,
    Builtin.compose_eq_composed _ model, (links_tables_iff hNames).2 hLink,
    fun hBack => ha (hClosed.of_reaches hNames hb hBack), ?_⟩
  rwa [name_tables, ordered_of_pairwise hAscending]

end Sql

/-- A table can come before one that it links to although no links lead back: when it is behind a
cycle, when an array of arrays stands for a key that no table has, when a member refers to another
struct than its type, and when a struct has a member with the name of the key that it should get. -/
theorem tables_outOfOrder :
    Sql.OutOfOrder ("struct A \x7b B: b; \x7d struct B \x7b C: c: reference; \x7d " ++
      "struct C \x7b B: b; \x7d") "A" "B" ∧
    Sql.OutOfOrder "struct A \x7b array<array<B>>: xs; B: b; \x7d struct B \x7b bool: x; \x7d"
      "A" "B" ∧
    Sql.OutOfOrder ("struct A \x7b B: b: reference(Z.id); \x7d struct B \x7b bool: x; \x7d " ++
      "struct Z \x7b B: q; \x7d") "A" "Z" ∧
    Sql.OutOfOrder "struct A \x7b array<B>: bs; B: b; \x7d struct B \x7b int64: AId; \x7d"
      "A" "B" :=
  ⟨Sql.outOfOrder_of_compile ["B", "C"] (by decide +kernel),
    Sql.outOfOrder_of_compile ["B"] (by decide +kernel),
    Sql.outOfOrder_of_compile ["B", "Z"] (by decide +kernel),
    Sql.outOfOrder_of_compile ["B"] (by decide +kernel)⟩

end EntitySchema
