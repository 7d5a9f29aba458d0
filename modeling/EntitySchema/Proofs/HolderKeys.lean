import EntitySchema.Proofs.Independence
import EntitySchema.Proofs.RoundTrip
import Mathlib.Data.List.Nodup

/-!
The members that composition adds. With SQL among the generators, a struct gets one key for each
struct that holds it in an array, in the order of declarations, unless it has a member of that name.
The main result says that this is all that happens to members, so that a composed schema is still
printed as it was.
-/

namespace EntitySchema

/-! ## One contribution of SQL -/

namespace Sql

variable {model : Model} {s : Struct} {n c : String}

theorem members_addOperations (fs : List Operation) (s : Struct) :
    (fs.foldl Struct.addOperation s).members = s.members := by
  induction fs generalizing s with
  | nil => rfl
  | cons f fs ih =>
    rw [List.foldl_cons, ih, Struct.addOperation_eq]
    split <;> rfl

theorem members_makeStored (s : Struct) : (makeStored s).members = s.members := by
  rw [makeStored, Struct.addRequirement_eq, Struct.addHook_eq]
  split <;> split <;> exact members_addOperations storedOperations s

theorem members_addHolderKey (s : Struct) (holder : String) :
    (s.addMember (holderKey holder)).members =
      s.members ++ if s.hasMember (holderKeyName holder) then [] else [holderKey holder] := by
  rw [Struct.addMember_eq]
  change (if s.hasMember (holderKeyName holder) = true then s else _).members = _
  split <;> simp

/-- Elements get the key once, however many arrays hold them. -/
theorem struct?_linkElements (holder : String) (elements : List String) (model : Model) :
    (linkElements holder model elements).struct? c =
      (model.struct? c).map (fun s =>
        if c ∈ elements then s.addMember (holderKey holder) else s) := by
  induction elements generalizing model with
  | nil => simp [linkElements]
  | cons e elements ih =>
    have hAgain : ∀ s : Struct, (s.addMember (holderKey holder)).addMember (holderKey holder) =
        s.addMember (holderKey holder) := by
      intro s
      rw [Struct.addMember_eq (s.addMember _)]
      exact if_pos (Builtin.hasMember_addHolderKey s holder)
    rw [linkElements, List.foldl_cons]
    refine (ih _).trans ?_
    rw [Model.struct?_updateStruct (fun s => (s.grows_addHolderKey holder).name)]
    by_cases hc : c = e
    · subst hc
      simp only [if_true, Option.map_map, List.mem_cons, true_or]
      congr 1
      funext s
      by_cases hRest : c ∈ elements <;> simp [hRest, hAgain]
    · simp [hc]

/-- The struct is held in an array of the holder and has no member with the name of its key. -/
def getsKey (model : Model) (s : Struct) (holder : String) : Bool :=
  (elementsIn model holder).contains s.name && !s.hasMember (holderKeyName holder)

theorem members_contribute (o : Options) (hs : model.struct? c = some s) (n : String) :
    ∃ s', ((Builtin.sql o).contribute model n).struct? c = some s' ∧
      s'.members = s.members ++ if getsKey model s n then [holderKey n] else [] := by
  have hStored : model.Grows (model.updateStruct n makeStored) :=
    model.grows_updateStruct n Struct.grows_makeStored
  obtain ⟨t, ht, hMembers⟩ : ∃ t, (model.updateStruct n makeStored).struct? c = some t ∧
      t.members = s.members := by
    rw [Model.struct?_updateStruct (fun s => s.grows_makeStored.name), hs]
    split
    · exact ⟨_, rfl, members_makeStored s⟩
    · exact ⟨s, rfl, rfl⟩
  have hMember : t.hasMember (holderKeyName n) = s.hasMember (holderKeyName n) := by
    simp only [Struct.hasMember, hMembers]
  simp only [Builtin.contribute, struct?_linkElements, ht, Option.map_some,
    elementsIn_of_grows hStored]
  refine ⟨_, rfl, ?_⟩
  rw [getsKey, Model.struct?_name hs]
  by_cases hc : c ∈ elementsIn model n
  · rw [if_pos hc, members_addHolderKey, hMembers, hMember]
    cases s.hasMember (holderKeyName n) <;> simp [hc]
  · simp [hc, hMembers]

theorem holderKeyName_inj {n n' : String} (h : holderKeyName n = holderKeyName n') : n = n' :=
  (String.append_left_inj "Id").1 h

/-! ## All contributions of SQL -/

/-- A struct gets the keys of its holders, in the order in which they contribute. -/
theorem members_contributeAll (o : Options) {names : List String} (hNames : names.Nodup)
    (hs : model.struct? c = some s) :
    ∃ s', ((Builtin.sql o).contributeAll names model).struct? c = some s' ∧
      s'.members = s.members ++ (names.filter (getsKey model s)).map holderKey := by
  induction names generalizing model s with
  | nil => exact ⟨s, hs, by simp⟩
  | cons n names ih =>
    obtain ⟨hNew, hNames⟩ := List.nodup_cons.1 hNames
    obtain ⟨t, ht, hMembers⟩ := members_contribute o hs n
    obtain ⟨s', hs', hMembers'⟩ := ih hNames ht
    -- The key of this holder is not taken for that of a later one.
    have hLater : names.filter (getsKey ((Builtin.sql o).contribute model n) t) =
        names.filter (getsKey model s) := by
      refine List.filter_congr (fun n' hn' => ?_)
      have hOther : holderKeyName n ≠ holderKeyName n' :=
        fun h => hNew (holderKeyName_inj h ▸ hn')
      have hMember : t.hasMember (holderKeyName n') = s.hasMember (holderKeyName n') := by
        simp only [Struct.hasMember, hMembers, List.any_append]
        split <;> simp [holderKey, hOther]
      rw [getsKey, getsKey, elementsIn_of_grows (Builtin.grows_contribute _ model n), hMember,
        Model.struct?_name ht, Model.struct?_name hs]
    refine ⟨s', hs', ?_⟩
    rw [hMembers', hMembers, hLater, List.filter_cons]
    split <;> simp

end Sql

/-! ## Composition -/

namespace Model

variable {model : Model} {s : Struct}

/-- With different names, a struct is what its name stands for. -/
theorem struct?_of_mem (hNames : model.structNames.Nodup) (hs : s ∈ model.structs) :
    model.struct? s.name = some s := by
  cases hFound : model.struct? s.name with
  | none =>
    rw [struct?_eq_none_iff] at hFound
    exact absurd (List.mem_map_of_mem hs) hFound
  | some t =>
    have hName := struct?_name hFound
    rw [List.inj_on_of_nodup_map hNames (struct?_mem hFound) hs hName]

theorem Consistent.structNames (h : model.Consistent) : model.structNames.Nodup :=
  (List.nodup_append.1 h.names).1

end Model

/-- The structs that hold `c` in an array, in the order of declarations, but for those whose key
would have the name of a member that `c` has. -/
def holdersOf (model : Model) (c : Struct) : List Struct :=
  model.structs.filter (fun p =>
    p.members.any (fun m => m.type == .array (.named c.name)) && !c.hasMember (p.name ++ "Id"))

/-- A struct before and after composition: all it had stands in front, and what it gets as members
is the keys of its holders. -/
structure Struct.GetsKeys (model : Model) (c c' : Struct) : Prop where
  name : c'.name = c.name
  position : c'.position = c.position
  members : c'.members = c.members ++ (holdersOf model c).map (fun p => {
    owner := .generator "sql", type := .scalar .int64, name := p.name ++ "Id",
    reference := some ⟨p.name, "id"⟩ })
  operations : c.operations <+: c'.operations
  requirements : c.requirements <+: c'.requirements
  hooks : c.hooks <+: c'.hooks
  capabilities : c.capabilities <+: c'.capabilities

namespace Sql

theorem mem_elementNames {p : Struct} {c : String} :
    c ∈ elementNames p ↔ p.members.any (fun m => m.type == .array (.named c)) = true := by
  have hType : ∀ t : TypeExpr, t.elementName? = some c ↔ t = .array (.named c) := by
    intro t
    cases t with
    | array e => cases e <;> simp [TypeExpr.elementName?, TypeExpr.element?, TypeExpr.named?]
    | scalar | named => simp [TypeExpr.elementName?, TypeExpr.element?]
  simp [elementNames, hType]

theorem filter_getsKey {model : Model} (hNames : model.structNames.Nodup) (c : Struct) :
    model.structNames.filter (getsKey model c) = (holdersOf model c).map Struct.name := by
  rw [Model.structNames, List.filter_map, holdersOf]
  congr 1
  refine List.filter_congr (fun p hp => ?_)
  have hElements : elementsIn model p.name = elementNames p := by
    simp [elementsIn, Model.struct?_of_mem hNames hp]
  simp only [Function.comp_def, getsKey, hElements]
  rw [Bool.eq_iff_iff]
  simp [mem_elementNames, holderKeyName]

end Sql

namespace Builtin

variable {bs : List Builtin} {o : Sql.Options} {model : Model}

/-- What composition makes of a struct. -/
theorem struct?_composed (hDistinct : (bs.map name).Nodup) (ho : sql o ∈ bs)
    (hNames : model.structNames.Nodup) {c : Struct} (hc : c ∈ model.structs) :
    ∃ c', (composed bs model).struct? c.name = some c' ∧ c.GetsKeys model c' := by
  obtain ⟨d, hd, hMembers⟩ :=
    Sql.members_contributeAll o hNames (Model.struct?_of_mem hNames hc)
  -- SQL sees the members as if it worked alone.
  have hView := Sql.struct?_view (composed bs model) c.name
  rw [view_composed hDistinct ho, Sql.struct?_view, hd] at hView
  obtain ⟨c', hc', hSeen⟩ := Option.map_eq_some_iff.1 hView.symm
  obtain ⟨c'', hc'', hGrows⟩ := (grows_composed bs model).struct? hc'
  obtain rfl : c = c'' := Option.some.inj ((Model.struct?_of_mem hNames hc).symm.trans hc'')
  refine ⟨c', hc', { hGrows with members := ?_ }⟩
  have hSame : (Sql.seen c').members = (Sql.seen d).members := by rw [hSeen]
  rw [Sql.seen_members, Sql.seen_members] at hSame
  rw [hSame, hMembers, Sql.filter_getsKey hNames, List.map_map]
  rfl

theorem getsKeys_composed (hDistinct : (bs.map name).Nodup) (ho : sql o ∈ bs)
    (hNames : model.structNames.Nodup) :
    List.Forall₂ (Struct.GetsKeys model) model.structs (composed bs model).structs := by
  have hGrows := grows_composed bs model
  have hNames' : (composed bs model).structNames.Nodup := hGrows.structNames ▸ hNames
  rw [List.forall₂_iff_zip]
  obtain ⟨hLength, hPairs⟩ := List.forall₂_iff_zip.1 hGrows.structs
  refine ⟨hLength, fun {c c'} hPair => ?_⟩
  obtain ⟨d, hd, hKeys⟩ := struct?_composed hDistinct ho hNames (List.of_mem_zip hPair).1
  have hFound := Model.struct?_of_mem hNames' (List.of_mem_zip hPair).2
  rw [(hPairs hPair).name, hd] at hFound
  exact Option.some.inj hFound ▸ hKeys

end Builtin

/-- Composed or not, a model is printed as the same schema. -/
theorem renderWith_of_grows {model model' : Model} (h : model.Grows model')
    (layout : Text.Layout) : model'.renderWith layout = model.renderWith layout := by
  have hStruct : ∀ {s s' : Struct}, s.Grows s' →
      Printer.struct layout s' = Printer.struct layout s := by
    intro s s' hs
    obtain ⟨holders, hMembers⟩ := hs.members
    have hKeys : ∀ holder, (Sql.holderKey holder).owner.isSchema = false := fun _ => rfl
    simp [Printer.struct, Printer.written, hs.name, hMembers, List.filter_map, Function.comp_def,
      hKeys]
  rw [Model.renderWith, Model.renderWith, h.map_structs hStruct, h.enums]

/-- Composing a checked schema with generators of the program, SQL among them, keeps the structs in
their order and changes no enum and no pending name. Each struct gets the keys of its holders as
members and keeps in front what it had, and the schema is printed as before. -/
theorem compose_getsKeys {source : String} {files : FileSystem} {model : Model}
    (h : compile source files = .ok model) {bs : List Builtin} {engine : Engine}
    (hBs : Builtin.register bs = .ok engine)
    {o : Sql.Options} (ho : .sql o ∈ bs) :
    ∃ composed registry, engine.compose model = (composed, .ok registry) ∧
      composed.structs.map Struct.name = model.structs.map Struct.name ∧
      composed.enums = model.enums ∧ composed.pending = model.pending ∧
      List.Forall₂ (Struct.GetsKeys model) model.structs composed.structs ∧
      ∀ layout, composed.renderWith layout = model.renderWith layout := by
  obtain ⟨hDistinct, rfl⟩ := Builtin.register_eq_ok_iff.1 hBs
  have hNames := (Printer.consistent_of_readModel (Printer.compile_eq_ok h).1).structNames
  have hGrows := Builtin.grows_composed bs model
  exact ⟨Builtin.composed bs model, Builtin.registryOf bs, Builtin.compose_eq_composed bs model,
    hGrows.structNames, hGrows.enums, hGrows.pending,
    Builtin.getsKeys_composed hDistinct ho hNames, renderWith_of_grows hGrows⟩

theorem compose_shop_getsKeys :
    compile shopSource = .ok shopModel ∧
      ∃ engine, Builtin.register [.rust, .sql ⟨.postgres, true⟩, .jsonSchema] = .ok engine ∧
        ∃ composed registry, engine.compose shopModel = (composed, .ok registry) ∧
          composed.structs.map Struct.name = shopModel.structs.map Struct.name ∧
          composed.enums = shopModel.enums ∧ composed.pending = shopModel.pending ∧
          List.Forall₂ (Struct.GetsKeys shopModel) shopModel.structs composed.structs ∧
          ∀ layout, composed.renderWith layout = shopModel.renderWith layout := by
  have hBs : Builtin.register [.rust, .sql ⟨.postgres, true⟩, .jsonSchema] =
      .ok ⟨[.rust, .sql ⟨.postgres, true⟩, .jsonSchema].map Builtin.generator⟩ :=
    Builtin.register_eq_ok_iff.2 ⟨by decide, rfl⟩
  exact ⟨compile_shopSource, _, hBs,
    compose_getsKeys compile_shopSource hBs (List.mem_cons_of_mem _ List.mem_cons_self)⟩

end EntitySchema
