import EntitySchema.Generation.Builtin
import EntitySchema.Proofs.Lists
import Mathlib.Data.List.Forall2

/-!
What a generator of the program adds to a model. A contribution only appends: the structs keep their
names, their order and all they had, and the members that are added are keys of holders. So what was
added once is there for good, and adding it again changes nothing.
-/

namespace EntitySchema

/-! ## Changing one struct -/

namespace Model

variable {model : Model} {name n : String} {change : Struct → Struct}

theorem hasStruct_iff : model.hasStruct n = true ↔ n ∈ model.structNames := by
  simp [hasStruct, structNames]

theorem struct?_name {s : Struct} (h : model.struct? n = some s) : s.name = n := by
  simpa using List.find?_some h

theorem struct?_mem {s : Struct} (h : model.struct? n = some s) : s ∈ model.structs :=
  List.mem_of_find?_eq_some h

theorem struct?_eq_none_iff : model.struct? n = none ↔ n ∉ model.structNames := by
  simp [struct?, structNames]

/-- The first struct of the name is changed, and no other one is found changed. -/
theorem struct?_updateStruct (hName : ∀ s, (change s).name = s.name) :
    (model.updateStruct name change).struct? n =
      if n = name then (model.struct? n).map change else model.struct? n := by
  have go : ∀ ss : List Struct, (updateStruct.go name change ss).find? (fun s => s.name == n) =
      if n = name then (ss.find? (fun s => s.name == n)).map change
      else ss.find? (fun s => s.name == n) := by
    intro ss
    induction ss with
    | nil => simp [updateStruct.go]
    | cons s ss ih =>
      simp only [updateStruct.go]
      by_cases hs : s.name = name
      · by_cases hn : n = name
        · simp [hs, hn, hName]
        · have hOther : (name == n) = false := by simpa using Ne.symm hn
          simp [hs, hn, hName, hOther]
      · by_cases hn : n = name
        · subst hn
          simpa [hs] using ih
        · by_cases hsn : s.name = n
          · simp [hn, hsn]
          · simpa [hs, hn, hsn] using ih
  exact go model.structs

theorem updateStruct_eq_self (h : ∀ s, model.struct? name = some s → change s = s) :
    model.updateStruct name change = model := by
  have go : ∀ ss : List Struct, (∀ s, ss.find? (fun s => s.name == name) = some s → change s = s) →
      updateStruct.go name change ss = ss := by
    intro ss hs
    induction ss with
    | nil => rfl
    | cons s ss ih =>
      simp only [updateStruct.go]
      split
      · rename_i hFound
        rw [hs s (by simp [hFound])]
      · rename_i hOther
        rw [ih (fun t ht => hs t (by simpa [hOther] using ht))]
  simp only [updateStruct, go model.structs h]

end Model

/-! ## Growth -/

/-- A struct that has got contributions: what it had stands in front, and the new members are keys
of holders. -/
structure Struct.Grows (s s' : Struct) : Prop where
  name : s'.name = s.name
  position : s'.position = s.position
  members : ∃ holders : List String, s'.members = s.members ++ holders.map Sql.holderKey
  operations : s.operations <+: s'.operations
  requirements : s.requirements <+: s'.requirements
  hooks : s.hooks <+: s'.hooks
  capabilities : s.capabilities <+: s'.capabilities

namespace Struct

variable {s s' s'' : Struct}

theorem Grows.refl (s : Struct) : s.Grows s :=
  ⟨rfl, rfl, ⟨[], by simp⟩, List.prefix_rfl, List.prefix_rfl, List.prefix_rfl, List.prefix_rfl⟩

theorem Grows.trans (h : s.Grows s') (h' : s'.Grows s'') : s.Grows s'' := by
  obtain ⟨holders, hMembers⟩ := h.members
  obtain ⟨holders', hMembers'⟩ := h'.members
  exact {
    name := h'.name.trans h.name
    position := h'.position.trans h.position
    members := ⟨holders ++ holders', by simp [hMembers', hMembers]⟩
    operations := h.operations.trans h'.operations
    requirements := h.requirements.trans h'.requirements
    hooks := h.hooks.trans h'.hooks
    capabilities := h.capabilities.trans h'.capabilities }

theorem addMember_eq (s : Struct) (m : Member) :
    s.addMember m = if s.hasMember m.name then s else { s with members := s.members ++ [m] } := by
  unfold addMember addMember?
  split <;> rfl

theorem addOperation_eq (s : Struct) (f : Operation) :
    s.addOperation f =
      if s.operations.any (fun g => g.owner == f.owner && g.name == f.name) then s
      else { s with operations := s.operations ++ [f] } := by
  unfold addOperation addOperation?
  split <;> rfl

theorem addRequirement_eq (s : Struct) (r : Requirement) :
    s.addRequirement r = if s.requirements.contains r then s
      else { s with requirements := s.requirements ++ [r] } := by
  unfold addRequirement addRequirement?
  split <;> rfl

theorem addHook_eq (s : Struct) (h : Hook) :
    s.addHook h = if s.hooks.contains h then s else { s with hooks := s.hooks ++ [h] } := by
  unfold addHook addHook?
  split <;> rfl

theorem implement_eq (s : Struct) (c : CapabilityMark) :
    s.implement c = if s.capabilities.contains c then s
      else { s with capabilities := s.capabilities ++ [c] } := by
  unfold implement implement?
  split <;> rfl

theorem grows_addHolderKey (s : Struct) (holder : String) :
    s.Grows (s.addMember (Sql.holderKey holder)) := by
  rw [addMember_eq]
  split
  · exact Grows.refl s
  · exact { Grows.refl s with members := ⟨[holder], rfl⟩ }

theorem grows_addOperation (s : Struct) (f : Operation) : s.Grows (s.addOperation f) := by
  rw [addOperation_eq]
  split
  · exact Grows.refl s
  · exact { Grows.refl s with operations := List.prefix_append _ _ }

theorem grows_addRequirement (s : Struct) (r : Requirement) : s.Grows (s.addRequirement r) := by
  rw [addRequirement_eq]
  split
  · exact Grows.refl s
  · exact { Grows.refl s with requirements := List.prefix_append _ _ }

theorem grows_addHook (s : Struct) (h : Hook) : s.Grows (s.addHook h) := by
  rw [addHook_eq]
  split
  · exact Grows.refl s
  · exact { Grows.refl s with hooks := List.prefix_append _ _ }

theorem grows_implement (s : Struct) (c : CapabilityMark) : s.Grows (s.implement c) := by
  rw [implement_eq]
  split
  · exact Grows.refl s
  · exact { Grows.refl s with capabilities := List.prefix_append _ _ }

theorem grows_addOperations (fs : List Operation) (s : Struct) :
    s.Grows (fs.foldl addOperation s) := by
  induction fs generalizing s with
  | nil => exact Grows.refl s
  | cons f fs ih => exact (grows_addOperation s f).trans (ih _)

theorem grows_makeStored (s : Struct) : s.Grows (Sql.makeStored s) :=
  (grows_addOperations Sql.storedOperations s).trans
    ((grows_addHook _ _).trans (grows_addRequirement _ _))

theorem Grows.hasMember {n : String} (h : s.Grows s') (hn : s.hasMember n) : s'.hasMember n := by
  obtain ⟨holders, hMembers⟩ := h.members
  simp only [Struct.hasMember] at hn ⊢
  simp [hMembers, hn]

/-- The keys of holders are no arrays, so a struct holds the same elements all along. -/
theorem Grows.elementNames (h : s.Grows s') : Sql.elementNames s' = Sql.elementNames s := by
  obtain ⟨holders, hMembers⟩ := h.members
  have hKeys : ∀ m ∈ holders.map Sql.holderKey, m.type.elementName? = none := by
    intro m hm
    obtain ⟨holder, _, rfl⟩ := List.mem_map.1 hm
    rfl
  rw [Sql.elementNames, hMembers, List.filterMap_append, List.filterMap_eq_nil_iff.2 hKeys,
    List.append_nil, Sql.elementNames]

end Struct

namespace Model

/-- A model whose structs have got contributions. -/
structure Grows (model model' : Model) : Prop where
  structs : List.Forall₂ Struct.Grows model.structs model'.structs
  enums : model'.enums = model.enums
  pending : model'.pending = model.pending

variable {model model' model'' : Model} {name n : String} {change : Struct → Struct}

theorem Grows.refl (model : Model) : model.Grows model :=
  ⟨List.forall₂_same.2 (fun s _ => Struct.Grows.refl s), rfl, rfl⟩

theorem Grows.trans (h : model.Grows model') (h' : model'.Grows model'') : model.Grows model'' := by
  have go : ∀ {ss ss' ss''}, List.Forall₂ Struct.Grows ss ss' → List.Forall₂ Struct.Grows ss' ss'' →
      List.Forall₂ Struct.Grows ss ss'' := by
    intro ss ss' ss'' h
    induction h generalizing ss'' with
    | nil => exact fun h => h
    | cons hs _ ih =>
      rintro (_ | ⟨hs', h'⟩)
      exact .cons (hs.trans hs') (ih h')
  exact ⟨go h.structs h'.structs, h'.enums.trans h.enums, h'.pending.trans h.pending⟩

theorem grows_updateStruct (model : Model) (name : String)
    (hChange : ∀ s : Struct, s.Grows (change s)) :
    model.Grows (model.updateStruct name change) := by
  have go : ∀ ss, List.Forall₂ Struct.Grows ss (updateStruct.go name change ss) := by
    intro ss
    induction ss with
    | nil => exact .nil
    | cons s ss ih =>
      simp only [updateStruct.go]
      split
      · exact .cons (hChange s) (List.forall₂_same.2 (fun s _ => Struct.Grows.refl s))
      · exact .cons (Struct.Grows.refl s) ih
  exact ⟨go model.structs, rfl, rfl⟩

/-- What growth keeps of every struct, it keeps of the model. -/
theorem Grows.map_structs {β : Type} {f : Struct → β} (h : model.Grows model')
    (hf : ∀ {s s' : Struct}, s.Grows s' → f s' = f s) :
    model'.structs.map f = model.structs.map f := by
  have go : ∀ {ss ss'}, List.Forall₂ Struct.Grows ss ss' → ss'.map f = ss.map f := by
    intro ss ss' h
    induction h with
    | nil => rfl
    | cons hs _ ih => rw [List.map_cons, List.map_cons, hf hs, ih]
  exact go h.structs

theorem Grows.structNames (h : model.Grows model') : model'.structNames = model.structNames :=
  h.map_structs Struct.Grows.name

theorem Grows.hasStruct (h : model.Grows model') : model'.hasStruct n = model.hasStruct n := by
  rw [Bool.eq_iff_iff, hasStruct_iff, hasStruct_iff, h.structNames]

/-- What a name stands for afterwards has grown from what it stood for. -/
theorem Grows.struct? (h : model.Grows model') {s' : Struct} (hs : model'.struct? n = some s') :
    ∃ s, model.struct? n = some s ∧ s.Grows s' := by
  have go : ∀ {ss ss'}, List.Forall₂ Struct.Grows ss ss' →
      ss'.find? (fun s => s.name == n) = some s' →
      ∃ s, ss.find? (fun s => s.name == n) = some s ∧ s.Grows s' := by
    intro ss ss' h
    induction h with
    | nil => intro hs; cases hs
    | @cons s t ss ss' hGrows _ ih =>
      intro hs
      by_cases hn : s.name = n
      · have ht : t.name = n := hGrows.name.trans hn
        obtain rfl : t = s' := by simpa [ht] using hs
        exact ⟨s, by simp [hn], hGrows⟩
      · have ht : t.name ≠ n := fun ht => hn (hGrows.name.symm.trans ht)
        obtain ⟨u, hu, hGrows⟩ := ih (by simpa [ht] using hs)
        exact ⟨u, by simpa [hn] using hu, hGrows⟩
  exact go h.structs hs

end Model

/-! ## The contributions of the generators -/

namespace Sql

/-- What a struct of the model holds in arrays. -/
def elementsIn (model : Model) (name : String) : List String :=
  ((model.struct? name).map elementNames).getD []

theorem mem_elementsIn {model : Model} {name e : String} :
    e ∈ elementsIn model name ↔ ∃ s, model.struct? name = some s ∧ e ∈ elementNames s := by
  unfold elementsIn
  cases model.struct? name <;> simp

theorem elementsIn_of_grows {model model' : Model} (h : model.Grows model') (name : String) :
    elementsIn model' name = elementsIn model name := by
  cases hs : model'.struct? name with
  | none =>
    rw [Model.struct?_eq_none_iff, h.structNames, ← Model.struct?_eq_none_iff] at hs
    have hs' : model'.struct? name = none := by
      rwa [Model.struct?_eq_none_iff, h.structNames, ← Model.struct?_eq_none_iff]
    simp [elementsIn, hs, hs']
  | some s' =>
    obtain ⟨s, hs', hGrows⟩ := h.struct? hs
    simp [elementsIn, hs, hs', hGrows.elementNames]

theorem grows_linkElements (holder : String) (elements : List String) (model : Model) :
    model.Grows (linkElements holder model elements) := by
  induction elements generalizing model with
  | nil => exact Model.Grows.refl model
  | cons e elements ih =>
    exact (model.grows_updateStruct e (fun s => s.grows_addHolderKey holder)).trans (ih _)

end Sql

namespace Builtin

/-- What a generator makes of a model that has the struct. -/
def contribute (b : Builtin) (model : Model) (name : String) : Model :=
  match b with
  | sql _ =>
    let stored := model.updateStruct name Sql.makeStored
    Sql.linkElements name stored (Sql.elementsIn stored name)
  | jsonSchema => model.updateStruct name (JsonSchema.operations.foldl Struct.addOperation)
  | rust => model

variable {model model' : Model} {name : String}

theorem inject_eq_contribute (b : Builtin) (cx : Context) (h : model.hasStruct name = true) :
    b.generator.inject cx model name = .ok (b.contribute model name) := by
  have hRust : model.updateStruct name id = model :=
    Model.updateStruct_eq_self (fun _ _ => rfl)
  cases b with
  | sql o =>
    simp only [generator, Sql.generator, Sql.inject, Model.changeStruct, h, if_true]
    rfl
  | jsonSchema => simp [generator, JsonSchema.generator, JsonSchema.inject, Model.changeStruct, h,
      contribute]
  | rust => simp [generator, Rust.generator, Rust.inject, Model.changeStruct, h, hRust, contribute]

theorem grows_contribute (b : Builtin) (model : Model) (name : String) :
    model.Grows (b.contribute model name) := by
  cases b with
  | sql o =>
    exact (model.grows_updateStruct name Struct.grows_makeStored).trans
      (Sql.grows_linkElements _ _ _)
  | jsonSchema => exact model.grows_updateStruct name (Struct.grows_addOperations _)
  | rust => exact Model.Grows.refl model

/-! ## What is there already -/

/-- The struct has all operations of a list, by their owners and names. -/
def HasOperations (s : Struct) (fs : List Operation) : Prop :=
  ∀ f ∈ fs, ∃ g ∈ s.operations, g.owner = f.owner ∧ g.name = f.name

/-- The struct has all that makes it one that can be stored. -/
structure IsStored (s : Struct) : Prop where
  operations : HasOperations s Sql.storedOperations
  hook : ⟨Sql.owner, .beforeSetter, .update⟩ ∈ s.hooks
  requirement : ⟨Sql.owner, Sql.storeLibrary⟩ ∈ s.requirements

/-- All that a generator would add for a struct is in the model. -/
def Settled (b : Builtin) (model : Model) (name : String) : Prop :=
  ∀ s, model.struct? name = some s →
    match b with
    | sql _ => IsStored s ∧ ∀ e ∈ Sql.elementNames s, ∀ t, model.struct? e = some t →
        t.hasMember (Sql.holderKeyName name)
    | jsonSchema => HasOperations s JsonSchema.operations
    | rust => True

theorem HasOperations.mono {s s' : Struct} {fs : List Operation} (h : HasOperations s fs)
    (hGrows : s.Grows s') : HasOperations s' fs := by
  intro f hf
  obtain ⟨g, hg, hKey⟩ := h f hf
  exact ⟨g, hGrows.operations.mem hg, hKey⟩

theorem hasOperations_addOperations (fs : List Operation) (s : Struct) :
    HasOperations (fs.foldl Struct.addOperation s) fs := by
  induction fs generalizing s with
  | nil => simp [HasOperations]
  | cons f fs ih =>
    refine List.forall_mem_cons.2 ⟨?_, ih _⟩
    have hFirst : HasOperations (s.addOperation f) [f] := by
      rw [Struct.addOperation_eq]
      split
      · rename_i hThere
        simpa [HasOperations] using hThere
      · simp [HasOperations]
    exact hFirst.mono (Struct.grows_addOperations fs _) f (by simp)

theorem addOperations_eq_self {fs : List Operation} {s : Struct} (h : HasOperations s fs) :
    fs.foldl Struct.addOperation s = s := by
  induction fs with
  | nil => rfl
  | cons f fs ih =>
    obtain ⟨hFirst, hRest⟩ := List.forall_mem_cons.1 h
    have hThere : s.operations.any (fun g => g.owner == f.owner && g.name == f.name) = true := by
      simpa using hFirst
    rw [List.foldl_cons, Struct.addOperation_eq, if_pos hThere, ih hRest]

theorem IsStored.mono {s s' : Struct} (h : IsStored s) (hGrows : s.Grows s') : IsStored s' :=
  ⟨h.operations.mono hGrows, hGrows.hooks.mem h.hook, hGrows.requirements.mem h.requirement⟩

theorem isStored_makeStored (s : Struct) : IsStored (Sql.makeStored s) := by
  refine ⟨?_, ?_, ?_⟩
  · exact (hasOperations_addOperations Sql.storedOperations s).mono
      ((Struct.grows_addHook _ _).trans (Struct.grows_addRequirement _ _))
  · refine (Struct.grows_addRequirement _ _).hooks.mem ?_
    rw [Struct.addHook_eq]
    split
    · rename_i hThere
      simpa using hThere
    · simp
  · unfold Sql.makeStored
    rw [Struct.addRequirement_eq]
    split
    · rename_i hThere
      simpa using hThere
    · simp

theorem makeStored_eq_self {s : Struct} (h : IsStored s) : Sql.makeStored s = s := by
  simp [Sql.makeStored, addOperations_eq_self h.operations, Struct.addHook_eq, h.hook,
    Struct.addRequirement_eq, h.requirement]

/-- What is there stays there, whatever else is added. -/
theorem Settled.mono {b : Builtin} (h : b.Settled model name) (hGrows : model.Grows model') :
    b.Settled model' name := by
  intro s' hs'
  obtain ⟨s, hs, hStruct⟩ := hGrows.struct? hs'
  have hOld := h s hs
  cases b with
  | sql o =>
    obtain ⟨hStored, hKeys⟩ := hOld
    refine ⟨hStored.mono hStruct, ?_⟩
    intro e he t' ht'
    obtain ⟨t, ht, hElement⟩ := hGrows.struct? ht'
    rw [hStruct.elementNames] at he
    exact hElement.hasMember (hKeys e he t ht)
  | jsonSchema => exact HasOperations.mono hOld hStruct
  | rust => trivial

theorem linkElements_eq_self {holder : String} {elements : List String}
    (h : ∀ e ∈ elements, ∀ t, model.struct? e = some t →
      t.hasMember (Sql.holderKeyName holder)) :
    Sql.linkElements holder model elements = model := by
  induction elements with
  | nil => rfl
  | cons e elements ih =>
    obtain ⟨hFirst, hRest⟩ := List.forall_mem_cons.1 h
    have hStep : model.updateStruct e (·.addMember (Sql.holderKey holder)) = model := by
      refine Model.updateStruct_eq_self (fun t ht => ?_)
      rw [Struct.addMember_eq]
      exact if_pos (hFirst t ht)
    rw [Sql.linkElements, List.foldl_cons, hStep]
    exact ih hRest

theorem hasMember_addHolderKey (s : Struct) (holder : String) :
    (s.addMember (Sql.holderKey holder)).hasMember (Sql.holderKeyName holder) := by
  rw [Struct.addMember_eq]
  split
  · assumption
  · simp [Struct.hasMember, Sql.holderKey]

theorem hasMember_linkElements {holder e : String} {elements : List String} {t : Struct}
    (he : e ∈ elements) (ht : (Sql.linkElements holder model elements).struct? e = some t) :
    t.hasMember (Sql.holderKeyName holder) := by
  induction elements generalizing model with
  | nil => cases he
  | cons first elements ih =>
    rcases List.mem_cons.1 he with rfl | he
    · -- The key is there after the first step, and the others keep it.
      obtain ⟨u, hu, hGrows⟩ := (Sql.grows_linkElements holder elements _).struct? ht
      rw [Model.struct?_updateStruct (fun s => (s.grows_addHolderKey holder).name),
        if_pos rfl] at hu
      obtain ⟨v, _, rfl⟩ := Option.map_eq_some_iff.1 hu
      exact hGrows.hasMember (hasMember_addHolderKey v holder)
    · exact ih he ht

/-- A contribution puts in place all that the generator adds. -/
theorem settled_contribute (b : Builtin) (model : Model) (name : String) :
    b.Settled (b.contribute model name) name := by
  intro s hs
  cases b with
  | sql o =>
    obtain ⟨t, ht, hGrows⟩ := (Sql.grows_linkElements _ _ _).struct? hs
    refine ⟨?_, ?_⟩
    · rw [Model.struct?_updateStruct (fun s => s.grows_makeStored.name), if_pos rfl] at ht
      obtain ⟨u, _, rfl⟩ := Option.map_eq_some_iff.1 ht
      exact (isStored_makeStored u).mono hGrows
    · intro e he u hu
      rw [hGrows.elementNames] at he
      exact hasMember_linkElements (Sql.mem_elementsIn.2 ⟨t, ht, he⟩) hu
  | jsonSchema =>
    have hName : ∀ s : Struct, (JsonSchema.operations.foldl Struct.addOperation s).name = s.name :=
      fun s => (s.grows_addOperations _).name
    simp only [contribute, Model.struct?_updateStruct hName, if_true] at hs
    obtain ⟨t, _, rfl⟩ := Option.map_eq_some_iff.1 hs
    exact hasOperations_addOperations JsonSchema.operations t
  | rust => trivial

/-- Where all is there already, a contribution changes nothing. -/
theorem contribute_eq_self {b : Builtin} (h : b.Settled model name) :
    b.contribute model name = model := by
  cases b with
  | sql o =>
    have hStored : model.updateStruct name Sql.makeStored = model :=
      Model.updateStruct_eq_self (fun s hs => makeStored_eq_self (h s hs).1)
    simp only [contribute, hStored]
    refine linkElements_eq_self (fun e he t ht => ?_)
    obtain ⟨s, hs, he⟩ := Sql.mem_elementsIn.1 he
    exact (h s hs).2 e he t ht
  | jsonSchema => exact Model.updateStruct_eq_self (fun s hs => addOperations_eq_self (h s hs))
  | rust => rfl

end Builtin

end EntitySchema
