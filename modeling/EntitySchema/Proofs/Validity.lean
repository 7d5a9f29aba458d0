import EntitySchema.Proofs.HolderKeys
import Mathlib.Data.List.Pairwise

/-!
The rules of a model, apart from the order in which they are checked. A model is accepted exactly
if every member keeps its rules and no two structs hold each other. The rules look up names and
fields only, and contributions take neither away, so a model stays accepted when keys of its own
structs are added. The main result is that composition ends with an accepted model.
-/

namespace EntitySchema

/-! ## The rules of one member -/

/-- A member of the struct `s` keeps all rules that are about one member. -/
structure Member.KeepsRules (model : Model) (s : Struct) (m : Member) : Prop where
  /-- The elements of an array have a type. -/
  element : m.type ≠ .array (.named "")
  /-- The name in the type is that of an entity. -/
  type : ∀ n, m.type.innermostName? = some n → n ∈ model.names
  /-- The struct does not hold itself. -/
  notSelf : m.type = .named s.name → m.reference.isSome
  /-- No other member than its own key is a primary key. -/
  key : m.primaryKey = true → m.isOwnKey = true
  bounds : ∀ min max, m.minItems = some min → m.maxItems = some max → min ≤ max
  /-- A reference leads to a field of a struct. -/
  reference : ∀ r, m.reference = some r →
    ∃ t, model.struct? r.struct = some t ∧ t.hasMember r.field = true

namespace Rules

variable {model : Model} {s : Struct} {m : Member}

theorem checkElement_eq_ok : checkElement s m = .ok () ↔ m.type ≠ .array (.named "") := by
  unfold checkElement
  split <;> simp_all

theorem checkType_eq_ok :
    checkType model s m = .ok () ↔ ∀ n, m.type.innermostName? = some n → n ∈ model.names := by
  unfold checkType
  cases m.type.innermostName? with
  | none => simp
  | some name =>
    by_cases hName : model.isDeclared name = true
    · simpa [hName] using Model.isDeclared_iff.1 hName
    · simpa [hName] using fun h => hName (Model.isDeclared_iff.2 h)

theorem checkSelf_eq_ok :
    checkSelf s m = .ok () ↔ (m.type = .named s.name → m.reference.isSome) := by
  have hType : m.type.named? = some s.name ↔ m.type = .named s.name := by
    cases m.type <;> simp [TypeExpr.named?]
  unfold checkSelf
  simp only [hType]
  cases m.reference <;> simp

theorem checkKey_eq_ok :
    checkKey s m = .ok () ↔ (m.primaryKey = true → m.isOwnKey = true) := by
  unfold checkKey
  cases m.primaryKey <;> cases m.isOwnKey <;> simp

theorem checkBounds_eq_ok :
    checkBounds s m = .ok () ↔
      ∀ min max, m.minItems = some min → m.maxItems = some max → min ≤ max := by
  unfold checkBounds
  split
  · rename_i min max hMin hMax
    rw [hMin, hMax]
    split <;> grind
  · rename_i hNone
    simp only [true_iff]
    intro min max hMin hMax
    exact absurd hMax (hNone min max hMin)

theorem checkReference_eq_ok :
    checkReference model s m = .ok () ↔ ∀ r, m.reference = some r →
      ∃ t, model.struct? r.struct = some t ∧ t.hasMember r.field = true := by
  unfold checkReference
  cases m.reference with
  | none => simp
  | some r =>
    cases hTarget : model.struct? r.struct with
    | none => simp [hTarget]
    | some t => by_cases hField : t.hasMember r.field = true <;> simp [hTarget, hField]

theorem checkMember_eq_ok : checkMember model s m = .ok () ↔ m.KeepsRules model s := by
  have hStep : ∀ {x : Except Violation Unit} {y : Unit → Except Violation Unit},
      x >>= y = .ok () ↔ x = .ok () ∧ y () = .ok () := by
    intro x y
    rw [bind_eq_ok_iff]
    exact ⟨fun ⟨_, hx, hy⟩ => ⟨hx, hy⟩, fun ⟨hx, hy⟩ => ⟨(), hx, hy⟩⟩
  rw [checkMember, hStep, hStep, hStep, hStep, hStep, checkElement_eq_ok, checkType_eq_ok,
    checkSelf_eq_ok, checkKey_eq_ok, checkBounds_eq_ok, checkReference_eq_ok]
  constructor
  · rintro ⟨h1, h2, h3, h4, h5, h6⟩
    exact ⟨h1, h2, h3, h4, h5, h6⟩
  · rintro ⟨h1, h2, h3, h4, h5, h6⟩
    exact ⟨h1, h2, h3, h4, h5, h6⟩

theorem checkCycle_eq_ok {a b : Edge} :
    checkCycle a b = .ok () ↔ a.explicit = true ∨ b.explicit = true := by
  unfold checkCycle
  cases a.explicit <;> cases b.explicit <;> simp

end Rules

/-! ## Structs that hold each other -/

/-- Of two structs that have each other as the type of a member, one member is a reference. -/
def Model.NoCycle (model : Model) : Prop :=
  ∀ s₁ ∈ model.structs, ∀ m₁ ∈ s₁.members, ∀ s₂ ∈ model.structs, ∀ m₂ ∈ s₂.members,
    s₁.name ≠ s₂.name → m₁.type = .named s₂.name → m₂.type = .named s₁.name →
      m₁.reference.isSome ∨ m₂.reference.isSome

namespace StructGraph

theorem forall_mem_pairs {α : Type} {r : α → α → Prop} {l : List α} :
    (∀ p ∈ pairs l, r p.1 p.2) ↔ l.Pairwise r := by
  induction l with
  | nil => simp [pairs]
  | cons a l ih =>
    rw [pairs, List.forall_mem_append, List.forall_mem_map, ih, List.pairwise_cons]

/-- The fields that hold another struct, as edges. -/
theorem mem_directEdges {model : Model} {e : Edge} :
    e ∈ (ofModel model).edges.filter isDirect ↔
      ∃ s ∈ model.structs, ∃ m ∈ s.members, ∃ target, m.type = .named target ∧
        target ∈ model.structNames ∧ s.name ≠ target ∧
        e = ⟨s.name, m.name, target, .field, m.reference.isSome⟩ := by
  simp only [ofModel, List.mem_filter, List.mem_flatMap, List.mem_filterMap, isDirect]
  constructor
  · rintro ⟨⟨s, hs, m, hm, he⟩, hDirect⟩
    refine ⟨s, hs, m, hm, ?_⟩
    unfold edgeOf? at he
    split at he
    · rename_i target hTarget
      obtain ⟨hName, hStruct⟩ := Option.filter_eq_some_iff.1 hTarget
      obtain rfl := Option.some.inj he
      cases hType : m.type with
      | scalar => simp [hType, TypeExpr.innermostName?] at hName
      | array => simp [hType, TypeExpr.isArray] at hDirect
      | named name =>
        obtain rfl : name = target := by simpa [hType, TypeExpr.innermostName?] using hName
        refine ⟨name, rfl, Model.hasStruct_iff.1 hStruct, ?_, rfl⟩
        simpa [hType, TypeExpr.isArray] using hDirect
    · -- What is left are edges by a reference alone.
      split at he
      · split at he
        · obtain rfl := Option.some.inj he
          simp at hDirect
        · cases he
      · cases he
  · rintro ⟨s, hs, m, hm, target, hType, hStruct, hOther, rfl⟩
    refine ⟨⟨s, hs, m, hm, ?_⟩, by simpa using hOther⟩
    have hFound : (some target).filter model.hasStruct = some target := by
      rw [Option.filter_some, if_pos (Model.hasStruct_iff.2 hStruct)]
    simp [edgeOf?, hType, TypeExpr.innermostName?, hFound, TypeExpr.isArray]

/-- Each pair of edges is looked at once and in one order, but which one does not matter. -/
theorem forM_checkCycle_eq_ok {model : Model} :
    (ofModel model).mutualPairs.forM (fun p => Rules.checkCycle p.1 p.2) = .ok () ↔
      model.NoCycle := by
  let direct := (ofModel model).edges.filter isDirect
  have hPairs : (ofModel model).mutualPairs.forM (fun p => Rules.checkCycle p.1 p.2) = .ok () ↔
      direct.Pairwise (fun a b => facing a b = true → a.explicit = true ∨ b.explicit = true) := by
    rw [forM_eq_ok_iff, ← forall_mem_pairs, mutualPairs]
    simp only [List.mem_filter, Rules.checkCycle_eq_ok, and_imp]
    rfl
  have hFacing : ∀ {a b : Edge}, facing a b = true ↔ a.source = b.target ∧ a.target = b.source := by
    intro a b
    simp [facing]
  rw [hPairs]
  constructor
  · intro h s₁ hs₁ m₁ hm₁ s₂ hs₂ m₂ hm₂ hOther h₁ h₂
    have hSymm : Std.Symm
        (fun a b => facing a b = true → a.explicit = true ∨ b.explicit = true) := by
      refine ⟨fun a b hab hba => ?_⟩
      exact (hab (hFacing.2 ⟨(hFacing.1 hba).2.symm, (hFacing.1 hba).1.symm⟩)).symm
    have hAll : ∀ a ∈ direct, ∀ b ∈ direct,
        facing a b = true → a.explicit = true ∨ b.explicit = true := by
      intro a ha b hb
      refine h.forall_of_forall (fun a ha hSelf => ?_) ha hb
      -- An edge to another struct does not face itself.
      obtain ⟨s, _, m, _, target, _, _, hne, rfl⟩ := mem_directEdges.1 ha
      exact absurd (hFacing.1 hSelf).1 hne
    exact hAll ⟨s₁.name, m₁.name, s₂.name, .field, m₁.reference.isSome⟩
      (mem_directEdges.2 ⟨s₁, hs₁, m₁, hm₁, s₂.name, h₁, List.mem_map_of_mem hs₂, hOther, rfl⟩)
      ⟨s₂.name, m₂.name, s₁.name, .field, m₂.reference.isSome⟩
      (mem_directEdges.2
        ⟨s₂, hs₂, m₂, hm₂, s₁.name, h₂, List.mem_map_of_mem hs₁, Ne.symm hOther, rfl⟩)
      (hFacing.2 ⟨rfl, rfl⟩)
  · intro h
    refine List.pairwise_of_forall_mem_list (fun a ha b hb hab => ?_)
    obtain ⟨s₁, hs₁, m₁, hm₁, target₁, h₁, _, hOther, rfl⟩ := mem_directEdges.1 ha
    obtain ⟨s₂, hs₂, m₂, hm₂, target₂, h₂, _, _, rfl⟩ := mem_directEdges.1 hb
    obtain ⟨rfl, rfl⟩ : s₁.name = target₂ ∧ target₁ = s₂.name := hFacing.1 hab
    exact h s₁ hs₁ m₁ hm₁ s₂ hs₂ m₂ hm₂ hOther h₁ h₂

end StructGraph

/-! ## Accepted models -/

namespace Model

/-- Every member keeps its rules, and no two structs hold each other. -/
structure Valid (model : Model) : Prop where
  members : ∀ s ∈ model.structs, ∀ m ∈ s.members, m.KeepsRules model s
  noCycle : model.NoCycle

theorem validate_eq_ok_iff {model : Model} : model.validate = .ok () ↔ model.Valid := by
  have hMembers : model.structs.forM (fun s => s.members.forM (Rules.checkMember model s)) =
      .ok () ↔ ∀ s ∈ model.structs, ∀ m ∈ s.members, m.KeepsRules model s := by
    simp only [forM_eq_ok_iff, Rules.checkMember_eq_ok]
  have hCycles := @StructGraph.forM_checkCycle_eq_ok model
  unfold validate
  rw [bind_eq_ok_iff]
  constructor
  · rintro ⟨_, hFirst, hSecond⟩
    exact ⟨hMembers.1 hFirst, hCycles.1 hSecond⟩
  · rintro ⟨hFirst, hSecond⟩
    exact ⟨(), hMembers.2 hFirst, hCycles.2 hSecond⟩

/-- What rules look up in the first model is found in the second one too. -/
structure Covered (model model' : Model) : Prop where
  names : ∀ n ∈ model.names, n ∈ model'.names
  fields : ∀ n t field, model.struct? n = some t → t.hasMember field = true →
    ∃ t', model'.struct? n = some t' ∧ t'.hasMember field = true

end Model

theorem Member.KeepsRules.mono {model model' : Model} {s s' : Struct} {m : Member}
    (h : m.KeepsRules model s) (hModel : model.Covered model') (hName : s'.name = s.name) :
    m.KeepsRules model' s' := by
  refine { h with type := ?_, notSelf := ?_, reference := ?_ }
  · intro n hn
    exact hModel.names n (h.type n hn)
  · rw [hName]
    exact h.notSelf
  · intro r hr
    obtain ⟨t, ht, hField⟩ := h.reference r hr
    exact hModel.fields r.struct t r.field ht hField

/-! ## Keys of holders -/

/-- The struct keeps its name and its members, and what it gets are keys of structs in a list. -/
structure Struct.GetsOnlyKeys (names : List String) (s s' : Struct) : Prop where
  name : s'.name = s.name
  kept : ∀ m ∈ s.members, m ∈ s'.members
  added : ∀ m ∈ s'.members, m ∈ s.members ∨ ∃ holder ∈ names, m = Sql.holderKey holder

namespace Struct

variable {names : List String} {s s' : Struct}

theorem getsOnlyKeys_of_members (hName : s'.name = s.name) (h : s'.members = s.members) :
    s.GetsOnlyKeys names s' :=
  ⟨hName, fun _ hm => h ▸ hm, fun _ hm => Or.inl (h ▸ hm)⟩

theorem getsOnlyKeys_addHolderKey (s : Struct) {holder : String} (hHolder : holder ∈ names) :
    s.GetsOnlyKeys names (s.addMember (Sql.holderKey holder)) := by
  have hMembers := Sql.members_addHolderKey s holder
  refine ⟨(s.grows_addHolderKey holder).name, ?_, ?_⟩
  · intro m hm
    rw [hMembers]
    exact List.mem_append_left _ hm
  · intro m hm
    rw [hMembers, List.mem_append] at hm
    rcases hm with hm | hm
    · exact Or.inl hm
    · split at hm
      · cases hm
      · exact Or.inr ⟨holder, hHolder, List.mem_singleton.1 hm⟩

theorem GetsOnlyKeys.hasMember {field : String} (h : s.GetsOnlyKeys names s')
    (hField : s.hasMember field = true) : s'.hasMember field = true := by
  obtain ⟨m, hm, hName⟩ := List.any_eq_true.1 hField
  exact List.any_eq_true.2 ⟨m, h.kept m hm, hName⟩

end Struct

theorem Builtin.members_marked (registry : Registry) (s : Struct) :
    (Builtin.marked registry s).members = s.members := by
  have go : ∀ (cs : List Capability) (s : Struct),
      (cs.foldl (fun s c => s.implement c.mark) s).members = s.members := by
    intro cs
    induction cs with
    | nil => exact fun _ => rfl
    | cons c cs ih =>
      intro s
      rw [List.foldl_cons, ih, Struct.implement_eq]
      split <;> rfl
  exact go registry.capabilities s

namespace Model

variable {model model' : Model}

/-- Accepted, and every struct has the member that keys of holders refer to. -/
structure Sound (model : Model) : Prop where
  valid : model.Valid
  keys : ∀ s ∈ model.structs, s.hasMember keyName = true

/-- What a name stands for before stands in the same place as what it stands for afterwards. -/
theorem struct?_of_forall₂ {r : Struct → Struct → Prop} {n : String} {t : Struct}
    (h : List.Forall₂ r model.structs model'.structs)
    (hName : ∀ {s s' : Struct}, r s s' → s'.name = s.name) (ht : model.struct? n = some t) :
    ∃ t', model'.struct? n = some t' ∧ r t t' := by
  have go : ∀ {ss ss'}, List.Forall₂ r ss ss' → ss.find? (fun s => s.name == n) = some t →
      ∃ t', ss'.find? (fun s => s.name == n) = some t' ∧ r t t' := by
    intro ss ss' h
    induction h with
    | nil => exact fun ht => nomatch ht
    | @cons s s' ss ss' hs _ ih =>
      intro ht
      by_cases hn : s.name = n
      · obtain rfl : s = t := by simpa [hn] using ht
        exact ⟨s', by simp [hName hs, hn], hs⟩
      · obtain ⟨t', ht', hr⟩ := ih (by simpa [hn] using ht)
        exact ⟨t', by simpa [hName hs, hn] using ht', hr⟩
  exact go h ht

/-- The rules hold of a key of a struct of the model wherever it is put: it has no name in its type,
and the struct that it refers to has a key. -/
theorem Sound.keepsRules_holderKey (h : model.Sound) {holder : String}
    (hHolder : holder ∈ model.structNames) (s : Struct) :
    (Sql.holderKey holder).KeepsRules model s where
  element := by simp [Sql.holderKey]
  type := nofun
  notSelf := nofun
  key := nofun
  bounds := nofun
  reference := by
    intro r hr
    obtain rfl : ⟨holder, keyName⟩ = r := Option.some.inj hr
    cases hFound : model.struct? holder with
    | none => exact absurd hHolder (struct?_eq_none_iff.1 hFound)
    | some t => exact ⟨t, rfl, h.keys t (struct?_mem hFound)⟩

/-- A sound model stays sound when its structs get keys of its own structs. -/
theorem Sound.of_getsOnlyKeys (h : model.Sound)
    (hStructs : List.Forall₂ (Struct.GetsOnlyKeys model.structNames) model.structs model'.structs)
    (hEnums : model'.enums = model.enums) : model'.Sound := by
  have hNames : model'.structs.map Struct.name = model.structs.map Struct.name := by
    rw [← List.forall₂_eq_eq_eq, List.forall₂_map_left_iff, List.forall₂_map_right_iff]
    exact hStructs.flip.imp (fun _ _ hs => hs.name)
  have hCovered : model.Covered model' := by
    refine ⟨?_, ?_⟩
    · intro n hn
      rwa [Model.names, hNames, hEnums]
    · intro n t field ht hField
      obtain ⟨t', ht', hKeys⟩ := struct?_of_forall₂ hStructs (fun hs => hs.name) ht
      exact ⟨t', ht', hKeys.hasMember hField⟩
  refine ⟨⟨?_, ?_⟩, ?_⟩
  · intro s' hs' m hm
    obtain ⟨s, hs, hKeys⟩ := exists_of_mem_right hStructs hs'
    rcases hKeys.added m hm with hm | ⟨holder, hHolder, rfl⟩
    · exact (h.valid.members s hs m hm).mono hCovered hKeys.name
    · exact (h.keepsRules_holderKey hHolder s).mono hCovered hKeys.name
  · -- Keys of holders hold no struct, so only members from before can be on a cycle.
    have hOld : ∀ s' ∈ model'.structs, ∀ m ∈ s'.members, ∀ n, m.type = .named n →
        ∃ s ∈ model.structs, s.name = s'.name ∧ m ∈ s.members := by
      intro s' hs' m hm n hType
      obtain ⟨s, hs, hKeys⟩ := exists_of_mem_right hStructs hs'
      rcases hKeys.added m hm with hm | ⟨holder, _, rfl⟩
      · exact ⟨s, hs, hKeys.name.symm, hm⟩
      · cases hType
    intro s₁' hs₁' m₁ hm₁ s₂' hs₂' m₂ hm₂ hOther h₁ h₂
    obtain ⟨s₁, hs₁, hName₁, hm₁⟩ := hOld s₁' hs₁' m₁ hm₁ _ h₁
    obtain ⟨s₂, hs₂, hName₂, hm₂⟩ := hOld s₂' hs₂' m₂ hm₂ _ h₂
    rw [← hName₁, ← hName₂] at hOther
    rw [← hName₂] at h₁
    rw [← hName₁] at h₂
    exact h.valid.noCycle s₁ hs₁ m₁ hm₁ s₂ hs₂ m₂ hm₂ hOther h₁ h₂
  · intro s' hs'
    obtain ⟨s, hs, hKeys⟩ := exists_of_mem_right hStructs hs'
    exact hKeys.hasMember (h.keys s hs)

/-! ## Steps of composition -/

theorem Sound.updateStruct (h : model.Sound) (n : String) {change : Struct → Struct}
    (hChange : ∀ s : Struct, s.GetsOnlyKeys model.structNames (change s)) :
    (model.updateStruct n change).Sound := by
  have hSame : ∀ ss : List Struct,
      List.Forall₂ (Struct.GetsOnlyKeys model.structNames) ss ss :=
    fun ss => List.forall₂_same.2 (fun _ _ => Struct.getsOnlyKeys_of_members rfl rfl)
  have go : ∀ ss, List.Forall₂ (Struct.GetsOnlyKeys model.structNames) ss
      (Model.updateStruct.go n change ss) := by
    intro ss
    induction ss with
    | nil => exact .nil
    | cons s ss ih =>
      simp only [Model.updateStruct.go]
      split
      · exact .cons (hChange s) (hSame ss)
      · exact .cons (Struct.getsOnlyKeys_of_members rfl rfl) ih
  exact h.of_getsOnlyKeys (go model.structs) rfl

theorem Sound.linkElements (h : model.Sound) {holder : String}
    (hHolder : holder ∈ model.structNames) (elements : List String) :
    (Sql.linkElements holder model elements).Sound := by
  induction elements generalizing model with
  | nil => exact h
  | cons e elements ih =>
    have hGrows := model.grows_updateStruct e (fun s => s.grows_addHolderKey holder)
    have hStep := h.updateStruct e (fun s => s.getsOnlyKeys_addHolderKey hHolder)
    exact ih hStep (hGrows.structNames ▸ hHolder)

/-- One contribution keeps a model sound. -/
theorem Sound.contribute (h : model.Sound) (b : Builtin) {n : String}
    (hn : n ∈ model.structNames) : (b.contribute model n).Sound := by
  cases b with
  | sql o =>
    have hGrows := model.grows_updateStruct n Struct.grows_makeStored
    have hStored := h.updateStruct n (fun s =>
      Struct.getsOnlyKeys_of_members s.grows_makeStored.name (Sql.members_makeStored s))
    exact hStored.linkElements (hGrows.structNames ▸ hn) _
  | jsonSchema =>
    exact h.updateStruct n (fun s => Struct.getsOnlyKeys_of_members
      (s.grows_addOperations _).name (Sql.members_addOperations _ s))
  | rust => exact h

/-- The contributions of a run, one after the other. -/
theorem Sound.contributeAll (h : model.Sound) (b : Builtin) {names : List String}
    (hNames : ∀ n ∈ names, n ∈ model.structNames) : (b.contributeAll names model).Sound := by
  induction names generalizing model with
  | nil => exact h
  | cons n names ih =>
    obtain ⟨hFirst, hRest⟩ := List.forall_mem_cons.1 hNames
    refine ih (h.contribute b hFirst) (fun n' hn' => ?_)
    rw [(b.grows_contribute model n).structNames]
    exact hRest n' hn'

theorem Sound.composed (h : model.Sound) (bs : List Builtin) :
    (Builtin.composed bs model).Sound := by
  have run : ∀ (bs : List Builtin) (m : Model), m.Sound →
      m.structNames = model.structNames →
      (bs.foldl (fun m b => b.contributeAll model.structNames m) m).Sound := by
    intro bs
    induction bs with
    | nil => exact fun _ hm _ => hm
    | cons b bs ih =>
      intro m hm hNames
      refine ih _ (hm.contributeAll b (fun n hn => hNames ▸ hn)) ?_
      rw [(b.grows_contributeAll _ m).structNames, hNames]
  have hGrows := Builtin.grows_map_marked (Builtin.registryOf bs) model
  refine run bs _ ?_ hGrows.structNames
  refine h.of_getsOnlyKeys ?_ rfl
  rw [List.forall₂_map_right_iff, List.forall₂_same]
  exact fun s _ => Struct.getsOnlyKeys_of_members (Builtin.grows_marked _ s).name
    (Builtin.members_marked _ s)

end Model

/-! ## Composition -/

/-- Generators of the program, whichever they are and in whatever order they are registered, make of
a checked schema a model that keeps all rules again. -/
theorem compose_validate {source : String} {files : FileSystem} {model : Model}
    (h : compile source files = .ok model) {bs : List Builtin}
    (hDistinct : (bs.map Builtin.name).Nodup) :
    ∃ engine composed registry, Builtin.register bs = .ok engine ∧
      engine.compose model = (composed, .ok registry) ∧ composed.validate = .ok () := by
  obtain ⟨hRead, hValid⟩ := Printer.compile_eq_ok h
  have hModel := Printer.consistent_of_readModel hRead
  have hKeys : ∀ s ∈ model.structs, s.hasMember keyName = true := by
    intro s hs
    obtain ⟨ms, hMembers, _⟩ := (hModel.structs s hs).members
    rw [hMembers]
    simp [Struct.hasMember, Member.key]
  have hSound : model.Sound := ⟨Model.validate_eq_ok_iff.1 hValid, hKeys⟩
  refine ⟨⟨bs.map Builtin.generator⟩, Builtin.composed bs model, Builtin.registryOf bs,
    Builtin.register_eq_ok_iff.2 ⟨hDistinct, rfl⟩, Builtin.compose_eq_composed bs model, ?_⟩
  exact Model.validate_eq_ok_iff.2 (hSound.composed bs).valid

/-- Arrays of the struct itself, two arrays of one struct, and an array whose elements refer back to
their holder. -/
theorem compose_shop_validate :
    compile shopSource = .ok shopModel ∧
      ∃ engine composed registry,
        Builtin.register [.rust, .sql ⟨.postgres, true⟩, .jsonSchema] = .ok engine ∧
        engine.compose shopModel = (composed, .ok registry) ∧ composed.validate = .ok () :=
  ⟨compile_shopSource, compose_validate compile_shopSource (by decide)⟩

end EntitySchema
