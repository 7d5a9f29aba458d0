import EntitySchema.Proofs.Capabilities
import EntitySchema.Proofs.RowStatements

/-!
The names of functions in the modules of structs. Getters have the names of members, setters the
same names behind a word, and generators ask for operations of their own; a getter whose name is
taken gives way by a word in front of it. That name is not looked at again, nor is it looked at
whether two names are the same in snake case. The main result says exactly when the functions of a
struct have different names, and names that no function of a capability has.
-/

namespace EntitySchema

namespace Rust

open Text

/-! ## Names as they are written -/

/-- A name that is written as it is, and that no keyword is written as. -/
structure IsOrdinary (n : String) : Prop where
  noMark : '#' ∉ n.toList
  notKeyword : n ∉ keywords
  notPath : n ∉ pathKeywords
  notEscaped : ∀ k ∈ pathKeywords, k ++ "_" ≠ n

instance (n : String) : Decidable (IsOrdinary n) :=
  decidable_of_iff ('#' ∉ n.toList ∧ n ∉ keywords ∧ n ∉ pathKeywords ∧
      ∀ k ∈ pathKeywords, k ++ "_" ≠ n)
    ⟨fun h => ⟨h.1, h.2.1, h.2.2.1, h.2.2.2⟩, fun h => ⟨h.1, h.2, h.3, h.4⟩⟩

variable {a b n : String}

theorem mark_not_mem_snakeCase (a : String) : '#' ∉ (snakeCase a).toList :=
  not_mem_snakeCase (by decide) (by decide) a

theorem mark_mem_raw (a : String) : '#' ∈ ("r#" ++ a).toList := by
  simp

theorem identifier_eq_iff (h : IsOrdinary n) : identifier a = n ↔ snakeCase a = n := by
  unfold identifier
  simp only [List.contains_iff_mem]
  split
  · rename_i hPath
    exact ⟨fun hSame => absurd hSame (h.notEscaped _ hPath),
      fun hSame => absurd (hSame ▸ hPath) h.notPath⟩
  · split
    · rename_i hKeyword
      exact ⟨fun hSame => absurd (hSame ▸ mark_mem_raw _) h.noMark,
        fun hSame => absurd (hSame ▸ hKeyword) h.notKeyword⟩
    · rfl

/-- Keywords are written so that names stay different: what they get at an end or in front stands
there in no name in snake case. -/
theorem snakeCase_eq_of_identifier_eq (h : identifier a = identifier b) :
    snakeCase a = snakeCase b := by
  have hMark : ∀ a b : String, ∀ e : String, '#' ∉ e.toList → snakeCase a ++ e ≠ "r#" ++ b := by
    intro a b e he hSame
    have hMem := hSame ▸ mark_mem_raw b
    rw [String.toList_append, List.mem_append] at hMem
    exact hMem.elim (mark_not_mem_snakeCase a) he
  have hMark' : ∀ a b : String, snakeCase a ≠ "r#" ++ b := by
    intro a b hSame
    exact mark_not_mem_snakeCase a (hSame ▸ mark_mem_raw b)
  unfold identifier at h
  simp only at h
  split at h
  · split at h
    · exact (String.append_left_inj "_").1 h
    · split at h
      · exact absurd h (hMark a _ "_" (by decide))
      · exact absurd h (snakeCase_append_ne a b)
  · split at h
    · split at h
      · exact absurd h.symm (hMark b _ "_" (by decide))
      · split at h
        · exact (String.append_right_inj "r#").1 h
        · exact absurd h.symm (hMark' b _)
    · split at h
      · exact absurd h.symm (snakeCase_append_ne b a)
      · split at h
        · exact absurd h (hMark' a _)
        · exact h

/-- The words that stand in front of the names of accessors. -/
def accessorWords : List String := ["get_", "set_"]

/-- No keyword starts with a word of accessors, however it is written. -/
theorem isOrdinary_accessor {word : String} (hWord : word ∈ accessorWords) (hn : '#' ∉ n.toList) :
    IsOrdinary (word ++ n) := by
  have hPrefix : word.toList <+: (word ++ n).toList := by simp
  have hNone : ∀ word ∈ accessorWords, '#' ∉ word.toList ∧
      (∀ k ∈ keywords, ¬ word.toList <+: k.toList) ∧
      (∀ k ∈ pathKeywords, ¬ word.toList <+: k.toList) ∧
      ∀ k ∈ pathKeywords, ¬ word.toList <+: (k ++ "_").toList := by
    decide
  obtain ⟨hMark, hKeyword, hPath, hEscaped⟩ := hNone word hWord
  exact {
    noMark := by simp [hMark, hn]
    notKeyword := fun hMem => hKeyword _ hMem hPrefix
    notPath := fun hMem => hPath _ hMem hPrefix
    notEscaped := fun k hk hSame => hEscaped k hk (hSame ▸ hPrefix) }

theorem getterName_of_taken {taken : List String} {m : Member} (h : identifier m.name ∈ taken) :
    getterName taken m = "get_" ++ snakeCase m.name := by
  simp [getterName, h]

theorem getterName_of_free {taken : List String} {m : Member} (h : identifier m.name ∉ taken) :
    getterName taken m = identifier m.name := by
  simp [getterName, h]

/-! ## Accessors and methods -/

/-- The members have names that give their accessors different ones: they differ in snake case, and
no member is named like the getter of another one that had to give way to a method or a setter. -/
structure AccessorsDiffer (methods : List String) (ms : List Member) : Prop where
  members : (ms.map (fun m => snakeCase m.name)).Nodup
  getters : ∀ m ∈ ms, ∀ m' ∈ ms, snakeCase m'.name = "get_" ++ snakeCase m.name →
    snakeCase m.name ∉ methods ∧ ∀ other ∈ ms, snakeCase m.name ≠ "set_" ++ snakeCase other.name

theorem accessorsDiffer_iff {methods : List String} {ms : List Member} :
    ((ms.map (fun m => snakeCase m.name)).Nodup ∧ ∀ m ∈ ms, ∀ m' ∈ ms,
      snakeCase m'.name = "get_" ++ snakeCase m.name → snakeCase m.name ∉ methods ∧
        ∀ other ∈ ms, snakeCase m.name ≠ "set_" ++ snakeCase other.name) ↔
      AccessorsDiffer methods ms :=
  ⟨fun h => ⟨h.1, h.2⟩, fun h => ⟨h.members, h.getters⟩⟩

instance (methods : List String) (ms : List Member) : Decidable (AccessorsDiffer methods ms) :=
  decidable_of_iff _ accessorsDiffer_iff

section Accessors

/-- The names that a getter must not have are those of methods and setters; methods have ordinary
names, and none that a getter that gives way or a setter could have. -/
structure TakenBy (methods : List String) (ms : List Member) (taken : List String) : Prop where
  mem : ∀ n, n ∈ taken ↔ n ∈ methods ∨ ∃ m ∈ ms, n = setterName m
  ordinary : ∀ n ∈ methods, IsOrdinary n
  noAccessor : ∀ n ∈ methods, ∀ word ∈ accessorWords, ¬ word.toList <+: n.toList

variable {methods taken : List String} {ms : List Member} {m m' : Member}

theorem isOrdinary_setterName (m : Member) : IsOrdinary (setterName m) :=
  isOrdinary_accessor (by simp [accessorWords]) (mark_not_mem_snakeCase m.name)

theorem TakenBy.isOrdinary (h : TakenBy methods ms taken) (hn : n ∈ taken) : IsOrdinary n := by
  rcases (h.mem n).1 hn with hn | ⟨m, _, rfl⟩
  · exact h.ordinary n hn
  · exact isOrdinary_setterName m

/-- A getter gives way exactly if its name in snake case is taken. -/
theorem TakenBy.identifier_mem_iff (h : TakenBy methods ms taken) :
    identifier a ∈ taken ↔ snakeCase a ∈ taken := by
  constructor
  · intro hMem
    rwa [(identifier_eq_iff (h.isOrdinary hMem)).1 rfl]
  · intro hMem
    rwa [(identifier_eq_iff (h.isOrdinary hMem)).2 rfl]

theorem TakenBy.get_not_mem (h : TakenBy methods ms taken) (n : String) : "get_" ++ n ∉ taken := by
  rw [h.mem]
  rintro (hMethod | ⟨m, _, hSetter⟩)
  · exact h.noAccessor _ hMethod "get_" (by simp [accessorWords]) (by simp)
  · have hFirst := congrArg (fun s => s.toList.head?) hSetter
    simp [setterName] at hFirst

/-- A getter that gave way meets one that did not exactly if the latter has that name. -/
theorem TakenBy.getterName_eq (h : TakenBy methods ms taken) (hTaken : identifier m.name ∈ taken)
    (hName : snakeCase m'.name = "get_" ++ snakeCase m.name) :
    getterName taken m = getterName taken m' := by
  have hOrdinary : IsOrdinary ("get_" ++ snakeCase m.name) :=
    isOrdinary_accessor (by simp [accessorWords]) (mark_not_mem_snakeCase m.name)
  have hIdentifier := (identifier_eq_iff hOrdinary).2 hName
  have hFree : identifier m'.name ∉ taken := hIdentifier ▸ h.get_not_mem _
  rw [getterName_of_taken hTaken, getterName_of_free hFree, hIdentifier]

/-- Members that differ have getters that differ. -/
theorem TakenBy.snakeCase_eq_of_getterName_eq (h : TakenBy methods ms taken)
    (hDiffer : AccessorsDiffer methods ms) (hm : m ∈ ms) (hm' : m' ∈ ms)
    (hSame : getterName taken m = getterName taken m') :
    snakeCase m.name = snakeCase m'.name := by
  -- A getter that gave way has a name that no other member has.
  have hAlone : ∀ {m m' : Member}, m ∈ ms → m' ∈ ms → identifier m.name ∈ taken →
      identifier m'.name ≠ "get_" ++ snakeCase m.name := by
    intro m m' hm hm' hTaken hGet
    have hOrdinary : IsOrdinary ("get_" ++ snakeCase m.name) :=
      isOrdinary_accessor (by simp [accessorWords]) (mark_not_mem_snakeCase m.name)
    obtain ⟨hMethod, hSetter⟩ := hDiffer.getters m hm m' hm' ((identifier_eq_iff hOrdinary).1 hGet)
    rcases (h.mem _).1 (h.identifier_mem_iff.1 hTaken) with hMem | ⟨other, hOther, hName⟩
    · exact hMethod hMem
    · exact hSetter other hOther hName
  by_cases hTaken : identifier m.name ∈ taken
  · rw [getterName_of_taken hTaken] at hSame
    by_cases hTaken' : identifier m'.name ∈ taken
    · rw [getterName_of_taken hTaken'] at hSame
      exact (String.append_right_inj "get_").1 hSame
    · rw [getterName_of_free hTaken'] at hSame
      exact absurd hSame.symm (hAlone hm hm' hTaken)
  · rw [getterName_of_free hTaken] at hSame
    by_cases hTaken' : identifier m'.name ∈ taken
    · rw [getterName_of_taken hTaken'] at hSame
      exact absurd hSame (hAlone hm' hm hTaken')
    · rw [getterName_of_free hTaken'] at hSame
      exact snakeCase_eq_of_identifier_eq hSame

theorem nodup_setters_iff :
    (ms.map setterName).Nodup ↔ (ms.map (fun m => snakeCase m.name)).Nodup := by
  simp [List.Nodup, List.pairwise_map, setterName]

theorem TakenBy.getterName_not_mem (h : TakenBy methods ms taken) (m : Member) :
    getterName taken m ∉ taken := by
  by_cases hTaken : identifier m.name ∈ taken
  · rw [getterName_of_taken hTaken]
    exact h.get_not_mem _
  · rwa [getterName_of_free hTaken]

theorem TakenBy.setterName_not_mem (h : TakenBy methods ms taken) (m : Member) :
    setterName m ∉ methods :=
  fun hMem => h.noAccessor _ hMem "set_" (by simp [accessorWords]) (by simp [setterName])

theorem TakenBy.accessorsDiffer (h : TakenBy methods ms taken)
    (hGetters : (ms.map (getterName taken)).Nodup) (hSetters : (ms.map setterName).Nodup) :
    AccessorsDiffer methods ms := by
  refine ⟨nodup_setters_iff.1 hSetters, ?_⟩
  intro m hm m' hm' hName
  -- If the getter of the first member gave way, it would have the name of the second one.
  have hFree : snakeCase m.name ∉ taken := by
    intro hTaken
    have hSame := h.getterName_eq (h.identifier_mem_iff.2 hTaken) hName
    obtain rfl := List.inj_on_of_nodup_map hGetters hm hm' hSame
    have hLength := congrArg String.length hName
    have hWord : "get_".length = 4 := by decide
    rw [String.length_append] at hLength
    omega
  rw [h.mem, not_or] at hFree
  exact ⟨hFree.1, fun other hOther hSame => hFree.2 ⟨other, hOther, hSame⟩⟩

theorem TakenBy.nodup_accessors (h : TakenBy methods ms taken)
    (hDiffer : AccessorsDiffer methods ms) :
    (ms.map (getterName taken) ++ ms.map setterName).Nodup := by
  have hGetters : (ms.map (getterName taken)).Nodup := by
    refine hDiffer.members.of_map.map_on ?_
    intro m hm m' hm' hSame
    exact List.inj_on_of_nodup_map hDiffer.members hm hm'
      (h.snakeCase_eq_of_getterName_eq hDiffer hm hm' hSame)
  have hSetters := nodup_setters_iff.2 hDiffer.members
  refine List.nodup_append.2 ⟨hGetters, hSetters, ?_⟩
  intro n hn n' hn' hSame
  obtain ⟨m, _, rfl⟩ := List.mem_map.1 hn
  obtain ⟨m', hm', rfl⟩ := List.mem_map.1 hn'
  exact h.getterName_not_mem m (hSame ▸ (h.mem _).2 (.inr ⟨m', hm', rfl⟩))

theorem TakenBy.accessor_not_mem (h : TakenBy methods ms taken)
    (hn : n ∈ ms.map (getterName taken) ++ ms.map setterName) : n ∉ methods := by
  rcases List.mem_append.1 hn with hn | hn
  · obtain ⟨m, _, rfl⟩ := List.mem_map.1 hn
    exact fun hMethod => h.getterName_not_mem m ((h.mem _).2 (.inl hMethod))
  · obtain ⟨m, _, rfl⟩ := List.mem_map.1 hn
    exact h.setterName_not_mem m

/-- Whether functions meet is told from the names of members alone. -/
theorem TakenBy.nodup_iff (h : TakenBy methods ms taken) {own provided : List String}
    (hOwn : own.Nodup) (hMethods : ∀ n, n ∈ methods ↔ n ∈ own ∨ n ∈ provided)
    (hApart : ∀ n ∈ own, n ∉ provided) :
    ((ms.map (getterName taken) ++ ms.map setterName ++ own).Nodup ∧
      ∀ n ∈ ms.map (getterName taken) ++ ms.map setterName ++ own, n ∉ provided) ↔
      AccessorsDiffer methods ms := by
  constructor
  · rintro ⟨hNodup, -⟩
    obtain ⟨hAccessors, -, -⟩ := List.nodup_append.1 hNodup
    obtain ⟨hGetters, hSetters, -⟩ := List.nodup_append.1 hAccessors
    exact h.accessorsDiffer hGetters hSetters
  · intro hDiffer
    refine ⟨List.nodup_append.2 ⟨h.nodup_accessors hDiffer, hOwn, ?_⟩, ?_⟩
    · intro n hn n' hn' hSame
      exact h.accessor_not_mem hn (hSame ▸ (hMethods n').2 (.inl hn'))
    · intro n hn hProvided
      rcases List.mem_append.1 hn with hn | hn
      · exact h.accessor_not_mem hn ((hMethods n).2 (.inr hProvided))
      · exact hApart n hn hProvided

end Accessors

/-! ## Modules -/

/-- The names of the operations that no capability provides. -/
def ownNames (registry : Registry) (s : Struct) : List String :=
  (s.operations.filter (fun f => !(providedNames registry s).contains f.name)).map Operation.name

section Modules

variable {s : Struct}

theorem perm_functionNames (registry : Registry) (model : Model)
    (hPlain : ∀ f ∈ s.operations, identifier f.name = f.name) :
    (StructModule.ofStruct registry model s).functionNames.Perm
      (s.members.map (getterName (takenNames registry s)) ++ s.members.map setterName ++
        ownNames registry s) := by
  have hOwn : (StructModule.ofStruct registry model s).operations.map Function.name =
      ownNames registry s := by
    rw [StructModule.ofStruct, ownNames, List.map_map]
    refine List.map_congr_left ?_
    intro f hf
    exact (name_ofOperation s f).trans (hPlain f (List.mem_filter.1 hf).1)
  have hAccessors : (StructModule.ofStruct registry model s).accessors.map Function.name =
      s.members.flatMap (fun m => [getterName (takenNames registry s) m, setterName m]) := by
    rw [StructModule.ofStruct, List.map_flatMap]
    rfl
  rw [StructModule.functionNames, List.map_append, hOwn, hAccessors]
  refine List.Perm.append_right _ ?_
  have hPairs := List.map_append_flatMap_perm s.members (getterName (takenNames registry s))
    (fun m => [setterName m])
  rw [← List.map_eq_flatMap] at hPairs
  exact hPairs.symm

theorem capabilityNames_eq {registry : Registry} (model : Model)
    (hPlain : ∀ c ∈ capabilitiesOf registry s, ∀ f ∈ c.interface.operations,
      identifier f.name = f.name) :
    (StructModule.ofStruct registry model s).capabilityNames = providedNames registry s := by
  rw [StructModule.capabilityNames, StructModule.ofStruct, List.flatMap_map, providedNames]
  refine List.flatMap_congr ?_
  intro c hc
  rw [List.map_map]
  refine List.map_congr_left ?_
  intro f hf
  exact (name_ofOperation s f).trans (hPlain c hc f hf)

end Modules

end Rust

/-! ## What contributions keep -/

/-- Every change that a generator makes to a struct keeps the property, if the operations that it
asks for are in a list. -/
structure Kept (fs : List Operation) (p : Struct → Prop) : Prop where
  mark : ∀ s c, p s → p (s.implement c)
  operation : ∀ s, p s → ∀ f ∈ fs, p (s.addOperation f)
  hook : ∀ s hook, p s → p (s.addHook hook)
  library : ∀ s, p s → p (s.addRequirement ⟨Sql.owner, Sql.storeLibrary⟩)
  key : ∀ s holder, p s → p (s.addMember (Sql.holderKey holder))

/-- The struct has operations of a list only, and none of them twice. -/
structure Asked (fs : List Operation) (s : Struct) : Prop where
  known : ∀ f ∈ s.operations, f ∈ fs
  nodup : s.operations.Nodup

namespace Asked

variable {fs : List Operation} {f : Operation} {s s' : Struct}

theorem congr (h : Asked fs s) (hSame : s'.operations = s.operations) : Asked fs s' :=
  ⟨hSame ▸ h.known, hSame ▸ h.nodup⟩

theorem addOperation (h : Asked fs s) (hf : f ∈ fs) : Asked fs (s.addOperation f) := by
  rw [Struct.addOperation_eq]
  split
  · exact h
  · rename_i hFree
    have hNew : f ∉ s.operations := fun hMem => hFree (List.any_eq_true.2 ⟨f, hMem, by simp⟩)
    refine ⟨?_, ?_⟩
    · intro g hg
      rcases List.mem_append.1 hg with hg | hg
      · exact h.known g hg
      · exact List.mem_singleton.1 hg ▸ hf
    · refine List.nodup_append.2 ⟨h.nodup, List.nodup_singleton f, ?_⟩
      rintro g hg g' hg' rfl
      exact hNew (List.mem_singleton.1 hg' ▸ hg)

theorem kept (fs : List Operation) : Kept fs (Asked fs) where
  mark s c h := by
    rw [Struct.implement_eq]
    split
    · exact h
    · exact h.congr rfl
  operation s h f hf := h.addOperation hf
  hook s hook h := by
    rw [Struct.addHook_eq]
    split
    · exact h
    · exact h.congr rfl
  library s h := by
    rw [Struct.addRequirement_eq]
    split
    · exact h
    · exact h.congr rfl
  key s holder h := by
    rw [Struct.addMember_eq]
    split
    · exact h
    · exact h.congr rfl

end Asked

/-- The names in the types of members are names of the schema, and the only library that is required
is the one for stores. -/
structure NamesPlainly (s : Struct) : Prop where
  types : ∀ m ∈ s.members, ∀ n, m.type.innermostName? = some n → Grammar.isName n
  libraries : ∀ r ∈ s.requirements, r.path = Sql.storeLibrary

namespace NamesPlainly

theorem congr {s s' : Struct} (h : NamesPlainly s) (hMembers : s'.members = s.members)
    (hRequirements : s'.requirements = s.requirements) : NamesPlainly s' :=
  ⟨hMembers ▸ h.types, hRequirements ▸ h.libraries⟩

theorem kept (fs : List Operation) : Kept fs NamesPlainly where
  mark s c h := by
    rw [Struct.implement_eq]
    split
    · exact h
    · exact h.congr rfl rfl
  operation s h f _ := by
    rw [Struct.addOperation_eq]
    split
    · exact h
    · exact h.congr rfl rfl
  hook s hook h := by
    rw [Struct.addHook_eq]
    split
    · exact h
    · exact h.congr rfl rfl
  library s h := by
    rw [Struct.addRequirement_eq]
    split
    · exact h
    · refine ⟨h.types, ?_⟩
      intro r hr
      rcases List.mem_append.1 hr with hr | hr
      · exact h.libraries r hr
      · exact List.mem_singleton.1 hr ▸ rfl
  key s holder h := by
    rw [Struct.addMember_eq]
    split
    · exact h
    · refine ⟨?_, h.libraries⟩
      intro m hm
      rcases List.mem_append.1 hm with hm | hm
      · exact h.types m hm
      · rw [List.mem_singleton.1 hm]
        nofun

end NamesPlainly

namespace Builtin

/-- The operations that a generator asks every struct for. -/
def operations : Builtin → List Operation
  | sql _ => Sql.storedOperations
  | jsonSchema => JsonSchema.operations
  | rust => []

/-- The names of the methods that a generator gives every struct. -/
def methodNames : Builtin → List String
  | sql _ => ["insert", "update", "delete", "load_by_id"]
  | jsonSchema => ["to_json", "from_json"]
  | rust => []

theorem names_operations (b : Builtin) : b.operations.map Operation.name = b.methodNames := by
  cases b <;> rfl

/-- All operations that generators ask for. -/
def everyOperation : List Operation :=
  Sql.storedOperations ++ JsonSchema.operations

theorem mem_everyOperation {b : Builtin} {f : Operation} (hf : f ∈ b.operations) :
    f ∈ everyOperation := by
  cases b with
  | sql o => exact List.mem_append_left _ hf
  | jsonSchema => exact List.mem_append_right _ hf
  | rust => cases hf

theorem identifier_everyOperation : ∀ f ∈ everyOperation, Rust.identifier f.name = f.name := by
  decide +kernel

theorem isOrdinary_everyOperation : ∀ f ∈ everyOperation, Rust.IsOrdinary f.name ∧
    ∀ word ∈ Rust.accessorWords, ¬ word.toList <+: f.name.toList := by
  decide +kernel

theorem eq_of_name_everyOperation :
    ∀ f ∈ everyOperation, ∀ g ∈ everyOperation, f.name = g.name → f = g := by
  decide +kernel

theorem break_not_mem_everyOperation :
    ∀ f ∈ everyOperation, ∀ text ∈ f.description, '\n' ∉ text.toList := by
  decide +kernel

variable {bs : List Builtin} {model : Model} {s : Struct}

section Run

variable {fs : List Operation} {p : Struct → Prop}

theorem kept_addOperations (h : Kept fs p) {gs : List Operation} (hgs : ∀ g ∈ gs, g ∈ fs) :
    p s → p (gs.foldl Struct.addOperation s) := by
  induction gs generalizing s with
  | nil => exact id
  | cons g gs ih =>
    obtain ⟨hg, hgs⟩ := List.forall_mem_cons.1 hgs
    exact fun hs => ih hgs (h.operation s hs g hg)

theorem kept_marked (h : Kept fs p) (registry : Registry) : p s → p (marked registry s) := by
  have go : ∀ (cs : List Capability) (s : Struct),
      p s → p (cs.foldl (fun s c => s.implement c.mark) s) := by
    intro cs
    induction cs with
    | nil => exact fun _ hs => hs
    | cons c cs ih => exact fun s hs => ih _ (h.mark s _ hs)
  exact go registry.capabilities s

theorem kept_linkElements (h : Kept fs p) (holder : String) (elements : List String)
    (hs : ∀ s ∈ model.structs, p s) :
    ∀ s ∈ (Sql.linkElements holder model elements).structs, p s := by
  induction elements generalizing model with
  | nil => exact hs
  | cons e elements ih => exact ih (Model.forall_updateStruct (fun s => h.key s holder) hs)

theorem kept_contribute (h : Kept fs p) {b : Builtin} (hb : ∀ f ∈ b.operations, f ∈ fs)
    (n : String) (hs : ∀ s ∈ model.structs, p s) : ∀ s ∈ (b.contribute model n).structs, p s := by
  cases b with
  | sql o =>
    have hStored : ∀ s, p s → p (Sql.makeStored s) := fun s hs =>
      h.library _ (h.hook _ _ (kept_addOperations h hb hs))
    exact kept_linkElements h n _ (Model.forall_updateStruct hStored hs)
  | jsonSchema => exact Model.forall_updateStruct (fun s => kept_addOperations h hb) hs
  | rust => exact hs

theorem kept_contributeAll (h : Kept fs p) {b : Builtin} (hb : ∀ f ∈ b.operations, f ∈ fs)
    (names : List String) (hs : ∀ s ∈ model.structs, p s) :
    ∀ s ∈ (b.contributeAll names model).structs, p s := by
  induction names generalizing model with
  | nil => exact hs
  | cons n names ih => exact ih (kept_contribute h hb n hs)

theorem kept_foldl_contributeAll (h : Kept fs p) (hbs : ∀ b ∈ bs, ∀ f ∈ b.operations, f ∈ fs)
    (names : List String) (hs : ∀ s ∈ model.structs, p s) :
    ∀ s ∈ (bs.foldl (fun m b => b.contributeAll names m) model).structs, p s := by
  induction bs generalizing model with
  | nil => exact hs
  | cons b bs ih =>
    obtain ⟨hb, hbs⟩ := List.forall_mem_cons.1 hbs
    exact ih hbs (kept_contributeAll h hb names hs)

/-- What every change keeps holds of all structs that are composed. -/
theorem kept_composed (h : Kept (bs.flatMap operations) p) (hs : ∀ s ∈ model.structs, p s) :
    ∀ s ∈ (composed bs model).structs, p s := by
  refine kept_foldl_contributeAll h (fun b hb f hf => List.mem_flatMap.2 ⟨b, hb, hf⟩)
    model.structNames ?_
  intro t ht
  obtain ⟨u, hu, rfl⟩ := List.mem_map.1 ht
  exact kept_marked h _ (hs u hu)

end Run

/-- A composed struct has the operations that the generators ask for, and no other ones. -/
theorem asked_composed (hModel : model.Consistent) (hs : s ∈ (composed bs model).structs) :
    Asked (bs.flatMap operations) s := by
  refine kept_composed (Asked.kept _) ?_ s hs
  intro u hu
  obtain ⟨ms, hMembers, -⟩ := (hModel.structs u hu).members
  rw [hMembers]
  exact ⟨by simp, List.nodup_nil⟩

theorem namesPlainly_composed (hModel : model.Consistent)
    (hs : s ∈ (composed bs model).structs) : NamesPlainly s := by
  refine kept_composed (NamesPlainly.kept _) ?_ s hs
  intro u hu
  obtain ⟨ms, hMembers, hDeclared, -⟩ := (hModel.structs u hu).members
  rw [hMembers]
  refine ⟨?_, by simp⟩
  intro m hm n hn
  rcases List.mem_append.1 hm with hm | hm
  · exact ((hDeclared m hm).type n hn).1
  · rw [List.mem_singleton.1 hm] at hn
    cases hn

theorem hasOperations_composed (hModel : model.Consistent) {b : Builtin} (hb : b ∈ bs)
    (hs : s ∈ (composed bs model).structs) : HasOperations s b.operations := by
  have hNames := (grows_composed bs model).structNames
  have hFound := Model.struct?_of_mem (by rw [hNames]; exact hModel.structNames) hs
  have hName : s.name ∈ model.structNames := hNames ▸ List.mem_map_of_mem hs
  have hSettled := settled_foldl_contributeAll bs model.structNames _ b hb s.name hName s hFound
  cases b with
  | sql o => exact hSettled.1.operations
  | jsonSchema => exact hSettled
  | rust => exact fun f hf => absurd hf List.not_mem_nil

theorem mem_names_composed (hModel : model.Consistent) (hs : s ∈ (composed bs model).structs)
    (n : String) : n ∈ s.operations.map Operation.name ↔ n ∈ bs.flatMap methodNames := by
  simp only [List.mem_map, List.mem_flatMap, ← names_operations]
  constructor
  · rintro ⟨f, hf, rfl⟩
    obtain ⟨b, hb, hf⟩ := List.mem_flatMap.1 ((asked_composed hModel hs).known f hf)
    exact ⟨b, hb, f, hf, rfl⟩
  · rintro ⟨b, hb, f, hf, rfl⟩
    obtain ⟨g, hg, -, hName⟩ := hasOperations_composed hModel hb hs f hf
    exact ⟨g, hg, hName⟩

/-- Only JSON Schema declares a capability, with the operations that it asks for itself. -/
theorem operations_of_declares {b : Builtin} {c : Capability} (h : b.generator.Declares c) :
    c.interface.operations = b.operations := by
  have hInterface := h.interface
  cases b with
  | sql o => cases hInterface
  | jsonSchema =>
    rw [← Option.some.inj hInterface]
    rfl
  | rust => cases hInterface

theorem name_of_declares {b : Builtin} {c : Capability} (h : b.generator.Declares c) :
    c.name = "JsonSerializable" := by
  have hInterface := h.interface
  cases b with
  | sql o => cases hInterface
  | jsonSchema =>
    rw [Capability.name, ← Option.some.inj hInterface]
    rfl
  | rust => cases hInterface

theorem declares_of_mem_registryOf {c : Capability} (hc : c ∈ (registryOf bs).capabilities) :
    ∃ b ∈ bs, b.generator.Declares c := by
  obtain ⟨front, g, rest, hSplit, hDeclares, -⟩ := ((collected_registry _).mem c).1 hc
  have hGenerators : bs.map generator = front ++ g :: rest := hSplit
  obtain ⟨b, hb, rfl⟩ : ∃ b ∈ bs, b.generator = g :=
    List.mem_map.1 (hGenerators ▸ List.mem_append_right front List.mem_cons_self)
  exact ⟨b, hb, hDeclares⟩

theorem operations_of_mem_registryOf {c : Capability} (hc : c ∈ (registryOf bs).capabilities) :
    ∀ f ∈ c.interface.operations, f ∈ bs.flatMap operations := by
  intro f hf
  obtain ⟨b, hb, hDeclares⟩ := declares_of_mem_registryOf hc
  exact List.mem_flatMap.2 ⟨b, hb, operations_of_declares hDeclares ▸ hf⟩

theorem capabilitiesOf_composed (hModel : model.Consistent)
    (hs : s ∈ (composed bs model).structs) :
    Rust.capabilitiesOf (registryOf bs) s = (registryOf bs).capabilities := by
  have hKeeps : ∀ g ∈ bs.map generator, g.KeepsMarks := by
    intro g hg
    obtain ⟨b, _, rfl⟩ := List.mem_map.1 hg
    exact b.keepsMarks
  have hBare : ∀ s ∈ model.structs, s.capabilities = [] := by
    intro s hs
    obtain ⟨ms, hMembers, -⟩ := (hModel.structs s hs).members
    rw [hMembers]
  exact Rust.capabilitiesOf_eq (nodup_registry _)
    ((Engine.capabilities_compose hKeeps hBare (compose_eq_composed bs model)).2 s hs)

theorem mem_everyOperation_of_flatMap {f : Operation} (hf : f ∈ bs.flatMap operations) :
    f ∈ everyOperation := by
  obtain ⟨b, _, hf⟩ := List.mem_flatMap.1 hf
  exact mem_everyOperation hf

theorem name_mem_methodNames {f : Operation} (hf : f ∈ bs.flatMap operations) :
    f.name ∈ bs.flatMap methodNames := by
  obtain ⟨b, hb, hf⟩ := List.mem_flatMap.1 hf
  exact List.mem_flatMap.2 ⟨b, hb, names_operations b ▸ List.mem_map_of_mem hf⟩

theorem takenBy_composed (hModel : model.Consistent) (hs : s ∈ (composed bs model).structs) :
    Rust.TakenBy (bs.flatMap methodNames) s.members (Rust.takenNames (registryOf bs) s) := by
  have hOrdinary : ∀ n ∈ bs.flatMap methodNames, Rust.IsOrdinary n ∧
      ∀ word ∈ Rust.accessorWords, ¬ word.toList <+: n.toList := by
    intro n hn
    obtain ⟨f, hf, rfl⟩ := List.mem_map.1 ((mem_names_composed hModel hs n).2 hn)
    exact isOrdinary_everyOperation f
      (mem_everyOperation_of_flatMap ((asked_composed hModel hs).known f hf))
  have hWritten : ∀ f ∈ bs.flatMap operations,
      Rust.identifier f.name = f.name ∧ f.name ∈ bs.flatMap methodNames :=
    fun f hf => ⟨identifier_everyOperation f (mem_everyOperation_of_flatMap hf),
      name_mem_methodNames hf⟩
  refine ⟨?_, fun n hn => (hOrdinary n hn).1, fun n hn => (hOrdinary n hn).2⟩
  intro n
  rw [Rust.takenNames, capabilitiesOf_composed hModel hs, List.mem_append, List.mem_append]
  refine or_congr ?_ (by simp [eq_comm])
  constructor
  · rintro (hn | hn)
    · obtain ⟨f, hf, rfl⟩ := List.mem_map.1 hn
      obtain ⟨hSame, hMem⟩ := hWritten f ((asked_composed hModel hs).known f hf)
      exact hSame.symm ▸ hMem
    · obtain ⟨c, hc, hn⟩ := List.mem_flatMap.1 hn
      obtain ⟨f, hf, rfl⟩ := List.mem_map.1 hn
      obtain ⟨hSame, hMem⟩ := hWritten f (operations_of_mem_registryOf hc f hf)
      exact hSame.symm ▸ hMem
  · intro hn
    obtain ⟨f, hf, rfl⟩ := List.mem_map.1 ((mem_names_composed hModel hs n).2 hn)
    have hSame := (hWritten f ((asked_composed hModel hs).known f hf)).1
    exact .inl (List.mem_map.2 ⟨f, hf, hSame⟩)

theorem operations_of_mem_capabilitiesOf (hModel : model.Consistent)
    (hs : s ∈ (composed bs model).structs) {c : Capability}
    (hc : c ∈ Rust.capabilitiesOf (registryOf bs) s) :
    ∀ f ∈ c.interface.operations, f ∈ bs.flatMap operations := by
  rw [capabilitiesOf_composed hModel hs] at hc
  exact operations_of_mem_registryOf hc

/-- Names tell operations apart, whatever generators ask for them. -/
theorem nodup_ownNames (hModel : model.Consistent) (hs : s ∈ (composed bs model).structs)
    (registry : Registry) : (Rust.ownNames registry s).Nodup := by
  have hAsked := asked_composed hModel hs
  refine (hAsked.nodup.filter _).map_on ?_
  intro f hf g hg hName
  exact eq_of_name_everyOperation
    f (mem_everyOperation_of_flatMap (hAsked.known f (List.mem_filter.1 hf).1))
    g (mem_everyOperation_of_flatMap (hAsked.known g (List.mem_filter.1 hg).1)) hName

/-- Methods are functions of the struct itself or of a capability, and not both. -/
theorem mem_methodNames_iff (hModel : model.Consistent) (hs : s ∈ (composed bs model).structs)
    (n : String) : n ∈ bs.flatMap methodNames ↔
      n ∈ Rust.ownNames (registryOf bs) s ∨ n ∈ Rust.providedNames (registryOf bs) s := by
  rw [← mem_names_composed hModel hs]
  constructor
  · intro hn
    by_cases hThere : n ∈ Rust.providedNames (registryOf bs) s
    · exact .inr hThere
    · obtain ⟨f, hf, rfl⟩ := List.mem_map.1 hn
      exact .inl (List.mem_map_of_mem (List.mem_filter.2 ⟨hf, by simpa using hThere⟩))
  · rintro (hn | hn)
    · obtain ⟨f, hf, rfl⟩ := List.mem_map.1 hn
      exact List.mem_map_of_mem (List.mem_filter.1 hf).1
    · obtain ⟨c, hc, hn⟩ := List.mem_flatMap.1 hn
      obtain ⟨f, hf, rfl⟩ := List.mem_map.1 hn
      exact (mem_names_composed hModel hs _).2
        (name_mem_methodNames (operations_of_mem_capabilitiesOf hModel hs hc f hf))

/-- Exactly when the functions of a composed struct have names of their own. -/
theorem nodup_functionNames_iff (hModel : model.Consistent)
    (hs : s ∈ (composed bs model).structs) :
    let code := Rust.StructModule.ofStruct (registryOf bs) (composed bs model) s
    (code.functionNames.Nodup ∧ ∀ n ∈ code.functionNames, n ∉ code.capabilityNames) ↔
      Rust.AccessorsDiffer (bs.flatMap methodNames) s.members := by
  intro code
  have hPlain : ∀ f ∈ bs.flatMap operations, Rust.identifier f.name = f.name :=
    fun f hf => identifier_everyOperation f (mem_everyOperation_of_flatMap hf)
  have hFunctions := Rust.perm_functionNames (registryOf bs) (composed bs model)
    (fun f hf => hPlain f ((asked_composed hModel hs).known f hf))
  have hCapabilities := Rust.capabilityNames_eq (composed bs model)
    (fun c hc f hf => hPlain f (operations_of_mem_capabilitiesOf hModel hs hc f hf))
  rw [hFunctions.nodup_iff, hCapabilities]
  simp only [code, hFunctions.mem_iff]
  refine (takenBy_composed hModel hs).nodup_iff (nodup_ownNames hModel hs _)
    (mem_methodNames_iff hModel hs) ?_
  intro n hn
  obtain ⟨f, hf, rfl⟩ := List.mem_map.1 hn
  simpa using (List.mem_filter.1 hf).2

/-- Of what the module of a composed struct takes over, only descriptions of members may leave their
place. -/
theorem fits_composed (hModel : model.Consistent) (hs : s ∈ (composed bs model).structs)
    (hDescriptions : s.FitsComments) :
    (Rust.StructModule.ofStruct (registryOf bs) (composed bs model) s).Fits := by
  have hBreak : ∀ {n : String}, Grammar.isName n = true → '\n' ∉ n.toList :=
    fun hn => not_mem_of_isName (by decide) (by decide) hn
  have hPlainly := namesPlainly_composed hModel hs
  have hFits : Rust.FitsLines s := by
    refine ⟨?_, fun m hm n hn => hBreak (hPlainly.types m hm n hn), ?_, hDescriptions, ?_⟩
    · have hName : s.name ∈ model.structNames :=
        (grows_composed bs model).structNames ▸ List.mem_map_of_mem hs
      obtain ⟨t, ht, hSame⟩ := List.mem_map.1 hName
      exact hSame ▸ hBreak (hModel.structs t ht).name
    · intro r hr
      rw [hPlainly.libraries r hr]
      decide
    · intro f hf text hText
      have hKnown := mem_everyOperation_of_flatMap ((asked_composed hModel hs).known f hf)
      exact Rust.fitsComment_of_noBreak (break_not_mem_everyOperation f hKnown text hText)
  refine hFits.fits_ofStruct ?_ _
  intro c hc
  obtain ⟨b, -, hDeclares⟩ := declares_of_mem_registryOf hc
  rw [name_of_declares hDeclares]
  decide

end Builtin

/-- The modules of a checked schema that is composed with Rust and other generators. The functions
of a struct have different names, and no function of its capabilities has one of them, exactly if
its members, the keys of its holders among them, differ in snake case and none is named like a
getter that had to give way. These are the names that the lines of the emitted module open, as long
as descriptions stay in their comments. -/
theorem methods_differ_iff {source : String} {files : FileSystem} {model : Model}
    (h : compile source files = .ok model) {bs : List Builtin} {engine : Engine}
    (hBs : Builtin.register bs = .ok engine)
    (hRust : .rust ∈ bs) :
    ∃ composed registry, engine.compose model = (composed, .ok registry) ∧
      ∀ s ∈ composed.structs, ∃ code,
        code = Rust.StructModule.ofStruct registry composed s ∧
        ((code.functionNames.Nodup ∧ ∀ n ∈ code.functionNames, n ∉ code.capabilityNames) ↔
          Rust.AccessorsDiffer (bs.flatMap Builtin.methodNames) s.members) ∧
        (s.FitsComments →
          Rust.headings code.render = Rust.Heading.implementation ("impl " ++ s.name ++ " \x7b") ::
            (code.functionNames.map Rust.Heading.method ++ code.implementations.flatMap (fun i =>
              Rust.Heading.implementation
                  ("impl " ++ i.capability ++ " for " ++ s.name ++ " \x7b") ::
                i.functions.map (fun f => Rust.Heading.provided f.name)))) ∧
        ∀ es, engine.emit composed registry = .ok es →
          ⟨"rust", ⟨Rust.fileName s.name⟩, code.render⟩ ∈ es := by
  obtain ⟨-, rfl⟩ := Builtin.register_eq_ok_iff.1 hBs
  have hModel := Printer.consistent_of_readModel (Printer.compile_eq_ok h).1
  have hGenerator : Rust.generator ∈ bs.map Builtin.generator :=
    List.mem_map.2 ⟨.rust, hRust, rfl⟩
  exact ⟨_, _, Builtin.compose_eq_composed bs model, fun s hs => ⟨_, rfl,
    Builtin.nodup_functionNames_iff hModel hs,
    fun hDescriptions =>
      Rust.StructModule.headings_render (Builtin.fits_composed hModel hs hDescriptions),
    fun es hEs => Rust.moduleFile_mem_emit hGenerator hEs hs⟩⟩

/-- A getter gives way to a method and another one to a setter, and all names still differ. -/
theorem renamed_getters_differ :
    ∃ model engine composed registry es,
      compile "struct A \x7b bool: update; bool: x; bool: set_x; \x7d" = .ok model ∧
      Builtin.register [.jsonSchema, .rust, .sql {}] = .ok engine ∧
      engine.compose model = (composed, .ok registry) ∧ engine.emit composed registry = .ok es ∧
      ∃ s ∈ composed.structs, ∃ code, code = Rust.StructModule.ofStruct registry composed s ∧
        code.functionNames = ["get_update", "set_update", "x", "set_x", "get_set_x", "set_set_x",
          "id", "set_id", "insert", "update", "delete", "load_by_id"] ∧
        code.capabilityNames = ["to_json", "from_json"] ∧
        (code.functionNames.Nodup ∧ ∀ n ∈ code.functionNames, n ∉ code.capabilityNames) ∧
        Rust.headings code.render =
          [.implementation "impl A \x7b", .method "get_update", .method "set_update", .method "x",
           .method "set_x", .method "get_set_x", .method "set_set_x", .method "id",
           .method "set_id", .method "insert", .method "update", .method "delete",
           .method "load_by_id", .implementation "impl JsonSerializable for A \x7b",
           .provided "to_json", .provided "from_json"] ∧
        ⟨"rust", ⟨Rust.fileName s.name⟩, code.render⟩ ∈ es := by
  let bs : List Builtin := [.jsonSchema, .rust, .sql {}]
  have hBs : Builtin.register bs = .ok ⟨bs.map Builtin.generator⟩ :=
    Builtin.register_eq_ok_iff.2 ⟨by decide, rfl⟩
  obtain ⟨model, hCompile, hShows⟩ := exists_of_any_compile
    "struct A \x7b bool: update; bool: x; bool: set_x; \x7d"
    (fun model => decide (∃ s ∈ (Builtin.composed bs model).structs, s.name = "A" ∧
      (∀ m ∈ s.members, m.description = none) ∧
      Rust.AccessorsDiffer (bs.flatMap Builtin.methodNames) s.members ∧
      (Rust.StructModule.ofStruct (Builtin.registryOf bs) (Builtin.composed bs model)
        s).functionNames = ["get_update", "set_update", "x", "set_x", "get_set_x", "set_set_x",
          "id", "set_id", "insert", "update", "delete", "load_by_id"] ∧
      (Rust.StructModule.ofStruct (Builtin.registryOf bs) (Builtin.composed bs model)
        s).implementations.map (fun i => (i.capability, i.functions.map Rust.Function.name)) =
          [("JsonSerializable", ["to_json", "from_json"])])) (by decide +kernel)
  obtain ⟨s, hs, hName, hNone, hDiffer, hFunctions, hProvided⟩ := of_decide_eq_true hShows
  have hQueries : ∀ o, .sql o ∈ bs → o.filteredQueries = false := by simp [bs]
  obtain ⟨es, hEs⟩ := Builtin.emit_composed_isOk hQueries model
  obtain ⟨composed, registry, hCompose, hAll⟩ := methods_differ_iff hCompile hBs (by simp [bs])
  obtain ⟨rfl, hRegistry⟩ := Prod.mk.inj
    ((Builtin.compose_eq_composed bs model).symm.trans hCompose)
  obtain rfl := Except.ok.inj hRegistry
  obtain ⟨code, rfl, hIff, hHeadings, hEmitted⟩ := hAll s hs
  have hFits : s.FitsComments := by
    intro m hm
    simp [hNone m hm]
  refine ⟨model, _, _, _, es, hCompile, hBs, hCompose, hEs, s, hs, _, rfl, hFunctions,
    ?_, hIff.2 hDiffer, ?_, hEmitted es hEs⟩
  · have hNames := congrArg (List.flatMap Prod.snd) hProvided
    rwa [List.flatMap_map] at hNames
  · have hImplementations := congrArg (List.flatMap (fun pair : String × List String =>
      Rust.Heading.implementation ("impl " ++ pair.1 ++ " for " ++ "A" ++ " \x7b") ::
        pair.2.map Rust.Heading.provided)) hProvided
    simp only [List.flatMap_map, List.map_map, Function.comp_def] at hImplementations
    rw [hHeadings hFits, hFunctions, hName, hImplementations]
    rfl

/-- A struct of the schema gets two functions of one name, although the members of each struct have
different names in snake case. -/
def RepeatsMethod (bs : List Builtin) (source : String) : Prop :=
  ∃ model engine composed registry es, compile source = .ok model ∧
    (∀ s ∈ model.structs, (s.members.map (fun m => Text.snakeCase m.name)).Nodup) ∧
    Builtin.register bs = .ok engine ∧ engine.compose model = (composed, .ok registry) ∧
    engine.emit composed registry = .ok es ∧
    ∃ s ∈ composed.structs, ∃ code, code = Rust.StructModule.ofStruct registry composed s ∧
      ¬ code.functionNames.Nodup ∧ ⟨"rust", ⟨Rust.fileName s.name⟩, code.render⟩ ∈ es

theorem repeatsMethod_of_compile {bs : List Builtin} {source : String} {engine : Engine}
    (hBs : Builtin.register bs = .ok engine) (hRust : .rust ∈ bs)
    (hQueries : ∀ o, .sql o ∈ bs → o.filteredQueries = false)
    (h : (compile source).toOption.any (fun model => decide (
      (∀ s ∈ model.structs, (s.members.map (fun m => Text.snakeCase m.name)).Nodup) ∧
        ∃ s ∈ (Builtin.composed bs model).structs,
          ¬ (Rust.StructModule.ofStruct (Builtin.registryOf bs) (Builtin.composed bs model)
            s).functionNames.Nodup)) = true) :
    RepeatsMethod bs source := by
  obtain ⟨model, hCompile, hShows⟩ := exists_of_any_compile source _ h
  obtain ⟨hNames, s, hs, hTwice⟩ := of_decide_eq_true hShows
  obtain ⟨es, hEs⟩ := Builtin.emit_composed_isOk hQueries model
  obtain ⟨-, rfl⟩ := Builtin.register_eq_ok_iff.1 hBs
  exact ⟨model, _, _, _, es, hCompile, hNames, hBs, Builtin.compose_eq_composed bs model, hEs, s,
    hs, _, rfl, hTwice, Rust.moduleFile_mem_emit (List.mem_map.2 ⟨.rust, hRust, rfl⟩) hEs hs⟩

/-- A getter may give way to a method, or to a setter, and meet the getter of a member that is named
so; and a struct may have a member that is named, in snake case, like the key it gets from its
holder. -/
theorem methods_repeated :
    RepeatsMethod [.sql {}, .rust] "struct A \x7b bool: update; bool: get_update; \x7d" ∧
      RepeatsMethod [.rust] "struct A \x7b bool: x; bool: set_x; bool: get_set_x; \x7d" ∧
      RepeatsMethod [.sql {}, .rust]
        "struct P \x7b array<C>: c; \x7d struct C \x7b bool: p_id; \x7d" := by
  have hBoth : Builtin.register [.sql {}, .rust] = .ok ⟨[Builtin.sql {}, .rust].map
      Builtin.generator⟩ := Builtin.register_eq_ok_iff.2 ⟨by decide, rfl⟩
  have hAlone : Builtin.register [.rust] = .ok ⟨[Builtin.rust].map Builtin.generator⟩ :=
    Builtin.register_eq_ok_iff.2 ⟨by decide, rfl⟩
  exact ⟨repeatsMethod_of_compile hBoth (by simp) (by simp) (by decide +kernel),
    repeatsMethod_of_compile hAlone (by simp) (by simp) (by decide +kernel),
    repeatsMethod_of_compile hBoth (by simp) (by simp) (by decide +kernel)⟩

end EntitySchema
