import EntitySchema.Proofs.ReadingRun

/-!
What a reader keeps. Entities are declared whole or not at all, their names are new, and names are
announced before they are types, so a model stays consistent however reading ends. The main result
says this of every series of calls.
-/

namespace EntitySchema

open EntitySchema.Derivation Grammar

/-! ## Names of a model -/

namespace Model

/-- The names of all structs and enums. -/
def names (model : Model) : List String :=
  model.structs.map Struct.name ++ model.enums.map Enumeration.name

variable {model model' : Model} {n : String}

theorem isDeclared_iff : model.isDeclared n = true ↔ n ∈ model.names := by
  simp [isDeclared, hasStruct, hasEnum, names]

theorem isTypeName_iff : model.isTypeName n = true ↔ n ∈ model.names ∨ n ∈ model.pending := by
  simp [isTypeName, ← isDeclared_iff]

theorem mem_insertName {name : String} {l : List String} :
    n ∈ insertName name l ↔ n = name ∨ n ∈ l := by
  fun_induction insertName name l with
  | case1 => simp
  | case2 => simp
  | case3 => simp
  | case4 x rest _ _ ih =>
    rw [List.mem_cons, ih, List.mem_cons]
    exact or_left_comm

/-- Nothing is taken away: entities are appended, and what may be a type stays one. -/
structure Extends (model model' : Model) : Prop where
  structs : model.structs <+: model'.structs
  enums : model.enums <+: model'.enums
  typeNames : ∀ n, model.isTypeName n → model'.isTypeName n

theorem Extends.refl (model : Model) : model.Extends model :=
  ⟨List.prefix_rfl, List.prefix_rfl, fun _ h => h⟩

theorem Extends.trans {model'' : Model} (h : model.Extends model') (h' : model'.Extends model'') :
    model.Extends model'' :=
  ⟨h.structs.trans h'.structs, h.enums.trans h'.enums,
    fun n hn => h'.typeNames n (h.typeNames n hn)⟩

theorem announce_extends (model : Model) (name : String) : model.Extends (model.announce name) := by
  unfold announce
  split
  · exact Extends.refl model
  · refine ⟨List.prefix_rfl, List.prefix_rfl, ?_⟩
    intro n hn
    rcases isTypeName_iff.1 hn with hn | hn
    · exact isTypeName_iff.2 (Or.inl hn)
    · exact isTypeName_iff.2 (Or.inr (mem_insertName.2 (Or.inr hn)))

/-- A pending name that is declared is not pending any more, but it is a type all the same. -/
theorem declared_or_pending {names names' pending : List String} {name : String}
    (hNames : ∀ n, n ∈ names' ↔ n ∈ names ∨ n = name) (h : n ∈ names ∨ n ∈ pending) :
    n ∈ names' ∨ n ∈ pending.filter (· != name) := by
  by_cases hn : n = name
  · exact Or.inl ((hNames n).2 (Or.inr hn))
  · rcases h with h | h
    · exact Or.inl ((hNames n).2 (Or.inl h))
    · exact Or.inr (List.mem_filter.2 ⟨h, by simpa using hn⟩)

theorem mem_names_declareStruct {s : Struct} :
    n ∈ (model.declareStruct s).names ↔ n ∈ model.names ∨ n = s.name := by
  simp only [names, declareStruct, List.map_append, List.map_cons, List.map_nil, List.mem_append,
    List.mem_singleton]
  exact or_right_comm

theorem mem_names_declareEnum {e : Enumeration} :
    n ∈ (model.declareEnum e).names ↔ n ∈ model.names ∨ n = e.name := by
  simp only [names, declareEnum, List.map_append, List.map_cons, List.map_nil, List.mem_append,
    List.mem_singleton]
  exact or_assoc.symm

theorem declareStruct_extends (model : Model) (s : Struct) :
    model.Extends (model.declareStruct s) := by
  refine ⟨List.prefix_append _ _, List.prefix_rfl, ?_⟩
  intro n hn
  exact isTypeName_iff.2
    (declared_or_pending (fun _ => mem_names_declareStruct) (isTypeName_iff.1 hn))

theorem declareEnum_extends (model : Model) (e : Enumeration) :
    model.Extends (model.declareEnum e) := by
  refine ⟨List.prefix_rfl, List.prefix_append _ _, ?_⟩
  intro n hn
  exact isTypeName_iff.2
    (declared_or_pending (fun _ => mem_names_declareEnum) (isTypeName_iff.1 hn))

end Model

/-! ## Names of a schema -/

theorem not_mem_of_isName {c : Char} (hc : Text.isAlphanumeric c = false) (hOther : c ≠ '_')
    {n : String} (h : isName n = true) : c ∉ n.toList := by
  have hLetter : Text.isAlphabetic c = false := by
    unfold Text.isAlphanumeric at hc
    exact (Bool.or_eq_false_iff.1 hc).1
  unfold isName at h
  intro hMem
  split at h
  · cases h
  · rename_i d cs hCons
    rw [hCons, List.mem_cons] at hMem
    simp only [Bool.and_eq_true, List.all_eq_true, Bool.or_eq_true, beq_iff_eq] at h
    rcases hMem with rfl | hMem
    · simp [hLetter, hOther] at h
    · simpa [hc, hOther] using h.2 c hMem

/-! ## What a declaration guarantees -/

/-- The type is made of scalars, arrays and names that stand for entities. -/
def TypeExpr.Declared (model : Model) (type : TypeExpr) : Prop :=
  ∀ n, type.innermostName? = some n → isName n ∧ n ∉ typeWords ∧ model.isTypeName n

/-- A member as a schema declares it. -/
structure Member.Declared (model : Model) (m : Member) : Prop where
  owner : m.owner = .schema
  name : isName m.name
  notKey : m.name ≠ keyName
  type : m.type.Declared model
  reference : ∀ r, m.reference = some r → isName r.struct ∧ isName r.field
  noBounds : m.type.isArray = false → m.minItems = none ∧ m.maxItems = none
  minItems : ∀ n, m.minItems = some n → n ≤ Number.maxUnsigned
  maxItems : ∀ n, m.maxItems = some n → n ≤ Number.maxUnsigned

/-- A struct as a schema declares it, with the key that it gets at its end. -/
structure Struct.Declared (model : Model) (s : Struct) : Prop where
  name : isName s.name
  notReserved : isReserved s.name = false
  members : ∃ ms, s = { name := s.name, position := s.position, members := ms ++ [Member.key] } ∧
    (∀ m ∈ ms, m.Declared model) ∧ (ms.map Member.name).Nodup

/-- A value as a schema declares it. -/
structure EnumValue.Declared (v : EnumValue) : Prop where
  name : isName v.name
  notUnknown : v.name ≠ unknownName
  least : Number.minSigned ≤ v.value
  greatest : v.value ≤ Number.maxSigned

/-- An enum as a schema declares it, with the value that it gets at its end. -/
structure Enumeration.Declared (e : Enumeration) : Prop where
  name : isName e.name
  notReserved : isReserved e.name = false
  values : ∃ vs, e.values = vs ++ [⟨unknownName, -1⟩] ∧ (∀ v ∈ vs, v.Declared) ∧
    (vs.map EnumValue.name).Nodup

namespace Derivation

variable {words : List String} {model : Model} {used : List Token}

theorem isName_of_isIdentifier {t : Token} (h : isIdentifier t) : isName t.text := by
  simp only [isIdentifier, Bool.and_eq_true] at h
  exact h.2

theorem IsType.declared {type : TypeExpr} (h : IsType typeWords model used type) :
    type.Declared model := by
  induction h with
  | array _ _ _ _ ih => exact ih
  | scalar _ _ =>
    intro n hn
    cases hn
  | named ht hWords hName =>
    intro n hn
    obtain rfl := Option.some.inj hn
    exact ⟨isName_of_isIdentifier ht, hWords, hName⟩

theorem le_maxUnsigned_of_readUnsigned {s : String} {n : Nat}
    (h : Number.readUnsigned s = some n) : n ≤ Number.maxUnsigned := by
  unfold Number.readUnsigned at h
  grind

theorem bounds_of_readSigned {s : String} {i : Int} (h : Number.readSigned s = some i) :
    Number.minSigned ≤ i ∧ i ≤ Number.maxSigned := by
  unfold Number.readSigned at h
  grind

/-- A modifier keeps what holds of a member. -/
theorem IsModifier.declared {m : Member} {x : Modifier} (h : IsModifier m.type used x)
    (hm : m.Declared model) : (x.apply m).Declared model := by
  cases h with
  | @flag keyword word _ _ hx =>
    simp only [flagWords, List.mem_cons, Prod.mk.injEq, List.not_mem_nil, or_false] at hx
    rcases hx with ⟨_, rfl⟩ | ⟨_, rfl⟩ | ⟨_, rfl⟩ | ⟨_, rfl⟩ | ⟨_, rfl⟩ <;> exact { hm with }
  | @bound keyword left number right word make n _ hx hArray _ _ hn _ =>
    have hn := le_maxUnsigned_of_readUnsigned hn
    simp only [boundWords, List.mem_cons, Prod.mk.injEq, List.not_mem_nil, or_false] at hx
    rcases hx with ⟨_, rfl⟩ | ⟨_, rfl⟩
    · refine { hm with noBounds := ?_, minItems := ?_ }
      · intro hNot
        exact absurd (hArray.symm.trans hNot) (by decide)
      · intro k hk
        cases hk
        exact hn
    · refine { hm with noBounds := ?_, maxItems := ?_ }
      · intro hNot
        exact absurd (hArray.symm.trans hNot) (by decide)
      · intro k hk
        cases hk
        exact hn
  | reference _ _ hStruct _ hField _ =>
    refine { hm with reference := ?_ }
    intro r hr
    cases hr
    exact ⟨isName_of_isIdentifier hStruct, isName_of_isIdentifier hField⟩
  | @ownReference keyword name _ hType =>
    refine { hm with reference := ?_ }
    intro r hr
    cases hr
    -- The target is the type itself, which is a name, and the key of that struct.
    have hKey : isName keyName := by decide
    exact ⟨(hm.type name (by rw [hType]; rfl)).1, hKey⟩
  | description | quotedDefault | wordDefault => exact { hm with }

theorem apply_type (m : Member) (x : Modifier) : (x.apply m).type = m.type := by
  cases x <;> rfl

theorem AreModifiers.declared {type : TypeExpr} {m : Member} {xs : List Modifier}
    (h : AreModifiers type used xs) (hType : m.type = type) (hm : m.Declared model) :
    (xs.foldl Modifier.apply m).Declared model := by
  induction h generalizing m with
  | nil => exact hm
  | cons _ hx _ ih =>
    subst hType
    exact ih (apply_type m _) (hx.declared hm)

theorem IsMember.declared {m : Member} (h : IsMember typeWords model used m) :
    m.Declared model := by
  cases h with
  | @intro typeTokens modifierTokens type colon name semicolon xs hType _ hName hKey hxs _ =>
    refine hxs.declared rfl ?_
    exact {
      owner := rfl
      name := isName_of_isIdentifier hName
      notKey := hKey
      type := hType.declared
      reference := nofun
      noBounds := fun _ => ⟨rfl, rfl⟩
      minItems := nofun
      maxItems := nofun }

theorem AreMembers.declared {ms : List Member} (h : AreMembers typeWords model used ms) :
    ∀ m ∈ ms, m.Declared model := by
  induction h with
  | nil => simp
  | cons hm _ ih => exact List.forall_mem_cons.2 ⟨hm.declared, ih⟩

theorem IsStruct.declared {s : Struct} (h : IsStruct typeWords model used s) :
    s.Declared model ∧ s.name ∉ model.names := by
  cases h with
  | @intro keyword name left right body finish ms _ hNew _ hms hDistinct _ _ =>
    refine ⟨⟨isName_of_isIdentifier hNew.identifier, hNew.notReserved,
      ms, rfl, hms.declared, hDistinct⟩, ?_⟩
    rw [← Model.isDeclared_iff, hNew.notDeclared]
    simp

/-- Values count up from numbers that fit. -/
theorem IsValue.declared {last : Option Int} {v : EnumValue} (h : IsValue last used v)
    (hLast : ∀ i ∈ last, Number.minSigned ≤ i) : v.Declared := by
  cases h with
  | explicit hName hUnknown _ _ hi =>
    have hi := bounds_of_readSigned hi
    exact ⟨isName_of_isIdentifier hName, hUnknown, hi.1, hi.2⟩
  | first hName hUnknown =>
    have hZero : Number.minSigned ≤ 0 ∧ 0 ≤ Number.maxSigned := by decide
    exact ⟨isName_of_isIdentifier hName, hUnknown, hZero.1, hZero.2⟩
  | @next name previous hName hUnknown hNext =>
    have hLeast : Number.minSigned ≤ previous + 1 := Int.le_add_one (hLast previous rfl)
    exact ⟨isName_of_isIdentifier hName, hUnknown, hLeast, hNext⟩

theorem AreValues.declared {last : Option Int} {vs : List EnumValue} (h : AreValues last used vs)
    (hLast : ∀ i ∈ last, Number.minSigned ≤ i) : ∀ v ∈ vs, v.Declared := by
  induction h with
  | nil => simp
  | single hv => simpa using hv.declared hLast
  | @cons last used rest v vs comma hv _ _ ih =>
    have hDeclared := hv.declared hLast
    refine List.forall_mem_cons.2 ⟨hDeclared, ih ?_⟩
    intro i hi
    obtain rfl := Option.some.inj hi
    exact hDeclared.least

theorem IsEnum.declared {e : Enumeration} (h : IsEnum model used e) :
    e.Declared ∧ e.name ∉ model.names := by
  cases h with
  | @intro keyword name left right body finish vs _ hNew _ hvs hDistinct _ _ =>
    refine ⟨⟨isName_of_isIdentifier hNew.identifier, hNew.notReserved,
      vs, rfl, hvs.declared (by simp), hDistinct⟩, ?_⟩
    rw [← Model.isDeclared_iff, hNew.notDeclared]
    simp

end Derivation

/-! ## Consistent models -/

/-- Only the names in the type of a member depend on the model. -/
theorem Member.Declared.of_types {model model' : Model} {m : Member} (h : m.Declared model)
    (hTypes : ∀ n, m.type.innermostName? = some n → model'.isTypeName n) : m.Declared model' := by
  refine { h with type := ?_ }
  intro n hn
  obtain ⟨hName, hWords, _⟩ := h.type n hn
  exact ⟨hName, hWords, hTypes n hn⟩

theorem Member.Declared.mono {model model' : Model} {m : Member} (h : m.Declared model)
    (hExtends : model.Extends model') : m.Declared model' := by
  refine h.of_types (fun n hn => hExtends.typeNames n ?_)
  exact (h.type n hn).2.2

theorem Struct.Declared.mono {model model' : Model} {s : Struct} (h : s.Declared model)
    (hExtends : model.Extends model') : s.Declared model' := by
  obtain ⟨ms, hs, hms, hDistinct⟩ := h.members
  exact { h with members := ⟨ms, hs, fun m hm => (hms m hm).mono hExtends, hDistinct⟩ }

namespace Model

/-- The names of a model are all different, every entity is as a schema declares it, and no pending
name is declared. -/
structure Consistent (model : Model) : Prop where
  names : model.names.Nodup
  structs : ∀ s ∈ model.structs, s.Declared model
  enums : ∀ e ∈ model.enums, e.Declared
  pending : ∀ n ∈ model.pending, n ∉ model.names

theorem Consistent.empty : Consistent {} :=
  ⟨by decide, by simp, by simp, by simp⟩

variable {model : Model}

theorem Consistent.announce (h : model.Consistent) (name : String) :
    (model.announce name).Consistent := by
  have hExtends := announce_extends model name
  unfold Model.announce at hExtends ⊢
  split
  · exact h
  · rename_i hName
    rw [if_neg hName] at hExtends
    refine { h with structs := fun s hs => (h.structs s hs).mono hExtends, pending := ?_ }
    intro n hn
    rcases mem_insertName.1 hn with rfl | hn
    · rwa [isDeclared_iff] at hName
    · exact h.pending n hn

theorem Consistent.declareStruct {s : Struct} (h : model.Consistent) (hs : s.Declared model)
    (hNew : s.name ∉ model.names) : (model.declareStruct s).Consistent := by
  have hExtends := declareStruct_extends model s
  refine ⟨?_, ?_, h.enums, ?_⟩
  · -- The name is added between those of the structs and those of the enums.
    have hNames : (model.declareStruct s).names.Perm (model.names ++ [s.name]) := by
      simp only [Model.names, Model.declareStruct, List.map_append, List.map_cons, List.map_nil,
        List.append_assoc]
      exact (List.perm_append_comm).append_left _
    exact hNames.nodup_iff.2 (nodup_snoc h.names hNew)
  · intro t ht
    rcases List.mem_append.1 ht with ht | ht
    · exact (h.structs t ht).mono hExtends
    · rw [List.mem_singleton.1 ht]
      exact hs.mono hExtends
  · intro n hn
    obtain ⟨hn, hOther⟩ := List.mem_filter.1 hn
    rw [mem_names_declareStruct]
    rintro (hMem | rfl)
    · exact h.pending n hn hMem
    · simp at hOther

theorem Consistent.declareEnum {e : Enumeration} (h : model.Consistent) (he : e.Declared)
    (hNew : e.name ∉ model.names) : (model.declareEnum e).Consistent := by
  have hExtends := declareEnum_extends model e
  refine ⟨?_, fun s hs => (h.structs s hs).mono hExtends, ?_, ?_⟩
  · have hNames : (model.declareEnum e).names = model.names ++ [e.name] := by
      simp [Model.names, Model.declareEnum]
    exact hNames ▸ nodup_snoc h.names hNew
  · intro d hd
    rcases List.mem_append.1 hd with hd | hd
    · exact h.enums d hd
    · rw [List.mem_singleton.1 hd]
      exact he
  · intro n hn
    obtain ⟨hn, hOther⟩ := List.mem_filter.1 hn
    rw [mem_names_declareEnum]
    rintro (hMem | rfl)
    · exact h.pending n hn hMem
    · simp at hOther

end Model

/-! ## Runs -/

namespace Reader

theorem announceTokens_extends (model : Model) (ts : List Token) :
    model.Extends (announceTokens model ts) := by
  fun_induction announceTokens model ts with
  | case1 model t name rest announced ih =>
    refine Model.Extends.trans ?_ ih
    show model.Extends (if _ then _ else _)
    split
    · exact Model.announce_extends model name.text
    · exact Model.Extends.refl model
  | case2 => exact Model.Extends.refl _

theorem announceTokens_consistent {model : Model} (h : model.Consistent) (ts : List Token) :
    (announceTokens model ts).Consistent := by
  fun_induction announceTokens model ts with
  | case1 model t name rest announced ih =>
    refine ih ?_
    show Model.Consistent (if _ then _ else _)
    split
    · exact h.announce name.text
    · exact h
  | case2 => exact h

variable {files : FileSystem} {task : Task} {r : Reader} {parsed : List Opening} {o : Outcome}

/-- However a run ends, nothing that was declared before it is lost. -/
theorem Runs.extends (h : Runs files task r parsed o) : r.model.Extends o.1.model := by
  induction h with
  | struct _ _ ih => exact (Model.declareStruct_extends _ _).trans ih
  | enumeration _ _ ih => exact (Model.declareEnum_extends _ _).trans ih
  | included _ _ _ ih1 ih2 => exact ih1.trans ih2
  | tokens _ _ ih => exact (announceTokens_extends _ _).trans ih
  | config _ _ ih | notIncluded _ _ ih | parsed _ _ ih | opened _ _ _ _ ih
  | pathOpened _ _ _ ih => exact ih
  | _ => exact Model.Extends.refl _

/-- However a run ends, the model is consistent. -/
theorem Runs.consistent (h : Runs files task r parsed o) (hr : r.model.Consistent) :
    o.1.model.Consistent := by
  induction h with
  | struct hd _ ih =>
    obtain ⟨used, _, hs, _⟩ := isStruct_of_declaration hd
    exact ih (hr.declareStruct hs.declared.1 hs.declared.2)
  | enumeration hd _ ih =>
    obtain ⟨used, _, he, _⟩ := isEnum_of_declaration hd
    exact ih (hr.declareEnum he.declared.1 he.declared.2)
  | included _ _ _ ih1 ih2 => exact ih2 (ih1 hr)
  | tokens _ _ ih => exact ih (announceTokens_consistent hr _)
  | config _ _ ih | notIncluded _ _ ih | parsed _ _ ih | opened _ _ _ _ ih
  | pathOpened _ _ _ ih => exact ih hr
  | _ => exact hr

/-! ## Calls -/

/-- What can be asked of a reader. -/
inductive Call where
  | source (text : String) (file : Path)
  | path (path : Path)
  | announce (path : Path)

def Call.perform (files : FileSystem) (r : Reader) : Call → Outcome
  | .source text file => readSource files r text file
  | .path p => readPath files r p
  | .announce p => announcePath files r p

/-- The state after some calls of one reader, whether they succeed or fail. -/
def session (files : FileSystem) (calls : List Call) : Reader :=
  calls.foldl (fun r call => (call.perform files r).1) {}

theorem announcePath_model (files : FileSystem) (r : Reader) (path : Path) :
    ∃ ts, (announcePath files r path).1 = { r with model := announceTokens r.model ts } := by
  unfold announcePath
  split
  · exact ⟨[], rfl⟩
  · split
    · exact ⟨[], rfl⟩
    · rename_i ts _
      exact ⟨ts, rfl⟩

/-- No file is being read, and the model is consistent. -/
structure AtRest (r : Reader) : Prop where
  reading : r.reading = []
  model : r.model.Consistent

theorem AtRest.perform (hr : r.AtRest) (files : FileSystem) (call : Call) :
    (call.perform files r).1.AtRest ∧ r.model.Extends (call.perform files r).1.model := by
  have ofRun : ∀ {task parsed o}, Runs files task r parsed o →
      o.1.AtRest ∧ r.model.Extends o.1.model := by
    intro task parsed o h
    exact ⟨⟨h.reading_eq.trans hr.reading, h.consistent hr.model⟩, h.extends⟩
  cases call with
  | source text file =>
    obtain ⟨parsed, h⟩ := runs_readSource files r text file hr.reading
    exact ofRun h
  | path path =>
    obtain ⟨parsed, h⟩ := runs_readPath files r path hr.reading
    exact ofRun h
  | announce path =>
    obtain ⟨ts, h⟩ := announcePath_model files r path
    simp only [Call.perform, h]
    exact ⟨⟨hr.reading, announceTokens_consistent hr.model ts⟩, announceTokens_extends r.model ts⟩

theorem session_atRest (files : FileSystem) (calls : List Call) : (session files calls).AtRest := by
  have run : ∀ r : Reader, r.AtRest →
      (calls.foldl (fun r call => (call.perform files r).1) r).AtRest := by
    induction calls with
    | nil => exact fun _ hr => hr
    | cons call calls ih => exact fun r hr => ih _ (hr.perform files call).1
  exact run {} ⟨rfl, Model.Consistent.empty⟩

/-! ## Between calls -/

/-- What holds of a reader whenever no call is under way. -/
structure Settled (r : Reader) : Prop where
  /-- No two entities share a name. -/
  distinct : (r.model.structs.map Struct.name ++ r.model.enums.map Enumeration.name).Nodup
  /-- No entity has a word of the language as its name. -/
  notReserved : ∀ n ∈ r.model.structs.map Struct.name ++ r.model.enums.map Enumeration.name,
    n ∉ Scalar.all.map Scalar.keyword ∧ n ∉ ["struct", "enum", "include", "config", "array"]
  /-- The members of a struct have different names, and its key is the last of them. -/
  members : ∀ s ∈ r.model.structs, (s.members.map Member.name).Nodup ∧
    ∃ ms, s.members = ms ++ [{
        owner := .schema, type := .scalar .int64, name := "id", required := true, unique := true,
        autoIncrement := true, primaryKey := true }] ∧
      ∀ m ∈ ms, m.name ≠ "id"
  /-- The values of an enum have different names, and `Unknown` is the last of them. -/
  values : ∀ e ∈ r.model.enums, (e.values.map EnumValue.name).Nodup ∧
    ∃ vs, e.values = vs ++ [⟨"Unknown", -1⟩] ∧ ∀ v ∈ vs, v.name ≠ "Unknown"
  /-- No pending name is declared. -/
  pending : ∀ n ∈ r.model.pending,
    n ∉ r.model.structs.map Struct.name ++ r.model.enums.map Enumeration.name
  /-- The name in a type is declared or pending. -/
  types : ∀ s ∈ r.model.structs, ∀ m ∈ s.members, ∀ n, m.type.innermostName? = some n →
    n ≠ "" ∧ (n ∈ r.model.structs.map Struct.name ∨ n ∈ r.model.enums.map Enumeration.name ∨
      n ∈ r.model.pending)
  /-- Only arrays have bounds on the number of their items. -/
  bounds : ∀ s ∈ r.model.structs, ∀ m ∈ s.members, m.minItems.isSome ∨ m.maxItems.isSome →
    m.type.isArray
  /-- No file is being read. -/
  reading : r.reading = []

theorem notReserved_iff {n : String} : isReserved n = false ↔
    n ∉ Scalar.all.map Scalar.keyword ∧ n ∉ ["struct", "enum", "include", "config", "array"] := by
  have hScalar : (Scalar.ofKeyword? n).isSome = false ↔ n ∉ Scalar.all.map Scalar.keyword := by
    simp [Scalar.ofKeyword?]
  have hKeyword : keywords.contains n = false ↔
      n ∉ ["struct", "enum", "include", "config", "array"] := by
    simp [keywords]
  rw [isReserved, Bool.or_eq_false_iff, hScalar, hKeyword]

/-- The members of a declared struct have different names: none is named like the key. -/
theorem nodup_members {model : Model} {s : Struct} (h : s.Declared model) :
    (s.members.map Member.name).Nodup := by
  obtain ⟨ms, hs, hms, hDistinct⟩ := h.members
  rw [hs, List.map_append]
  refine nodup_snoc hDistinct ?_
  intro hMem
  obtain ⟨m, hm, hKey⟩ := List.mem_map.1 hMem
  exact (hms m hm).notKey hKey

theorem nodup_values {e : Enumeration} (h : e.Declared) : (e.values.map EnumValue.name).Nodup := by
  obtain ⟨vs, he, hvs, hDistinct⟩ := h.values
  rw [he, List.map_append]
  refine nodup_snoc hDistinct ?_
  intro hMem
  obtain ⟨v, hv, hUnknown⟩ := List.mem_map.1 hMem
  exact (hvs v hv).notUnknown hUnknown

/-- A member of a declared struct is one that the schema declares, or the key. -/
theorem declared_or_key {model : Model} {s : Struct} (h : s.Declared model) {m : Member}
    (hm : m ∈ s.members) : m.Declared model ∨ m = Member.key := by
  obtain ⟨ms, hs, hms, _⟩ := h.members
  rw [hs] at hm
  rcases List.mem_append.1 hm with hm | hm
  · exact Or.inl (hms m hm)
  · exact Or.inr (List.mem_singleton.1 hm)

theorem AtRest.settled (hr : r.AtRest) : r.Settled where
  distinct := hr.model.names
  notReserved := by
    intro n hn
    rw [← notReserved_iff]
    rcases List.mem_append.1 hn with hn | hn
    · obtain ⟨s, hs, rfl⟩ := List.mem_map.1 hn
      exact (hr.model.structs s hs).notReserved
    · obtain ⟨e, he, rfl⟩ := List.mem_map.1 hn
      exact (hr.model.enums e he).notReserved
  members := by
    intro s hs
    have hDeclared := hr.model.structs s hs
    obtain ⟨ms, hMembers, hms, _⟩ := hDeclared.members
    exact ⟨nodup_members hDeclared, ms, by rw [hMembers]; rfl, fun m hm => (hms m hm).notKey⟩
  values := by
    intro e he
    have hDeclared := hr.model.enums e he
    obtain ⟨vs, hValues, hvs, _⟩ := hDeclared.values
    exact ⟨nodup_values hDeclared, vs, hValues, fun v hv => (hvs v hv).notUnknown⟩
  pending := hr.model.pending
  types := by
    intro s hs m hm n hn
    rcases declared_or_key (hr.model.structs s hs) hm with h | rfl
    · obtain ⟨hName, _, hType⟩ := h.type n hn
      refine ⟨?_, ?_⟩
      · rintro rfl
        exact absurd hName (by decide)
      · rw [Model.isTypeName_iff, Model.names, List.mem_append] at hType
        exact or_assoc.1 hType
    · cases hn
  bounds := by
    intro s hs m hm hBounds
    rcases declared_or_key (hr.model.structs s hs) hm with h | rfl
    · by_cases hArray : m.type.isArray
      · exact hArray
      · obtain ⟨hMin, hMax⟩ := h.noBounds (by simpa using hArray)
        simp [hMin, hMax] at hBounds
    · simp [Member.key] at hBounds
  reading := hr.reading

/-- After any calls of a reader, in any order and however each of them ended, the reader is
settled, and a further call only appends to its structs and enums. -/
theorem session_settled (files : FileSystem) (calls : List Call) :
    (session files calls).Settled ∧ ∀ call : Call,
      (session files calls).model.structs <+:
        (call.perform files (session files calls)).1.model.structs ∧
      (session files calls).model.enums <+:
        (call.perform files (session files calls)).1.model.enums := by
  have hRest := session_atRest files calls
  refine ⟨hRest.settled, ?_⟩
  intro call
  have hExtends := (hRest.perform files call).2
  exact ⟨hExtends.structs, hExtends.enums⟩

end Reader

end EntitySchema
