import EntitySchema.Compilation
import EntitySchema.Proofs.Contribution

/-!
Composition with the generators of the program. It cannot fail, so it is a plain function of the
model: every struct is marked with the capabilities, and then one generator after the other
contributes to one struct after the other. The main result is that composing again changes nothing.
-/

namespace EntitySchema

theorem exists_of_any_compile (source : String) (p : Model → Bool)
    (h : (compile source).toOption.any p = true) :
    ∃ model, compile source = .ok model ∧ p model = true := by
  cases hRead : compile source with
  | error e => simp [hRead, Except.toOption] at h
  | ok model => exact ⟨model, rfl, by simpa [hRead, Except.toOption] using h⟩

/-- Steps that never fail are a fold. What the steps rely on holds at the start and is kept. -/
theorem stepThrough_eq_foldl {σ α ε : Type} {step : σ → α → Except ε σ} {f : σ → α → σ}
    (Good : σ → Prop) {as : List α}
    (hStep : ∀ s, Good s → ∀ a ∈ as, step s a = .ok (f s a) ∧ Good (f s a))
    {s : σ} (hs : Good s) : stepThrough step s as = (as.foldl f s, .ok ()) := by
  induction as generalizing s with
  | nil => rfl
  | cons a as ih =>
    obtain ⟨hOk, hNext⟩ := hStep s hs a List.mem_cons_self
    rw [stepThrough, hOk, List.foldl_cons]
    exact ih (fun s hs b hb => hStep s hs b (List.mem_cons_of_mem a hb)) hNext

theorem stepThrough_map {σ α β ε : Type} (step : σ → β → Except ε σ) (g : α → β) (s : σ)
    (as : List α) :
    stepThrough step s (as.map g) = stepThrough (fun s a => step s (g a)) s as := by
  induction as generalizing s with
  | nil => rfl
  | cons a as ih =>
    rw [List.map_cons, stepThrough, stepThrough]
    split
    · exact ih _
    · rfl

namespace Builtin

/-! ## Registration -/

/-- The engine in which some generators are registered, in their order. -/
def register (bs : List Builtin) : Except ComposeError Engine :=
  bs.foldlM (fun engine b => engine.register b.generator) {}

theorem generator_name (b : Builtin) : b.generator.name = b.name := by
  cases b <;> rfl

theorem isPlainName_name (b : Builtin) : Engine.isPlainName b.name = true := by
  cases b with
  | sql o => exact (by decide : Engine.isPlainName Sql.generatorName = true)
  | jsonSchema => exact (by decide : Engine.isPlainName JsonSchema.generatorName = true)
  | rust => exact (by decide : Engine.isPlainName Rust.generatorName = true)

/-- Generators can be registered together exactly when no two of them share a name. -/
theorem register_eq_ok_iff {bs : List Builtin} {engine : Engine} :
    register bs = .ok engine ↔ (bs.map name).Nodup ∧ engine = ⟨bs.map generator⟩ := by
  have go : ∀ (bs : List Builtin) (start : Engine),
      bs.foldlM (fun engine b => engine.register b.generator) start = .ok engine ↔
        ((bs.map name).Nodup ∧ ∀ b ∈ bs, b.name ∉ start.names) ∧
          engine = ⟨start.generators ++ bs.map generator⟩ := by
    intro bs
    induction bs with
    | nil =>
      intro start
      simp only [List.foldlM_nil, pure, Except.pure]
      exact ⟨fun h => by simp [(Except.ok.inj h).symm], fun h => by simp [h.2]⟩
    | cons b bs ih =>
      intro start
      rw [List.foldlM_cons, Engine.register, generator_name, isPlainName_name]
      by_cases hThere : b.name ∈ start.names
      · simp [hThere, bind, Except.bind]
      · have hContains : start.names.contains b.name = false := by simpa using hThere
        simp only [hContains, Bool.not_true, Bool.false_eq_true, if_false, bind, Except.bind]
        rw [ih]
        -- The names to stay clear of are those at the start and that of the first generator.
        have hNames : ∀ c : Builtin,
            c.name ∈ (Engine.mk (start.generators ++ [b.generator])).names ↔
              c.name ∈ start.names ∨ c.name = b.name := by
          simp [Engine.names, generator_name]
        simp only [hNames, not_or, List.map_cons, List.nodup_cons, List.mem_map,
          List.forall_mem_cons, List.append_assoc, List.singleton_append]
        constructor
        · rintro ⟨⟨hDistinct, hNew⟩, rfl⟩
          exact ⟨⟨⟨fun ⟨c, hc, h⟩ => (hNew c hc).2 h, hDistinct⟩, hThere,
            fun c hc => (hNew c hc).1⟩, rfl⟩
        · rintro ⟨⟨⟨hFirst, hDistinct⟩, _, hNew⟩, rfl⟩
          exact ⟨⟨hDistinct, fun c hc => ⟨hNew c hc, fun h => hFirst ⟨c, hc, h⟩⟩⟩, rfl⟩
  rw [register, go]
  simp [Engine.names]

/-! ## Composition as a function -/

/-- The capabilities of some generators. -/
def registryOf (bs : List Builtin) : Registry :=
  (Engine.mk (bs.map generator)).registry

/-- A struct with the marks of all capabilities. -/
def marked (registry : Registry) (s : Struct) : Struct :=
  registry.capabilities.foldl (fun s c => s.implement c.mark) s

/-- What a generator makes of a model by contributing to one struct after the other. -/
def contributeAll (b : Builtin) (names : List String) (model : Model) : Model :=
  names.foldl b.contribute model

/-- The model that some generators make of a model. -/
def composed (bs : List Builtin) (model : Model) : Model :=
  bs.foldl (fun m b => b.contributeAll model.structNames m)
    { model with structs := model.structs.map (marked (registryOf bs)) }

theorem attachTo_eq (bs : List Builtin) (c : Capability) (s : Struct) :
    (Engine.mk (bs.map generator)).attachTo c s = (s.implement c.mark, .ok ()) := by
  have hStep : ∀ s, True → ∀ g ∈ bs.map generator,
      (if g.name == c.owner then Except.ok s else g.addContent c s) = .ok s ∧ True := by
    intro s _ g hg
    obtain ⟨b, _, rfl⟩ := List.mem_map.1 hg
    have hContent : b.generator.addContent c s = .ok s := by cases b <;> rfl
    simp [hContent]
  have hFold : ∀ (gs : List Generator) (s : Struct), gs.foldl (fun s _ => s) s = s := by
    intro gs s
    induction gs with
    | nil => rfl
    | cons g gs ih => exact ih
  rw [Engine.attachTo, stepThrough_eq_foldl (f := fun s _ => s) (fun _ => True) hStep trivial,
    hFold]

theorem attachToAll_eq (bs : List Builtin) (c : Capability) (ss : List Struct) :
    (Engine.mk (bs.map generator)).attachToAll c ss = (ss.map (·.implement c.mark), .ok ()) := by
  induction ss with
  | nil => rfl
  | cons s ss ih => rw [Engine.attachToAll, attachTo_eq, ih, List.map_cons]

theorem attachEach_eq (bs : List Builtin) (cs : List Capability) (ss : List Struct) :
    (Engine.mk (bs.map generator)).attachEach ss cs =
      (ss.map (fun s => cs.foldl (fun s c => s.implement c.mark) s), .ok ()) := by
  induction cs generalizing ss with
  | nil => simp [Engine.attachEach]
  | cons c cs ih => simp [Engine.attachEach, attachToAll_eq, ih]

theorem grows_contributeAll (b : Builtin) (names : List String) (model : Model) :
    model.Grows (b.contributeAll names model) := by
  induction names generalizing model with
  | nil => exact Model.Grows.refl model
  | cons n names ih => exact (b.grows_contribute model n).trans (ih _)

theorem grows_foldl_contributeAll (bs : List Builtin) (names : List String) (model : Model) :
    model.Grows (bs.foldl (fun m b => b.contributeAll names m) model) := by
  induction bs generalizing model with
  | nil => exact Model.Grows.refl model
  | cons b bs ih => exact (b.grows_contributeAll names model).trans (ih _)

theorem grows_marked (registry : Registry) (s : Struct) : s.Grows (marked registry s) := by
  have go : ∀ (cs : List Capability) (s : Struct),
      s.Grows (cs.foldl (fun s c => s.implement c.mark) s) := by
    intro cs
    induction cs with
    | nil => exact Struct.Grows.refl
    | cons c cs ih => exact fun s => (s.grows_implement c.mark).trans (ih _)
  exact go registry.capabilities s

theorem grows_map_marked (registry : Registry) (model : Model) :
    model.Grows { model with structs := model.structs.map (marked registry) } := by
  refine ⟨?_, rfl, rfl⟩
  rw [List.forall₂_map_right_iff, List.forall₂_same]
  exact fun s _ => grows_marked registry s

theorem grows_composed (bs : List Builtin) (model : Model) : model.Grows (composed bs model) :=
  (grows_map_marked _ model).trans (grows_foldl_contributeAll bs _ _)

/-- Every struct that is contributed to is in the model: structs are neither added nor removed. -/
theorem injectAll_eq (bs : List Builtin) (registry : Registry) (model : Model) :
    (Engine.mk (bs.map generator)).injectAll registry model =
      (bs.foldl (fun m b => b.contributeAll model.structNames m) model, .ok ()) := by
  let work := bs.flatMap (fun b => model.structNames.map (fun n => (b, n)))
  have hWork : (bs.map generator).flatMap (fun g => model.structNames.map (fun n => (g, n))) =
      work.map (fun bn => (bn.1.generator, bn.2)) := by
    simp [work, List.flatMap_map, List.map_flatMap, Function.comp_def]
  -- The run keeps the names, so that each struct it comes to is there.
  have hStep : ∀ m : Model, m.structNames = model.structNames → ∀ bn ∈ work,
      bn.1.generator.inject ((Engine.mk (bs.map generator)).context registry) m bn.2 =
        .ok (bn.1.contribute m bn.2) ∧
      (bn.1.contribute m bn.2).structNames = model.structNames := by
    rintro m hm ⟨b, n⟩ hbn
    have hn : n ∈ model.structNames := by
      simp only [work, List.mem_flatMap, List.mem_map, Prod.mk.injEq] at hbn
      obtain ⟨_, _, _, hn, _, rfl⟩ := hbn
      exact hn
    have hStruct : m.hasStruct n = true := by rwa [Model.hasStruct_iff, hm]
    exact ⟨b.inject_eq_contribute _ hStruct, (b.grows_contribute m n).structNames.trans hm⟩
  have hRun := stepThrough_eq_foldl (fun m : Model => m.structNames = model.structNames)
    hStep rfl
  rw [Engine.injectAll, hWork, stepThrough_map]
  exact hRun.trans (by simp [work, List.foldl_flatMap, List.foldl_map, contributeAll])

/-- Composition with generators of the program succeeds. -/
theorem compose_eq_composed (bs : List Builtin) (model : Model) :
    (Engine.mk (bs.map generator)).compose model = (composed bs model, .ok (registryOf bs)) := by
  let engine := Engine.mk (bs.map generator)
  let start := model.structs.map (marked engine.registry)
  have hAttach : engine.attachEach model.structs engine.registry.capabilities = (start, .ok ()) :=
    attachEach_eq bs engine.registry.capabilities model.structs
  have hNames : ({ model with structs := start } : Model).structNames = model.structNames :=
    (grows_map_marked engine.registry model).structNames
  have hInject : engine.injectAll engine.registry { model with structs := start } =
      (composed bs model, .ok ()) := by
    rw [injectAll_eq, hNames]
    rfl
  rw [Engine.compose]
  simp only [engine] at hAttach hInject
  simp only [hAttach, hInject, registryOf]

/-! ## Composing again -/

theorem settled_contributeAll (b : Builtin) (names : List String) (model : Model) :
    ∀ n ∈ names, b.Settled (b.contributeAll names model) n := by
  induction names generalizing model with
  | nil => simp
  | cons n names ih =>
    refine List.forall_mem_cons.2 ⟨?_, ih _⟩
    exact (b.settled_contribute model n).mono (b.grows_contributeAll names _)

theorem settled_foldl_contributeAll (bs : List Builtin) (names : List String) (model : Model) :
    ∀ b ∈ bs, ∀ n ∈ names,
      b.Settled (bs.foldl (fun m b => b.contributeAll names m) model) n := by
  induction bs generalizing model with
  | nil => simp
  | cons b bs ih =>
    refine List.forall_mem_cons.2 ⟨?_, ih _⟩
    intro n hn
    exact (b.settled_contributeAll names model n hn).mono (grows_foldl_contributeAll bs names _)

theorem contributeAll_eq_self {b : Builtin} {names : List String} {model : Model}
    (h : ∀ n ∈ names, b.Settled model n) : b.contributeAll names model = model := by
  induction names with
  | nil => rfl
  | cons n names ih =>
    obtain ⟨hFirst, hRest⟩ := List.forall_mem_cons.1 h
    rw [contributeAll, List.foldl_cons, contribute_eq_self hFirst]
    exact ih hRest

theorem foldl_contributeAll_eq_self {bs : List Builtin} {names : List String} {model : Model}
    (h : ∀ b ∈ bs, ∀ n ∈ names, b.Settled model n) :
    bs.foldl (fun m b => b.contributeAll names m) model = model := by
  induction bs with
  | nil => rfl
  | cons b bs ih =>
    obtain ⟨hFirst, hRest⟩ := List.forall_mem_cons.1 h
    rw [List.foldl_cons, contributeAll_eq_self hFirst]
    exact ih hRest

theorem mem_capabilities_marked {registry : Registry} {c : Capability} (s : Struct)
    (hc : c ∈ registry.capabilities) : c.mark ∈ (marked registry s).capabilities := by
  have go : ∀ (cs : List Capability) (s : Struct), c ∈ cs →
      c.mark ∈ (cs.foldl (fun s c => s.implement c.mark) s).capabilities := by
    intro cs
    induction cs with
    | nil => exact fun _ hc => nomatch hc
    | cons d cs ih =>
      intro s hc
      rcases List.mem_cons.1 hc with rfl | hc
      · have hFirst : c.mark ∈ (s.implement c.mark).capabilities := by
          rw [Struct.implement_eq]
          split
          · rename_i hThere
            simpa using hThere
          · simp
        exact (grows_marked ⟨cs⟩ _).capabilities.mem hFirst
      · exact ih _ hc
  exact go registry.capabilities s hc

theorem marked_eq_self {registry : Registry} {s : Struct}
    (h : ∀ c ∈ registry.capabilities, c.mark ∈ s.capabilities) : marked registry s = s := by
  have go : ∀ cs : List Capability, (∀ c ∈ cs, c.mark ∈ s.capabilities) →
      cs.foldl (fun s c => s.implement c.mark) s = s := by
    intro cs
    induction cs with
    | nil => exact fun _ => rfl
    | cons c cs ih =>
      intro h
      obtain ⟨hFirst, hRest⟩ := List.forall_mem_cons.1 h
      have hThere : s.capabilities.contains c.mark = true := by simpa using hFirst
      rw [List.foldl_cons, Struct.implement_eq, if_pos hThere]
      exact ih hRest
  exact go registry.capabilities h

theorem map_marked_composed (bs : List Builtin) (model : Model) :
    (composed bs model).structs.map (marked (registryOf bs)) = (composed bs model).structs := by
  have hGrows : List.Forall₂ (fun s s' => (marked (registryOf bs) s).Grows s') model.structs
      (composed bs model).structs :=
    List.forall₂_map_left_iff.1 (grows_foldl_contributeAll bs model.structNames
      { model with structs := model.structs.map (marked (registryOf bs)) }).structs
  have go : ∀ {ss ss'}, List.Forall₂ (fun s s' => (marked (registryOf bs) s).Grows s') ss ss' →
      ss'.map (marked (registryOf bs)) = ss' := by
    intro ss ss' h
    induction h with
    | nil => rfl
    | @cons s s' ss ss' hs _ ih =>
      rw [List.map_cons, ih, marked_eq_self]
      intro c hc
      exact hs.capabilities.mem (mem_capabilities_marked s hc)
  exact go hGrows

/-- Whatever the model, composing it a second time changes nothing. -/
theorem composed_composed (bs : List Builtin) (model : Model) :
    composed bs (composed bs model) = composed bs model := by
  have hSettled : ∀ b ∈ bs, ∀ n ∈ model.structNames, b.Settled (composed bs model) n :=
    settled_foldl_contributeAll bs model.structNames _
  -- The marks are there from the first time, so the second run starts from the model as it is.
  have hStart : ({ composed bs model with
      structs := (composed bs model).structs.map (marked (registryOf bs)) } : Model) =
        composed bs model := by
    rw [map_marked_composed]
  rw [composed, hStart, (grows_composed bs model).structNames]
  exact foldl_contributeAll_eq_self hSettled

end Builtin

/-- Generators of the program with different names, registered in any order, compose every model,
and composing the result again leaves it as it is, with the same capabilities. -/
theorem compose_twice {bs : List Builtin} (hDistinct : (bs.map Builtin.name).Nodup)
    (model : Model) :
    ∃ engine composed registry, Builtin.register bs = .ok engine ∧
      engine.compose model = (composed, .ok registry) ∧
      engine.compose composed = (composed, .ok registry) := by
  refine ⟨⟨bs.map Builtin.generator⟩, Builtin.composed bs model, Builtin.registryOf bs,
    Builtin.register_eq_ok_iff.2 ⟨hDistinct, rfl⟩, Builtin.compose_eq_composed bs model, ?_⟩
  rw [Builtin.compose_eq_composed, Builtin.composed_composed]

/-- Two structs of one name, an array of the struct itself, a member in the place of a key, and an
operation that SQL has left before. -/
def crowdedModel : Model where
  structs := [
    { name := "Node"
      members := [
        { owner := .schema, type := .array (.named "Node"), name := "children" },
        { owner := .schema, type := .array (.named "Leaf"), name := "leaves" }] },
    { name := "Leaf"
      members := [
        { owner := .generator "plugin", type := .scalar .string, name := "NodeId" },
        { owner := .schema, type := .array (.named "Node"), name := "shown" }]
      operations := [⟨.generator "sql", .insert, "insert", none⟩] },
    { name := "Node"
      members := [{ owner := .schema, type := .array (.named "Leaf"), name := "other" }] }]

theorem compose_crowdedModel_twice :
    (([.rust, .sql ⟨.postgres, true⟩, .jsonSchema] : List Builtin).map Builtin.name).Nodup ∧
      ∃ engine composed registry,
        Builtin.register [.rust, .sql ⟨.postgres, true⟩, .jsonSchema] = .ok engine ∧
        engine.compose crowdedModel = (composed, .ok registry) ∧
        engine.compose composed = (composed, .ok registry) :=
  ⟨by decide, compose_twice (by decide) crowdedModel⟩

end EntitySchema
