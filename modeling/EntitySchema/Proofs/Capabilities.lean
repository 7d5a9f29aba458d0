import EntitySchema.Proofs.ModuleLines
import EntitySchema.Proofs.Registration
import EntitySchema.Proofs.Validity
import Mathlib.Data.List.Induction

/-!
Capabilities, from their declaration to the modules of structs. A generator declares a capability,
the registry keeps the first of each name, every struct is marked with what the registry holds, and
the module of a struct looks the marks up by their names. The main result says that the four agree
for any generators that leave the marks to the engine.
-/

namespace EntitySchema

/-! ## Declarations -/

/-- The generator declares the capability: it asks structs for at least one operation. -/
structure Generator.Declares (g : Generator) (c : Capability) : Prop where
  owner : c.owner = g.name
  interface : g.capability = some c.interface
  asks : c.interface.operations ≠ []

/-- Some generator declares the capability, and none before it declares one of the same name. -/
def FirstDeclared (gs : List Generator) (c : Capability) : Prop :=
  ∃ front g rest, gs = front ++ g :: rest ∧ g.Declares c ∧
    ∀ g' ∈ front, ∀ d : Capability, g'.Declares d → d.name ≠ c.name

/-- The capabilities of some generators: of each name the one that is declared first, in the order
of the generators that declare them. -/
structure Collected (gs : List Generator) (cs : List Capability) : Prop where
  order : (cs.map Capability.owner).Sublist (gs.map Generator.name)
  mem : ∀ c, c ∈ cs ↔ FirstDeclared gs c

section Collection

variable {gs : List Generator} {g : Generator} {c : Capability} {r : Registry}

theorem declared?_eq_some_iff : Engine.declared? g = some c ↔ g.Declares c := by
  unfold Engine.declared?
  constructor
  · intro h
    split at h
    · rename_i interface hInterface
      split at h
      · cases h
      · rename_i hAsks
        obtain rfl := Option.some.inj h
        exact ⟨rfl, hInterface, by simpa using hAsks⟩
    · cases h
  · rintro ⟨hOwner, hInterface, hAsks⟩
    simp only [hInterface, List.isEmpty_iff, hAsks, if_false, ← hOwner]

theorem declared?_eq_none_iff : Engine.declared? g = none ↔ ∀ c, ¬ g.Declares c := by
  simp only [← declared?_eq_some_iff, Option.eq_none_iff_forall_ne_some, ne_eq]

/-- One generator more adds its own capability, if none before it has the name. -/
theorem firstDeclared_concat : FirstDeclared (gs ++ [g]) c ↔ FirstDeclared gs c ∨
    (g.Declares c ∧ ∀ g' ∈ gs, ∀ d : Capability, g'.Declares d → d.name ≠ c.name) := by
  constructor
  · rintro ⟨front, h, rest, hSplit, hDeclares, hFirst⟩
    rcases List.eq_nil_or_concat rest with rfl | ⟨rest, last, rfl⟩
    · obtain ⟨rfl, hLast⟩ := List.append_inj' hSplit rfl
      obtain rfl := List.singleton_inj.1 hLast
      exact .inr ⟨hDeclares, hFirst⟩
    · rw [List.concat_eq_append, ← List.cons_append, ← List.append_assoc] at hSplit
      obtain ⟨rfl, -⟩ := List.append_inj' hSplit rfl
      exact .inl ⟨front, h, rest, rfl, hDeclares, hFirst⟩
  · rintro (⟨front, h, rest, rfl, hDeclares, hFirst⟩ | ⟨hDeclares, hFirst⟩)
    · exact ⟨front, h, rest ++ [g], by simp, hDeclares, hFirst⟩
    · exact ⟨gs, g, [], rfl, hDeclares, hFirst⟩

/-- A name that is declared is declared by someone first. -/
theorem exists_firstDeclared {n : String}
    (h : ∃ g ∈ gs, ∃ d : Capability, g.Declares d ∧ d.name = n) :
    ∃ c, FirstDeclared gs c ∧ c.name = n := by
  induction gs using List.reverseRecOn with
  | nil => simp at h
  | append_singleton gs last ih =>
    by_cases hBefore : ∃ g ∈ gs, ∃ d : Capability, g.Declares d ∧ d.name = n
    · obtain ⟨c, hFirst, hName⟩ := ih hBefore
      exact ⟨c, firstDeclared_concat.2 (.inl hFirst), hName⟩
    · obtain ⟨g, hg, d, hDeclares, rfl⟩ := h
      rcases List.mem_append.1 hg with hg | hg
      · exact absurd ⟨g, hg, d, hDeclares, rfl⟩ hBefore
      · obtain rfl := List.mem_singleton.1 hg
        refine ⟨d, firstDeclared_concat.2 (.inr ⟨hDeclares, ?_⟩), rfl⟩
        exact fun g' hg' d' hd' hName => hBefore ⟨g', hg', d', hd', hName⟩

theorem Registry.isSome_get? {n : String} :
    (r.get? n).isSome = true ↔ ∃ d ∈ r.capabilities, d.name = n := by
  simp [Registry.get?]

/-- What a generator without a capability, or with one whose name is taken, does to the
collection. -/
theorem Collected.concat_old {cs : List Capability} (h : Collected gs cs)
    (hOld : ∀ c, g.Declares c → ∃ d ∈ cs, d.name = c.name) : Collected (gs ++ [g]) cs := by
  refine ⟨?_, ?_⟩
  · rw [List.map_append]
    exact h.order.trans (List.sublist_append_left _ _)
  · intro c
    rw [h.mem, firstDeclared_concat]
    refine ⟨.inl, fun hFirst => hFirst.resolve_right ?_⟩
    rintro ⟨hDeclares, hNew⟩
    obtain ⟨d, hd, hName⟩ := hOld c hDeclares
    obtain ⟨front, g', rest, rfl, hEarlier, -⟩ := (h.mem d).1 hd
    exact hNew g' (by simp) d hEarlier hName

theorem Collected.concat_new {cs : List Capability} (h : Collected gs cs) (hDeclares : g.Declares c)
    (hNew : ∀ d ∈ cs, d.name ≠ c.name) : Collected (gs ++ [g]) (cs ++ [c]) := by
  refine ⟨?_, ?_⟩
  · rw [List.map_append, List.map_append, List.map_singleton, List.map_singleton, hDeclares.owner]
    exact h.order.append_right _
  · intro c'
    rw [List.mem_append, List.mem_singleton, h.mem, firstDeclared_concat]
    refine or_congr_right ⟨?_, ?_⟩
    · rintro rfl
      refine ⟨hDeclares, ?_⟩
      intro g' hg' d hd hName
      obtain ⟨first, hFirst, hFirstName⟩ := exists_firstDeclared ⟨g', hg', d, hd, hName⟩
      exact hNew first ((h.mem first).2 hFirst) hFirstName
    · rintro ⟨hOther, -⟩
      exact Option.some.inj
        ((declared?_eq_some_iff.2 hOther).symm.trans (declared?_eq_some_iff.2 hDeclares))

theorem collected_registry (engine : Engine) :
    Collected engine.generators engine.registry.capabilities := by
  obtain ⟨gs⟩ := engine
  induction gs using List.reverseRecOn with
  | nil => exact ⟨by simp [Engine.registry], by simp [Engine.registry, FirstDeclared]⟩
  | append_singleton gs g ih =>
    have hLast : (Engine.mk (gs ++ [g])).registry =
        ([g].filterMap Engine.declared?).foldl Registry.insert (Engine.mk gs).registry := by
      rw [Engine.registry, List.filterMap_append, List.foldl_append]
      rfl
    rw [hLast]
    cases hDeclared : Engine.declared? g with
    | none =>
      rw [List.filterMap_cons_none hDeclared]
      exact ih.concat_old (fun c hc => absurd hc (declared?_eq_none_iff.1 hDeclared c))
    | some c =>
      have hDeclares := declared?_eq_some_iff.1 hDeclared
      rw [List.filterMap_cons_some hDeclared, List.filterMap_nil, List.foldl_cons, List.foldl_nil,
        Registry.insert]
      split
      · rename_i hThere
        refine ih.concat_old (fun c' hc' => ?_)
        obtain rfl : c' = c := Option.some.inj
          ((declared?_eq_some_iff.2 hc').symm.trans hDeclared)
        exact Registry.isSome_get?.1 hThere
      · rename_i hFree
        rw [Registry.isSome_get?] at hFree
        exact ih.concat_new hDeclares (fun d hd hName => hFree ⟨d, hd, hName⟩)

theorem Registry.nodup_insert (h : (r.capabilities.map Capability.name).Nodup) (c : Capability) :
    ((r.insert c).capabilities.map Capability.name).Nodup := by
  unfold Registry.insert
  split
  · exact h
  · rename_i hFree
    rw [Registry.isSome_get?] at hFree
    rw [List.map_append, List.nodup_append]
    refine ⟨h, List.nodup_singleton _, ?_⟩
    intro n hn n' hn' hSame
    obtain ⟨d, hd, rfl⟩ := List.mem_map.1 hn
    exact hFree ⟨d, hd, hSame.trans (List.mem_singleton.1 hn')⟩

theorem nodup_registry (engine : Engine) :
    (engine.registry.capabilities.map Capability.name).Nodup := by
  have run : ∀ (cs : List Capability) (r : Registry),
      (r.capabilities.map Capability.name).Nodup →
      ((cs.foldl Registry.insert r).capabilities.map Capability.name).Nodup := by
    intro cs
    induction cs with
    | nil => exact fun _ h => h
    | cons c cs ih => exact fun r h => ih _ (Registry.nodup_insert h c)
  exact run _ {} List.nodup_nil

/-- With different names, a capability is what its name stands for. -/
theorem Registry.get?_of_mem (hNames : (r.capabilities.map Capability.name).Nodup)
    (hc : c ∈ r.capabilities) : r.get? c.name = some c := by
  obtain ⟨d, hd⟩ := Option.isSome_iff_exists.1 (isSome_get?.2 ⟨c, hc, rfl⟩)
  have hName : d.name = c.name := by simpa using List.find?_some hd
  rw [hd, List.inj_on_of_nodup_map hNames (List.mem_of_find?_eq_some hd) hc hName]

end Collection

/-! ## Marks -/

/-- What holds at the start and is kept by every step holds at the end. -/
theorem stepThrough_keeps {σ α ε : Type} {step : σ → α → Except ε σ} {P : σ → Prop} {as : List α}
    (hStep : ∀ s, P s → ∀ a ∈ as, ∀ s', step s a = .ok s' → P s') {s : σ} (hs : P s) :
    P (stepThrough step s as).1 := by
  induction as generalizing s with
  | nil => exact hs
  | cons a as ih =>
    unfold stepThrough
    split
    · rename_i s' hOk
      exact ih (fun s hs b hb => hStep s hs b (List.mem_cons_of_mem a hb))
        (hStep s hs a List.mem_cons_self s' hOk)
    · exact hs

/-- The generator leaves marks to the engine: what it adds for a capability changes no mark, and
after an injection every struct has the marks of a struct that was there before. -/
structure Generator.KeepsMarks (g : Generator) : Prop where
  content : ∀ c s s', g.addContent c s = .ok s' → s'.capabilities = s.capabilities
  inject : ∀ cx model name model', g.inject cx model name = .ok model' →
    ∀ s' ∈ model'.structs, ∃ s ∈ model.structs, s'.capabilities = s.capabilities

namespace Engine

variable {engine : Engine} {c : Capability} {ss : List Struct} {marks : List CapabilityMark}

theorem capabilities_attachTo (hKeeps : ∀ g ∈ engine.generators, g.KeepsMarks) (c : Capability)
    (s : Struct) : (engine.attachTo c s).1.capabilities = (s.implement c.mark).capabilities := by
  refine stepThrough_keeps
    (P := fun t : Struct => t.capabilities = (s.implement c.mark).capabilities) ?_ rfl
  intro t ht g hg t' hStep
  split at hStep
  · exact Except.ok.inj hStep ▸ ht
  · exact ((hKeeps g hg).content c t t' hStep).trans ht

/-- If all structs have the same marks, they all get the new one at the end. -/
theorem capabilities_attachToAll (hKeeps : ∀ g ∈ engine.generators, g.KeepsMarks)
    (hNew : c.mark ∉ marks) (hss : ∀ s ∈ ss, s.capabilities = marks) {ss' : List Struct}
    (h : engine.attachToAll c ss = (ss', .ok ())) :
    ∀ s ∈ ss', s.capabilities = marks ++ [c.mark] := by
  induction ss generalizing ss' with
  | nil =>
    obtain ⟨rfl, -⟩ := Prod.mk.inj h
    simp
  | cons s ss ih =>
    obtain ⟨hs, hss⟩ := List.forall_mem_cons.1 hss
    have hMarks := capabilities_attachTo hKeeps c s
    have hFree : s.capabilities.contains c.mark = false := by simpa [hs] using hNew
    rw [Struct.implement_eq, hFree, if_neg Bool.false_ne_true] at hMarks
    unfold attachToAll at h
    split at h
    · cases (Prod.mk.inj h).2
    · rename_i t hFirst
      obtain ⟨rfl, hRest⟩ := Prod.mk.inj h
      rw [hFirst] at hMarks
      rw [List.forall_mem_cons]
      exact ⟨hMarks.trans (by rw [hs]), ih hss (Prod.ext rfl hRest)⟩

theorem capabilities_attachEach (hKeeps : ∀ g ∈ engine.generators, g.KeepsMarks)
    {cs : List Capability} (hNodup : (marks ++ cs.map Capability.mark).Nodup)
    (hss : ∀ s ∈ ss, s.capabilities = marks) {ss' : List Struct}
    (h : engine.attachEach ss cs = (ss', .ok ())) :
    ∀ s ∈ ss', s.capabilities = marks ++ cs.map Capability.mark := by
  induction cs generalizing marks ss with
  | nil =>
    obtain ⟨rfl, -⟩ := Prod.mk.inj h
    simpa using hss
  | cons c cs ih =>
    unfold attachEach at h
    split at h
    · cases (Prod.mk.inj h).2
    · rename_i ss₁ hFirst
      rw [List.map_cons, List.append_cons] at hNodup ⊢
      have hNew : c.mark ∉ marks := by
        have hPart := (List.nodup_append.1 hNodup).1
        exact fun hMem => (List.nodup_append.1 hPart).2.2 _ hMem _ List.mem_cons_self rfl
      exact ih hNodup (capabilities_attachToAll hKeeps hNew hss hFirst) h

theorem capabilities_injectAll (hKeeps : ∀ g ∈ engine.generators, g.KeepsMarks)
    (registry : Registry) {model : Model} (hss : ∀ s ∈ model.structs, s.capabilities = marks) :
    ∀ s ∈ (engine.injectAll registry model).1.structs, s.capabilities = marks := by
  refine stepThrough_keeps (P := fun m : Model => ∀ s ∈ m.structs, s.capabilities = marks) ?_ hss
  rintro m hm ⟨g, name⟩ hWork m' hStep s' hs'
  have hg : g ∈ engine.generators := by
    obtain ⟨g', hg', hMem⟩ := List.mem_flatMap.1 hWork
    obtain ⟨_, _, hSame⟩ := List.mem_map.1 hMem
    exact (Prod.mk.inj hSame).1 ▸ hg'
  obtain ⟨s, hs, hMarks⟩ := (hKeeps g hg).inject _ m name m' hStep s' hs'
  exact hMarks.trans (hm s hs)

theorem nodup_marks (engine : Engine) : (engine.registry.capabilities.map Capability.mark).Nodup :=
  List.Nodup.of_map CapabilityMark.name (by
    rw [List.map_map]
    exact nodup_registry engine)

/-- A composition that succeeds returns the registry, and has marked every struct with it. -/
theorem capabilities_compose (hKeeps : ∀ g ∈ engine.generators, g.KeepsMarks)
    {model composed : Model} (hBare : ∀ s ∈ model.structs, s.capabilities = [])
    {registry : Registry} (h : engine.compose model = (composed, .ok registry)) :
    registry = engine.registry ∧
      ∀ s ∈ composed.structs, s.capabilities = registry.capabilities.map Capability.mark := by
  unfold compose at h
  simp only at h
  split at h
  · cases (Prod.mk.inj h).2
  · rename_i ss hAttach
    have hMarked := capabilities_attachEach hKeeps (nodup_marks engine) hBare hAttach
    split at h
    · cases (Prod.mk.inj h).2
    · rename_i model' hInject
      obtain ⟨rfl, hRegistry⟩ := Prod.mk.inj h
      obtain rfl := Except.ok.inj hRegistry
      refine ⟨rfl, ?_⟩
      have hAll : ∀ s ∈ (engine.injectAll engine.registry { model with structs := ss }).1.structs,
          s.capabilities = engine.registry.capabilities.map Capability.mark :=
        capabilities_injectAll hKeeps engine.registry hMarked
      rwa [hInject] at hAll

/-! ## Modules -/

/-- What a generator makes of the model is among the files that are emitted. -/
theorem mem_emit {model : Model} {registry : Registry} {es : List Emitted}
    (h : engine.emit model registry = .ok es) {g : Generator} (hg : g ∈ engine.generators) :
    ∃ as, artifactsOf (engine.context registry) model g = .ok as ∧
      ∀ a ∈ as, Emitted.mk g.name a ∈ es := by
  obtain ⟨parts, hParts, rfl⟩ := emit_eq_ok h
  obtain ⟨part, hPart, as, has, rfl⟩ := exists_of_mem_right hParts.flip hg
  exact ⟨as, has, fun a ha => List.mem_flatten_of_mem hPart (List.mem_map_of_mem ha)⟩

end Engine

namespace Rust

theorem capabilitiesOf_eq {registry : Registry} {s : Struct}
    (hNames : (registry.capabilities.map Capability.name).Nodup)
    (hMarks : s.capabilities = registry.capabilities.map Capability.mark) :
    capabilitiesOf registry s = registry.capabilities := by
  have hFound : ∀ c ∈ registry.capabilities,
      ((fun mark : CapabilityMark => registry.get? mark.name) ∘ Capability.mark) c = some c :=
    fun c hc => Registry.get?_of_mem hNames hc
  rw [capabilitiesOf, hMarks, List.filterMap_map, List.filterMap_congr hFound, List.filterMap_some]

/-- The file of the module of a struct. -/
def moduleFile (registry : Registry) (model : Model) (s : Struct) : Artifact :=
  ⟨⟨fileName s.name⟩, (StructModule.ofStruct registry model s).render⟩

theorem moduleFile_mem_emit {engine : Engine} (hRust : generator ∈ engine.generators)
    {model : Model} {registry : Registry} {es : List Engine.Emitted}
    (h : engine.emit model registry = .ok es) {s : Struct} (hs : s ∈ model.structs) :
    ⟨"rust", moduleFile registry model s⟩ ∈ es := by
  obtain ⟨as, has, hAll⟩ := Engine.mem_emit h hRust
  obtain ⟨headers, -, has⟩ := bind_eq_ok_iff.1 has
  obtain rfl := Except.ok.inj has
  refine hAll _ (List.mem_append_right _ ?_)
  exact List.mem_append_left _ (List.mem_append_right _ (List.mem_map_of_mem hs))

end Rust

/-! ## Generators of the program -/

/-- A change that keeps the marks of a struct keeps those of the model. -/
theorem Model.marks_updateStruct {model : Model} {n : String} {change : Struct → Struct}
    (hChange : ∀ s, (change s).capabilities = s.capabilities) :
    ∀ s' ∈ (model.updateStruct n change).structs,
      ∃ s ∈ model.structs, s'.capabilities = s.capabilities := by
  have go : ∀ ss : List Struct, ∀ s' ∈ updateStruct.go n change ss,
      ∃ s ∈ ss, s'.capabilities = s.capabilities := by
    intro ss
    induction ss with
    | nil => simp [updateStruct.go]
    | cons s ss ih =>
      intro s' hs'
      unfold updateStruct.go at hs'
      split at hs'
      · rcases List.mem_cons.1 hs' with rfl | hs'
        · exact ⟨s, List.mem_cons_self, hChange s⟩
        · exact ⟨s', List.mem_cons_of_mem s hs', rfl⟩
      · rcases List.mem_cons.1 hs' with rfl | hs'
        · exact ⟨s', List.mem_cons_self, rfl⟩
        · obtain ⟨t, ht, hMarks⟩ := ih s' hs'
          exact ⟨t, List.mem_cons_of_mem s ht, hMarks⟩
  exact go model.structs

theorem Model.marks_changeStruct {model model' : Model} {generator n : String}
    {change : Struct → Struct} (hChange : ∀ s, (change s).capabilities = s.capabilities)
    (h : model.changeStruct generator n change = .ok model') :
    ∀ s' ∈ model'.structs, ∃ s ∈ model.structs, s'.capabilities = s.capabilities := by
  unfold changeStruct at h
  split at h
  · obtain rfl := Except.ok.inj h
    exact marks_updateStruct hChange
  · cases h

theorem Struct.capabilities_addOperations (fs : List Operation) (s : Struct) :
    (fs.foldl Struct.addOperation s).capabilities = s.capabilities := by
  induction fs generalizing s with
  | nil => rfl
  | cons f fs ih =>
    rw [List.foldl_cons, ih, Struct.addOperation_eq]
    split <;> rfl

theorem Sql.capabilities_makeStored (s : Struct) :
    (makeStored s).capabilities = s.capabilities := by
  rw [makeStored, Struct.addRequirement_eq, Struct.addHook_eq]
  split <;> split <;> exact Struct.capabilities_addOperations storedOperations s

theorem Sql.marks_linkElements (holder : String) (elements : List String) (model : Model) :
    ∀ s' ∈ (linkElements holder model elements).structs,
      ∃ s ∈ model.structs, s'.capabilities = s.capabilities := by
  induction elements generalizing model with
  | nil => exact fun s hs => ⟨s, hs, rfl⟩
  | cons e elements ih =>
    intro s' hs'
    have hKey : ∀ s : Struct, (s.addMember (holderKey holder)).capabilities = s.capabilities := by
      intro s
      rw [Struct.addMember_eq]
      split <;> rfl
    obtain ⟨t, ht, hMarks⟩ := ih _ s' hs'
    obtain ⟨s, hs, hMarks'⟩ := Model.marks_updateStruct hKey t ht
    exact ⟨s, hs, hMarks.trans hMarks'⟩

theorem Builtin.keepsMarks (b : Builtin) : b.generator.KeepsMarks := by
  refine ⟨?_, ?_⟩
  · intro c s s' h
    cases b <;> exact Except.ok.inj h ▸ rfl
  · intro cx model n model' h
    cases b with
    | sql o =>
      obtain ⟨stored, hStored, hLinked⟩ := bind_eq_ok_iff.1 h
      obtain rfl := Except.ok.inj hLinked
      intro s' hs'
      obtain ⟨t, ht, hMarks⟩ := Sql.marks_linkElements _ _ _ s' hs'
      obtain ⟨s, hs, hMarks'⟩ := Model.marks_changeStruct Sql.capabilities_makeStored hStored t ht
      exact ⟨s, hs, hMarks.trans hMarks'⟩
    | jsonSchema => exact Model.marks_changeStruct (Struct.capabilities_addOperations _) h
    | rust => exact Model.marks_changeStruct (fun _ => rfl) h

/-- Without filtered queries all generators emit what was composed. -/
theorem Builtin.emit_composed_isOk {bs : List Builtin}
    (hQueries : ∀ o, sql o ∈ bs → o.filteredQueries = false) (model : Model) :
    ∃ es, (Engine.mk (bs.map generator)).emit (composed bs model) (registryOf bs) = .ok es := by
  apply Engine.emit_isOk
  intro g hg
  obtain ⟨b, hb, rfl⟩ := List.mem_map.1 hg
  exact artifactsOf_isOk (fun o ho => hQueries o (ho ▸ hb)) _ _

/-- Composition with any registered generators, whatever capabilities they declare, that leave marks
to the engine, of a model without marks. When it succeeds, the registry holds the capabilities that
are the first of their name, in the order of registration, no two of one name or of one owner. Every
struct then has one mark for each of them, in their order, and its module, which is emitted if Rust
takes part, has one implementation for each, with each of its operations once. So does the text of
the module, unless names or descriptions bring in lines of their own. -/
theorem Engine.compose_collects {calls : List Generator}
    (hKeeps : ∀ g ∈ (afterCalls calls).generators, g.KeepsMarks) {model composed : Model}
    (hBare : ∀ s ∈ model.structs, s.capabilities = []) {registry : Registry}
    (h : (afterCalls calls).compose model = (composed, .ok registry)) :
    Collected (afterCalls calls).generators registry.capabilities ∧
      (registry.capabilities.map Capability.name).Nodup ∧
      (registry.capabilities.map Capability.owner).Nodup ∧
      ∀ s ∈ composed.structs,
        s.capabilities = registry.capabilities.map (fun c => ⟨c.owner, c.name⟩) ∧
        (Rust.StructModule.ofStruct registry composed s).implementations =
          registry.capabilities.map (fun c =>
            ⟨c.name, c.interface.operations.map (Rust.Function.ofOperation s)⟩) ∧
        (Rust.FitsLines s → (∀ c ∈ registry.capabilities, '\n' ∉ c.name.toList) →
          Rust.headings (Rust.StructModule.ofStruct registry composed s).render =
            Rust.Heading.implementation ("impl " ++ s.name ++ " \x7b") ::
              ((Rust.StructModule.ofStruct registry composed s).functionNames.map
                  Rust.Heading.method ++
                registry.capabilities.flatMap (fun c =>
                  Rust.Heading.implementation ("impl " ++ c.name ++ " for " ++ s.name ++ " \x7b") ::
                    c.interface.operations.map (fun f =>
                      Rust.Heading.provided (Rust.identifier f.name))))) ∧
        (Rust.generator ∈ (afterCalls calls).generators → ∀ es,
          (afterCalls calls).emit composed registry = .ok es →
            ⟨"rust", ⟨Rust.fileName s.name⟩,
              (Rust.StructModule.ofStruct registry composed s).render⟩ ∈ es) := by
  obtain ⟨rfl, hMarks⟩ := capabilities_compose hKeeps hBare h
  have hCollected := collected_registry (afterCalls calls)
  have hNames := nodup_registry (afterCalls calls)
  refine ⟨hCollected, hNames, (wellNamed_afterCalls calls).distinct.sublist hCollected.order, ?_⟩
  intro s hs
  have hOf := Rust.capabilitiesOf_eq hNames (hMarks s hs)
  refine ⟨hMarks s hs, ?_, ?_, fun hRust es hEs => Rust.moduleFile_mem_emit hRust hEs hs⟩
  · rw [Rust.StructModule.ofStruct, hOf]
  · intro hFits hCapabilities
    rw [hFits.headings_ofStruct hCapabilities, hOf]

theorem Engine.exists_of_any_compose {engine : Engine} {model : Model}
    {p : Model → Registry → Prop} [∀ composed registry, Decidable (p composed registry)]
    (h : (engine.compose model).2.toOption.any (fun registry =>
      decide (p (engine.compose model).1 registry)) = true) :
    ∃ composed registry, engine.compose model = (composed, .ok registry) ∧
      p composed registry := by
  cases hResult : (engine.compose model).2 with
  | error e => simp [hResult, Except.toOption] at h
  | ok registry =>
    refine ⟨_, registry, Prod.ext rfl hResult, ?_⟩
    simpa [hResult, Except.toOption] using h

/-- A generator that declares a capability and asks every struct that has another one for an
operation as well. -/
def declaring (name capability : String) (operations : List String) : Generator where
  name
  capability := some {
    name := capability
    operations := operations.map (⟨.generator name, .toSerialized, ·, none⟩) }
  addContent := fun c s => .ok (s.addOperation ⟨.generator name, .toSerialized, c.name, none⟩)
  inject := fun _ model _ => .ok model
  emit := fun _ _ => .ok []

theorem declaring_keepsMarks (name capability : String) (operations : List String) :
    (declaring name capability operations).KeepsMarks := by
  refine ⟨?_, ?_⟩
  · intro c s s' h
    obtain rfl := Except.ok.inj h
    exact Struct.capabilities_addOperations [_] s
  · intro cx model n model' h
    obtain rfl := Except.ok.inj h
    exact fun s hs => ⟨s, hs, rfl⟩

/-- Two capabilities of one name, one without operations, and a generator whose name is taken. -/
def declaringCalls : List Generator :=
  [declaring "printer" "Printable" ["print", "preview"], declaring "copier" "Printable" ["copy"],
   declaring "idler" "Idle" [], Rust.generator, declaring "printer" "Shown" ["show"],
   JsonSchema.generator]

theorem compose_shop_collects :
    ∃ composed registry es,
      (Engine.afterCalls declaringCalls).compose shopModel = (composed, .ok registry) ∧
      (Engine.afterCalls declaringCalls).emit composed registry = .ok es ∧
      registry.capabilities.map (fun c => (c.owner, c.name)) =
        [("printer", "Printable"), ("json_schema", "JsonSerializable")] ∧
      Collected (Engine.afterCalls declaringCalls).generators registry.capabilities ∧
      ∃ s ∈ composed.structs, s.name = "Trip" ∧
        s.capabilities = [⟨"printer", "Printable"⟩, ⟨"json_schema", "JsonSerializable"⟩] ∧
        (Rust.StructModule.ofStruct registry composed s).implementations.map
            (fun i => (i.capability, i.functions.map Rust.Function.name)) =
          [("Printable", ["print", "preview"]), ("JsonSerializable", ["to_json", "from_json"])] ∧
        Rust.headings (Rust.StructModule.ofStruct registry composed s).render =
          [.implementation "impl Trip \x7b", .method "stops", .method "set_stops", .method "id",
           .method "set_id", .method "printable", .method "printable", .method "json_serializable",
           .method "json_serializable", .method "json_serializable",
           .implementation "impl Printable for Trip \x7b", .provided "print", .provided "preview",
           .implementation "impl JsonSerializable for Trip \x7b", .provided "to_json",
           .provided "from_json"] ∧
        ⟨"rust", ⟨"trip.rs"⟩, (Rust.StructModule.ofStruct registry composed s).render⟩ ∈ es := by
  have hGenerators : (Engine.afterCalls declaringCalls).generators =
      [declaring "printer" "Printable" ["print", "preview"],
       declaring "copier" "Printable" ["copy"], declaring "idler" "Idle" [],
       Builtin.rust.generator, Builtin.jsonSchema.generator] := rfl
  have hKeeps : ∀ g ∈ (Engine.afterCalls declaringCalls).generators, g.KeepsMarks := by
    simp [hGenerators, declaring_keepsMarks, Builtin.keepsMarks]
  obtain ⟨composed, registry, hCompose, hCapabilities, hNames, trip, hTrip, hName, hFile, hFits,
      hMethods, hFunctions⟩ : ∃ composed registry,
        (Engine.afterCalls declaringCalls).compose shopModel = (composed, .ok registry) ∧
          registry.capabilities.map (fun c => (c.owner, c.name)) =
            [("printer", "Printable"), ("json_schema", "JsonSerializable")] ∧
          (∀ c ∈ registry.capabilities, '\n' ∉ c.name.toList) ∧
          ∃ s ∈ composed.structs, s.name = "Trip" ∧ Rust.fileName s.name = "trip.rs" ∧
            Rust.FitsLines s ∧
            (Rust.StructModule.ofStruct registry composed s).functionNames =
              ["stops", "set_stops", "id", "set_id", "printable", "printable", "json_serializable",
               "json_serializable", "json_serializable"] ∧
            registry.capabilities.map (fun c => (c.name,
              (c.interface.operations.map (Rust.Function.ofOperation s)).map Rust.Function.name)) =
            [("Printable", ["print", "preview"]),
             ("JsonSerializable", ["to_json", "from_json"])] :=
    Engine.exists_of_any_compose (by decide +kernel)
  obtain ⟨es, hEs⟩ : ∃ es, (Engine.afterCalls declaringCalls).emit composed registry = .ok es := by
    apply Engine.emit_isOk
    rw [hGenerators]
    simp only [List.forall_mem_cons, List.not_mem_nil, false_implies, implies_true, and_true]
    exact ⟨⟨[], rfl⟩, ⟨[], rfl⟩, ⟨[], rfl⟩, Builtin.artifactsOf_isOk (by simp) _ _,
      Builtin.artifactsOf_isOk (by simp) _ _⟩
  obtain ⟨hCollected, -, -, hStructs⟩ := Engine.compose_collects hKeeps (by decide) hCompose
  obtain ⟨hMarks, hModule, hHeadings, hEmitted⟩ := hStructs trip hTrip
  refine ⟨composed, registry, es, hCompose, hEs, hCapabilities, hCollected, trip, hTrip, hName, ?_,
    ?_, ?_, ?_⟩
  · have hPairs := congrArg (List.map (fun pair => CapabilityMark.mk pair.1 pair.2)) hCapabilities
    rw [List.map_map] at hPairs
    exact hMarks.trans hPairs
  · rw [hModule, List.map_map]
    exact hFunctions
  · have hProvided := congrArg (List.flatMap (fun pair : String × List String =>
      Rust.Heading.implementation ("impl " ++ pair.1 ++ " for " ++ "Trip" ++ " \x7b") ::
        pair.2.map .provided)) hFunctions
    simp only [List.flatMap_map, List.map_map, Function.comp_def, Rust.name_ofOperation]
      at hProvided
    rw [hHeadings hFits hNames, hMethods, hName, hProvided]
    rfl
  · rw [← hFile]
    exact hEmitted (by simp [hGenerators, Builtin.generator]) es hEs

end EntitySchema
