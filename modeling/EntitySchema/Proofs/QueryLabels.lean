import EntitySchema.Proofs.FilteredQueries

/-!
The labels of filtered queries. A query is labelled with the columns that it filters by, in snake
case and with `and` between them, so that a column whose own name has this word in it can give two
queries one label. The main result says exactly when a file has a label twice, and that it has none
twice where no name followed by the word begins with another name followed by it.
-/

namespace EntitySchema

namespace Sql

open Text

/-! ## Labels of a file -/

/-- The label on a line. -/
def label? (line : String) : Option String :=
  ("-- name: ".toList.isPrefixOf? line.toList).map String.ofList

/-- The labels in a text. Each stands on a line of its own. -/
def labels (text : String) : List String :=
  (lines text).filterMap label?

theorem label?_of_other {line : String} (hOther : ¬ "-- name: ".toList <+: line.toList) :
    label? line = none := by
  have hNone : "-- name: ".toList.isPrefixOf? line.toList = none := by
    rw [Option.eq_none_iff_forall_ne_some]
    exact fun rest hRest => hOther ⟨rest, List.isPrefixOf?_eq_some_iff_append_eq.1 hRest⟩
  rw [label?, hNone, Option.map_none]

theorem label?_of_label (name : String) : label? ("-- name: " ++ name) = some name := by
  have hSome : "-- name: ".toList.isPrefixOf? ("-- name: " ++ name).toList = some name.toList := by
    rw [List.isPrefixOf?_eq_some_iff_append_eq, String.toList_append]
  rw [label?, hSome, Option.map_some, String.ofList_toList]

theorem labels_queries {d : Dialect} {qs : List Query}
    (h : ∀ q ∈ qs, '\n' ∉ q.label.toList ∧ '\n' ∉ (q.statement.render d).toList)
    (hOther : ∀ q ∈ qs, ¬ "-- name: ".toList <+: (q.statement.render d).toList) :
    labels (header ++ String.join (qs.map (fun q => renderNamed d q.label q.statement))) =
      qs.map Query.label := by
  have hEmpty : label? "" = none := label?_of_other (by decide)
  rw [labels, lines_queries h, List.filterMap_cons_none (label?_of_other (by decide)),
    List.filterMap_append, List.filterMap_flatMap, List.map_eq_flatMap]
  have hEach : ∀ q ∈ qs, ["", "-- name: " ++ q.label, q.statement.render d].filterMap label? =
      [q.label] := by
    intro q hq
    rw [List.filterMap_cons_none hEmpty, List.filterMap_cons_some (label?_of_label q.label),
      List.filterMap_cons_none (label?_of_other (hOther q hq)), List.filterMap_nil]
  rw [List.flatMap_congr hEach, List.filterMap_cons_none hEmpty]
  exact List.append_nil _

/-! ## Labels of choices -/

/-- The label for a choice of columns. -/
def labelFor (chosen : List String) : String :=
  "find_by_" ++ "_and_".intercalate (chosen.map snakeCase)

/-- No name followed by the word between names begins with another name followed by it. -/
def ToldApart (columns : List String) : Prop :=
  ∀ a ∈ columns, ∀ b ∈ columns,
    (snakeCase a ++ "_and_").toList <+: (snakeCase b ++ "_and_").toList → a = b

instance (columns : List String) : Decidable (ToldApart columns) :=
  inferInstanceAs (Decidable (∀ a ∈ columns, ∀ b ∈ columns, _ → _))

section Choices

variable {columns chosen chosen' : List String}

theorem labelFor_code (hSome : chosen ≠ []) :
    (labelFor chosen).toList ++ "_and_".toList =
      "find_by_".toList ++ chosen.flatMap (fun a => (snakeCase a ++ "_and_").toList) := by
  have hParts : (chosen.map snakeCase).map String.toList ≠ [] := by simpa using hSome
  rw [labelFor, String.toList_append, String.toList_intercalate, List.append_assoc,
    intercalate_append_self _ hParts]
  simp [List.flatMap_map]

/-- Names that are told apart tell the choice. -/
theorem ToldApart.eq_of_labelFor (h : ToldApart columns) (hChosen : chosen ≠ [])
    (hChosen' : chosen' ≠ []) (hSub : chosen ⊆ columns) (hSub' : chosen' ⊆ columns)
    (hSame : labelFor chosen = labelFor chosen') : chosen = chosen' := by
  have hCode := labelFor_code hChosen
  rw [hSame, labelFor_code hChosen', List.append_cancel_left_eq] at hCode
  refine flatMap_inj_of_prefix (by simp) ?_ hCode.symm
  rintro a ha b hb (hPrefix | hPrefix)
  · exact h a (hSub ha) b (hSub' hb) hPrefix
  · exact (h b (hSub' hb) a (hSub ha) hPrefix).symm

end Choices

section Files

variable {d : Dialect} {model : Model} {s : Struct}

/-- The labels of the file of queries are those of the choices, one after the other. -/
theorem labels_choices (hName : IsPlain s.name) (hMembers : ∀ m ∈ s.members, IsPlain m.name)
    (hNodup : (valueNames model s).Nodup) :
    labels (header ++ String.join
        ((queries model s).map (fun q => renderNamed d q.label q.statement))) =
      (choices (valueNames model s)).tail.map labelFor := by
  rw [labels_queries (newline_not_mem_queries hName hMembers hNodup)]
  · rw [queries, List.map_map]
    rfl
  · intro q hq
    obtain ⟨chosen, _, rfl⟩ := List.mem_map.1 hq
    unfold Query.ofChoice
    simp [render_select]

/-- No two choices from some columns have one label. The choice of nothing has no query. -/
def LabelsDiffer (columns : List String) : Prop :=
  ∀ chosen chosen' : List String, chosen ≠ [] → chosen' ≠ [] →
    chosen.Sublist columns → chosen'.Sublist columns →
    labelFor chosen = labelFor chosen' → chosen = chosen'

theorem nodup_labelFor_iff {columns : List String} (hNodup : columns.Nodup) :
    ((choices columns).tail.map labelFor).Nodup ↔ LabelsDiffer columns := by
  constructor
  · intro h chosen chosen' hChosen hChosen' hSub hSub' hSame
    exact List.inj_on_of_nodup_map h ((mem_tail_choices hNodup).2 ⟨hChosen, hSub⟩)
      ((mem_tail_choices hNodup).2 ⟨hChosen', hSub'⟩) hSame
  · intro h
    refine (nodup_tail_choices hNodup).map_on ?_
    intro chosen hMem chosen' hMem' hSame
    obtain ⟨hChosen, hSub⟩ := (mem_tail_choices hNodup).1 hMem
    obtain ⟨hChosen', hSub'⟩ := (mem_tail_choices hNodup).1 hMem'
    exact h chosen chosen' hChosen hChosen' hSub hSub' hSame

theorem ToldApart.labelsDiffer {columns : List String} (h : ToldApart columns) :
    LabelsDiffer columns :=
  fun _ _ hChosen hChosen' hSub hSub' hSame =>
    h.eq_of_labelFor hChosen hChosen' hSub.subset hSub'.subset hSame

end Files

end Sql

/-- The labels of each file of queries. -/
theorem SqlComposition.labels_queryFiles {model composed : Model}
    (h : SqlComposition model composed) (d : Sql.Dialect) :
    List.Forall₂ (fun s file => Sql.labels file.contents =
        (Sql.choices (Sql.valueNames composed s)).tail.map Sql.labelFor)
      (composed.structs.filter (fun s => Sql.valueMembers composed s ≠ []))
      (Sql.queryFiles d composed composed.structs) := by
  unfold Sql.queryFiles
  rw [List.forall₂_map_right_iff, List.forall₂_same]
  intro s hs
  have hs := List.mem_of_mem_filter hs
  exact Sql.labels_choices (h.isPlain hs).1 (h.isPlain hs).2 (h.nodup_valueNames hs)

/-- The files of queries among those that are emitted. -/
theorem SqlComposition.areQueryFiles_emit {model : Model} {bs : List Builtin}
    (h : SqlComposition model (Builtin.composed bs model)) (hDistinct : (bs.map Builtin.name).Nodup)
    {o : Sql.Options} (ho : .sql o ∈ bs) (hOn : o.filteredQueries = true)
    {es : List Engine.Emitted} (hEs : (Engine.mk (bs.map Builtin.generator)).emit
      (Builtin.composed bs model) (Builtin.registryOf bs) = .ok es) :
    Sql.AreQueryFiles o.dialect (Builtin.composed bs model)
      ((es.filter (fun e => e.generator == "sql")).map (fun e => e.artifact))
      (Sql.queryFiles o.dialect (Builtin.composed bs model)
        (Builtin.composed bs model).structs) := by
  obtain ⟨as, has, hFiles⟩ := Builtin.emit_filter hDistinct hEs ho
  rw [Engine.artifactsOf_eq_emit rfl] at has
  have hArtifacts := congrArg (List.map (fun e => e.artifact)) hFiles
  rw [List.map_map] at hArtifacts
  exact (hArtifacts.trans (List.map_id as)) ▸ h.areQueryFiles hOn has

/-- The labels in the files of filtered queries of a checked schema that is composed with SQL and
other generators. A file has no label twice exactly if no two choices of columns have one label, and
this is so where no name of a column, in snake case and followed by the word `and`, begins with
another one followed by it. -/
theorem queryLabels_differ_iff {source : String} {files : FileSystem} {model : Model}
    (h : compile source files = .ok model) {bs : List Builtin} {engine : Engine}
    (hBs : Builtin.register bs = .ok engine)
    {o : Sql.Options} (ho : .sql o ∈ bs) (hOn : o.filteredQueries = true) :
    ∃ composed registry, engine.compose model = (composed, .ok registry) ∧
      ∀ es, engine.emit composed registry = .ok es →
        ∃ queryFiles, Sql.AreQueryFiles o.dialect composed
            ((es.filter (fun e => e.generator == "sql")).map (fun e => e.artifact)) queryFiles ∧
          List.Forall₂ (fun s file =>
              ((Sql.labels file.contents).Nodup ↔
                Sql.LabelsDiffer (Sql.valueNames composed s)) ∧
              (Sql.ToldApart (Sql.valueNames composed s) → (Sql.labels file.contents).Nodup))
            (composed.structs.filter (fun s => Sql.valueMembers composed s ≠ [])) queryFiles := by
  obtain ⟨hDistinct, rfl⟩ := Builtin.register_eq_ok_iff.1 hBs
  have hComposition := sqlComposition_of_compile h hDistinct ho
  refine ⟨Builtin.composed bs model, Builtin.registryOf bs, Builtin.compose_eq_composed bs model,
    fun es hEs => ⟨_, hComposition.areQueryFiles_emit hDistinct ho hOn hEs, ?_⟩⟩
  have hLabels := hComposition.labels_queryFiles o.dialect
  refine ((List.forall₂_and_left _ _).2 ⟨fun s hs => List.mem_of_mem_filter hs, hLabels⟩).imp ?_
  rintro s file ⟨hs, hFile⟩
  have hIff := Sql.nodup_labelFor_iff (hComposition.nodup_valueNames hs)
  rw [hFile]
  exact ⟨hIff, fun hApart => hIff.2 hApart.labelsDiffer⟩

/-- Keys of holders are columns as well. -/
theorem shop_queryLabels_differ :
    compile shopSource = .ok shopModel ∧
      ∃ engine, Builtin.register [.rust, .sql ⟨.mysql, true⟩] = .ok engine ∧
        ∃ composed registry es, engine.compose shopModel = (composed, .ok registry) ∧
          engine.emit composed registry = .ok es ∧
          ∃ s ∈ composed.structs, Sql.valueNames composed s = ["ShopId", "OrderId"] ∧
            Sql.ToldApart (Sql.valueNames composed s) ∧
            ∃ e ∈ es, e.generator = "sql" ∧ (Sql.labels e.artifact.contents).Nodup := by
  let bs : List Builtin := [.rust, .sql ⟨.mysql, true⟩]
  have hDistinct : (bs.map Builtin.name).Nodup := by decide
  have hBs : Builtin.register bs = .ok ⟨bs.map Builtin.generator⟩ :=
    Builtin.register_eq_ok_iff.2 ⟨hDistinct, rfl⟩
  have ho : .sql ⟨.mysql, true⟩ ∈ bs := List.mem_cons_of_mem _ List.mem_cons_self
  have hComposition := sqlComposition_of_compile compile_shopSource hDistinct ho
  obtain ⟨es, hEs⟩ : ∃ es, (Engine.mk (bs.map Builtin.generator)).emit
      (Builtin.composed bs shopModel) (Builtin.registryOf bs) = .ok es :=
    (Builtin.emit_isOk_iff hDistinct ho).2
      ((Sql.emit_isOk_iff rfl hComposition.structNames).2 (by decide +kernel))
  obtain ⟨composed, registry, hCompose, hAll⟩ :=
    queryLabels_differ_iff compile_shopSource hBs ho rfl
  obtain ⟨rfl, hRegistry⟩ := Prod.mk.inj
    ((Builtin.compose_eq_composed bs shopModel).symm.trans hCompose)
  obtain rfl := Except.ok.inj hRegistry
  obtain ⟨order, hOrder, hColumns⟩ : ∃ s ∈ (Builtin.composed bs shopModel).structs,
      Sql.valueNames (Builtin.composed bs shopModel) s = ["ShopId", "OrderId"] := by
    decide +kernel
  have hApart : Sql.ToldApart ["ShopId", "OrderId"] := by decide +kernel
  obtain ⟨queryFiles, hFiles, hLabels⟩ := hAll es hEs
  have hValues : Sql.valueMembers (Builtin.composed bs shopModel) order ≠ [] := by
    intro hNone
    simp [Sql.valueNames, hNone] at hColumns
  obtain ⟨file, hFile, -, hNodup⟩ := exists_of_mem_right hLabels.flip
    (List.mem_filter.2 ⟨hOrder, by simpa using hValues⟩)
  have hEmitted := hFiles.perm.mem_iff.2
    (List.mem_append_left _ (List.mem_append_right _ hFile))
  obtain ⟨e, he, rfl⟩ := List.mem_map.1 hEmitted
  obtain ⟨he, hSql⟩ := List.mem_filter.1 he
  exact ⟨compile_shopSource, _, hBs, _, _, es, hCompose, hEs, order, hOrder, hColumns,
    hColumns ▸ hApart, e, he, beq_iff_eq.1 hSql, hNodup (hColumns ▸ hApart)⟩

/-- A file of queries of the schema has a label twice, although the members of each struct have
different names in snake case. -/
def RepeatsLabel (source : String) : Prop :=
  ∃ model engine composed registry es, compile source = .ok model ∧
    (∀ s ∈ model.structs, (s.members.map (fun m => Text.snakeCase m.name)).Nodup) ∧
    Builtin.register [.sql ⟨.sqlite, true⟩] = .ok engine ∧
    engine.compose model = (composed, .ok registry) ∧ engine.emit composed registry = .ok es ∧
    ∃ s ∈ composed.structs, ∃ text, ⟨"sql", ⟨s.name ++ "_queries.sql"⟩, text⟩ ∈ es ∧
      ¬ (Sql.labels text).Nodup

theorem repeatsLabel_of_compile {source : String}
    (h : (compile source).toOption.any (fun model => decide (
      let composed := Builtin.composed [.sql ⟨.sqlite, true⟩] model
      (∀ s ∈ model.structs, (s.members.map (fun m => Text.snakeCase m.name)).Nodup) ∧
        (∀ s ∈ composed.structs, (Sql.valueMembers composed s).length ≤ 20) ∧
        ∃ s ∈ composed.structs, Sql.valueMembers composed s ≠ [] ∧
          ¬ ((Sql.choices (Sql.valueNames composed s)).tail.map Sql.labelFor).Nodup)) = true) :
    RepeatsLabel source := by
  obtain ⟨model, hCompile, hShows⟩ := exists_of_any_compile source _ h
  obtain ⟨hNames, hFew, s, hs, hValues, hTwice⟩ := of_decide_eq_true hShows
  let bs : List Builtin := [.sql ⟨.sqlite, true⟩]
  have hDistinct : (bs.map Builtin.name).Nodup := List.nodup_singleton _
  have ho : .sql ⟨.sqlite, true⟩ ∈ bs := List.mem_cons_self
  have hComposition := sqlComposition_of_compile hCompile hDistinct ho
  obtain ⟨es, hEs⟩ : ∃ es, (Engine.mk (bs.map Builtin.generator)).emit
      (Builtin.composed bs model) (Builtin.registryOf bs) = .ok es :=
    (Builtin.emit_isOk_iff hDistinct ho).2 ((Sql.emit_isOk_iff rfl hComposition.structNames).2 hFew)
  have hFiles := hComposition.areQueryFiles_emit hDistinct ho rfl hEs
  have hMember : s ∈ (Builtin.composed bs model).structs.filter
      (fun s => Sql.valueMembers (Builtin.composed bs model) s ≠ []) :=
    List.mem_filter.2 ⟨hs, by simpa using hValues⟩
  have hFile := List.mem_map_of_mem (f := fun s => Artifact.mk ⟨s.name ++ "_queries.sql"⟩
    (Sql.header ++ String.join ((Sql.queries (Builtin.composed bs model) s).map
      (fun q => Sql.renderNamed .sqlite q.label q.statement)))) hMember
  have hEmitted := hFiles.perm.mem_iff.2
    (List.mem_append_left _ (List.mem_append_right _ hFile))
  obtain ⟨⟨generator, artifact⟩, he, hArtifact⟩ := List.mem_map.1 hEmitted
  obtain ⟨he, hSql⟩ := List.mem_filter.1 he
  obtain rfl : generator = "sql" := beq_iff_eq.1 hSql
  subst hArtifact
  refine ⟨model, _, _, _, es, hCompile, hNames, Builtin.register_eq_ok_iff.2 ⟨hDistinct, rfl⟩,
    Builtin.compose_eq_composed bs model, hEs, s, hs, _, he, ?_⟩
  rw [Sql.labels_choices (hComposition.isPlain hs).1 (hComposition.isPlain hs).2
    (hComposition.nodup_valueNames hs)]
  exact hTwice

/-- A column may be named like two others with the word between them, and a struct may have a member
that is named, in snake case, like the key it gets from its holder. -/
theorem queryLabels_repeated :
    RepeatsLabel "struct A \x7b bool: a; bool: b; bool: a_and_b; \x7d" ∧
      RepeatsLabel "struct P \x7b array<C>: c; \x7d struct C \x7b bool: p_id; \x7d" :=
  ⟨repeatsLabel_of_compile (by decide +kernel), repeatsLabel_of_compile (by decide +kernel)⟩

end EntitySchema
