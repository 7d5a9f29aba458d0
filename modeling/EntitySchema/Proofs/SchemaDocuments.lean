import EntitySchema.Proofs.JsonText
import EntitySchema.Proofs.Validity

/-!
The JSON Schema documents. A document describes what the schema declares, and it refers to other
documents by their file names. The main result is that these are files that are emitted, so that no
reference is left open.
-/

namespace EntitySchema

/-! ## Places in a value -/

namespace JsonValue

/-- A step into a value: to a field of an object, or to an item of an array. -/
inductive Step where
  | field (key : String)
  | item (index : Nat)
  deriving DecidableEq, Repr

/-- The value `w` stands in `v` where the steps lead. -/
def At : JsonValue → List Step → JsonValue → Prop
  | v, [], w => w = v
  | object fields, .field key :: path, w => ∃ v, (key, v) ∈ fields ∧ At v path w
  | array items, .item i :: path, w => ∃ v, items[i]? = some v ∧ At v path w
  | _, _ :: _, _ => False

/-- The place of a reference to another document. -/
def refStep : Step := .field "$ref"

variable {fields : List (String × JsonValue)} {path : List Step} {w : JsonValue}

theorem at_object_cons {step : Step} :
    (object fields).At (step :: path) w ↔
      ∃ key v, step = .field key ∧ (key, v) ∈ fields ∧ v.At path w := by
  cases step <;> simp [At]

theorem At.append {v u : JsonValue} {back : List Step} (hFront : v.At path u)
    (hBack : u.At back w) : v.At (path ++ back) w := by
  induction path generalizing v with
  | nil => exact hFront ▸ hBack
  | cons step path ih =>
    cases v <;> cases step <;> simp only [At] at hFront
    all_goals
      obtain ⟨v, hMem, hFront⟩ := hFront
      exact ⟨v, hMem, ih hFront⟩

/-- A reference in an object is one of its fields or stands in one. -/
theorem at_object_ref (h : (object fields).At (path ++ [refStep]) w) :
    (path = [] ∧ ("$ref", w) ∈ fields) ∨
      ∃ key v rest, path = .field key :: rest ∧ (key, v) ∈ fields ∧ v.At (rest ++ [refStep]) w := by
  cases path with
  | nil =>
    obtain ⟨key, v, hStep, hMem, hAt⟩ := at_object_cons.1 h
    obtain rfl : "$ref" = key := Step.field.inj hStep
    obtain rfl : w = v := hAt
    exact .inl ⟨rfl, hMem⟩
  | cons step rest =>
    obtain ⟨key, v, rfl, hMem, hAt⟩ := at_object_cons.1 h
    exact .inr ⟨key, v, rest, rfl, hMem, hAt⟩

/-- No steps lead into the value. -/
def IsLeaf (v : JsonValue) : Prop :=
  ∀ step path w, ¬ v.At (step :: path) w

theorem IsLeaf.not_at_ref {v : JsonValue} (h : v.IsLeaf) : ¬ v.At (path ++ [refStep]) w := by
  cases path with
  | nil => exact h _ _ _
  | cons step rest => exact h _ _ _

theorem isLeaf_string (s : String) : (string s).IsLeaf := by
  intro step path w
  cases step <;> simp [At]

theorem isLeaf_bool (b : Bool) : (bool b).IsLeaf := by
  intro step path w
  cases step <;> simp [At]

theorem isLeaf_integer (n : Int) : (integer n).IsLeaf := by
  intro step path w
  cases step <;> simp [At]

theorem not_at_ref_array {items : List JsonValue} (h : ∀ v ∈ items, v.IsLeaf) :
    ¬ (array items).At (path ++ [refStep]) w := by
  cases path with
  | nil => simp [At, refStep]
  | cons step rest =>
    cases step with
    | field key => simp [At]
    | item i =>
      rintro ⟨v, hv, hAt⟩
      exact (h v (List.mem_of_getElem? hv)).not_at_ref hAt

/-! ## Sorted fields -/

theorem mem_insertField {key : String} {value : JsonValue} {x : String × JsonValue}
    (h : x ∈ insertField key value fields) : x = (key, value) ∨ x ∈ fields := by
  induction fields with
  | nil => simpa [insertField] using h
  | cons first rest ih =>
    unfold insertField at h
    split at h
    · rcases List.mem_cons.1 h with h | h
      · exact .inl h
      · exact .inr (List.mem_cons_of_mem _ h)
    · split at h
      · rcases List.mem_cons.1 h with h | h
        · exact .inl h
        · exact .inr h
      · rcases List.mem_cons.1 h with h | h
        · exact .inr (h ▸ List.mem_cons_self)
        · exact (ih h).imp id (List.mem_cons_of_mem _)

/-- A key that is not there yet is only added. -/
theorem perm_insertField {key : String} (value : JsonValue) (h : key ∉ fields.map Prod.fst) :
    (insertField key value fields).Perm ((key, value) :: fields) := by
  induction fields with
  | nil => rfl
  | cons first rest ih =>
    rw [List.map_cons, List.mem_cons, not_or] at h
    unfold insertField
    rw [if_neg h.1]
    split
    · rfl
    · exact ((ih h.2).cons first).trans (List.Perm.swap _ _ _)

theorem sortFields_eq (fields : List (String × JsonValue)) :
    sortFields fields = fields.foldl (fun sorted x => insertField x.1 x.2 sorted) [] := by
  rfl

theorem mem_of_mem_sortFields {x : String × JsonValue} (h : x ∈ sortFields fields) :
    x ∈ fields := by
  have go : ∀ (fields sorted : List (String × JsonValue)),
      x ∈ fields.foldl (fun sorted x => insertField x.1 x.2 sorted) sorted →
        x ∈ fields ∨ x ∈ sorted := by
    intro fields
    induction fields with
    | nil => exact fun _ h => .inr h
    | cons first rest ih =>
      intro sorted h
      rcases ih _ h with h | h
      · exact .inl (List.mem_cons_of_mem _ h)
      · rcases mem_insertField h with rfl | h
        · exact .inl List.mem_cons_self
        · exact .inr h
  rw [sortFields_eq] at h
  exact (go fields [] h).resolve_right List.not_mem_nil

/-- Fields with different keys are all kept. -/
theorem perm_sortFields (h : (fields.map Prod.fst).Nodup) : (sortFields fields).Perm fields := by
  have go : ∀ (fields sorted : List (String × JsonValue)),
      ((fields ++ sorted).map Prod.fst).Nodup →
      (fields.foldl (fun sorted x => insertField x.1 x.2 sorted) sorted).Perm
        (fields ++ sorted) := by
    intro fields
    induction fields with
    | nil => exact fun _ _ => .rfl
    | cons first rest ih =>
      intro sorted h
      -- What is sorted already has other keys than what is still to come.
      have hNew : first.1 ∉ sorted.map Prod.fst := by
        rw [List.cons_append, List.map_cons, List.nodup_cons, List.map_append] at h
        exact fun hMem => h.1 (List.mem_append_right _ hMem)
      have hStep := (perm_insertField first.2 hNew).append_left rest
      have hMoved := hStep.trans List.perm_middle
      exact (ih _ ((hMoved.map Prod.fst).nodup_iff.2 h)).trans hMoved
  have hAll := go fields [] (by simpa using h)
  rwa [List.append_nil, ← sortFields_eq] at hAll

end JsonValue

theorem Model.Grows.names {model model' : Model} (h : model.Grows model') :
    model'.names = model.names := by
  rw [Model.names, Model.names, h.enums]
  exact congrArg (· ++ _) h.structNames

/-! ## References in a document -/

namespace JsonSchema

open JsonValue

variable {path : List Step} {w : JsonValue}

/-- The document that a type refers to. -/
def TypeSchema.file? : TypeSchema → Option String
  | document file => some file
  | array items => items.file?
  | _ => none

theorem file?_typeSchema (t : TypeExpr) :
    (typeSchema t).file? = t.innermostName?.map fileName := by
  induction t with
  | scalar s => cases s <;> rfl
  | named n => rfl
  | array e ih => exact ih

theorem mem_field? {key : String} {o : Option JsonValue} {x : String × JsonValue} :
    x ∈ field? key o ↔ ∃ v, o = some v ∧ x = (key, v) := by
  cases o <;> simp [field?]

theorem mem_flag {key : String} {b : Bool} {x : String × JsonValue} :
    x ∈ flag key b ↔ b = true ∧ x = (key, .bool true) := by
  cases b <;> simp [flag]

/-- A type holds no reference but the one to its document, however deep its arrays are. -/
theorem TypeSchema.at_ref {t : TypeSchema} (h : (object t.fields).At (path ++ [refStep]) w) :
    ∃ file, w = .string file ∧ t.file? = some file := by
  induction t generalizing path with
  | document file =>
    rcases at_object_ref h with ⟨rfl, hMem⟩ | ⟨key, v, rest, rfl, hMem, hAt⟩
    · exact ⟨file, by simpa [fields] using hMem, rfl⟩
    · obtain ⟨rfl, rfl⟩ : key = "$ref" ∧ v = .string file := by simpa [fields] using hMem
      exact absurd hAt (isLeaf_string file).not_at_ref
  | array items ih =>
    rcases at_object_ref h with ⟨rfl, hMem⟩ | ⟨key, v, rest, rfl, hMem, hAt⟩
    · simp [fields] at hMem
    · have hMem : key = "items" ∧ v = .object items.fields ∨
          key = "type" ∧ v = .string "array" := by
        simpa [fields] using hMem
      rcases hMem with ⟨rfl, rfl⟩ | ⟨rfl, rfl⟩
      · exact ih hAt
      · exact absurd hAt (isLeaf_string _).not_at_ref
  | integer | number | boolean | text | character =>
    -- The fields of a scalar are numbers and texts.
    rcases at_object_ref h with ⟨rfl, hMem⟩ | ⟨key, v, rest, rfl, hMem, hAt⟩
    · simp [fields, mem_field?] at hMem
    · have hLeaf : v.IsLeaf := by
        simp [fields, mem_field?] at hMem
        grind [isLeaf_string, isLeaf_integer]
      exact absurd hAt hLeaf.not_at_ref

/-- What stands beside the type of a member is no reference, and only a default can hold more than
one value. -/
theorem PropertySchema.mem_toJson_fields {p : PropertySchema} {key : String} {v : JsonValue}
    (h : (key, v) ∈ sortFields (p.type.fields ++ field? "description" (p.description.map .string) ++
      field? "default" p.initial ++ field? "minItems" (p.minItems.map (fun n => .integer n)) ++
      field? "maxItems" (p.maxItems.map (fun n => .integer n)) ++
      flag "uniqueItems" p.uniqueItems ++ flag "readOnly" p.readOnly)) :
    (key, v) ∈ p.type.fields ∨ key ≠ "$ref" ∧ (key = "default" ∨ v.IsLeaf) := by
  have h := mem_of_mem_sortFields h
  simp only [List.mem_append, mem_field?, mem_flag, Option.map_eq_some_iff, Prod.mk.injEq] at h
  rcases h with (((((h | ⟨_, ⟨_, _, rfl⟩, rfl, rfl⟩) | ⟨_, _, rfl, _⟩) | ⟨_, ⟨_, _, rfl⟩, rfl, rfl⟩)
    | ⟨_, ⟨_, _, rfl⟩, rfl, rfl⟩) | ⟨_, rfl, rfl⟩) | ⟨_, rfl, rfl⟩
  · exact .inl h
  · exact .inr ⟨by decide, .inr (isLeaf_string _)⟩
  · exact .inr ⟨by decide, .inl rfl⟩
  · exact .inr ⟨by decide, .inr (isLeaf_integer _)⟩
  · exact .inr ⟨by decide, .inr (isLeaf_integer _)⟩
  · exact .inr ⟨by decide, .inr (isLeaf_bool _)⟩
  · exact .inr ⟨by decide, .inr (isLeaf_bool _)⟩

/-- A reference in the schema of a member, outside the default, is that of its type. -/
theorem PropertySchema.at_ref {p : PropertySchema} (h : p.toJson.At (path ++ [refStep]) w)
    (hDefault : path.head? ≠ some (.field "default")) :
    ∃ file, w = .string file ∧ p.type.file? = some file := by
  have hType : (object p.type.fields).At (path ++ [refStep]) w := by
    rcases at_object_ref h with ⟨rfl, hMem⟩ | ⟨key, v, rest, rfl, hMem, hAt⟩
    · rcases mem_toJson_fields hMem with hMem | ⟨hKey, _⟩
      · exact at_object_cons.2 ⟨"$ref", w, rfl, hMem, rfl⟩
      · exact absurd rfl hKey
    · rcases mem_toJson_fields hMem with hMem | ⟨_, rfl | hLeaf⟩
      · exact at_object_cons.2 ⟨key, v, rfl, hMem, hAt⟩
      · exact absurd rfl hDefault
      · exact absurd hAt hLeaf.not_at_ref
  exact TypeSchema.at_ref hType

namespace Document

variable {model : Model} {s : Struct}

/-- The properties of a struct as fields. -/
def properties (model : Model) (s : Struct) : List (String × JsonValue) :=
  (declaredMembers s).map (fun m => (m.name, (PropertySchema.ofMember model m).toJson))

/-- The names of the members that have to be given. -/
def requiredNames (s : Struct) : List String :=
  ((declaredMembers s).filter (fun m => m.required)).map Member.name

theorem toJson_ofStruct (model : Model) (s : Struct) :
    (ofStruct model s).toJson = .object ([("$schema", .string dialect),
      ("$id", .string (fileName s.name)), ("title", .string s.name),
      ("additionalProperties", .bool false),
      ("properties", .object (sortFields (properties model s)))] ++
      (if (requiredNames s).isEmpty then []
        else [("required", .array ((requiredNames s).map .string))]) ++
      [("type", .string "object")]) := by
  simp only [toJson, ofStruct, Body.fields, properties, requiredNames, List.map_map]
  rfl

/-- A reference in a document, outside the defaults, is that of the type of a member. -/
theorem at_ref (hNames : ∀ m ∈ declaredMembers s, m.name ≠ "$ref")
    (h : (ofStruct model s).toJson.At (path ++ [refStep]) w)
    (hDefault : ¬ ∃ name, [.field "properties", .field name, .field "default"] <+: path) :
    ∃ m ∈ declaredMembers s, ∃ file, w = .string file ∧
      (PropertySchema.ofMember model m).type.file? = some file := by
  rw [toJson_ofStruct] at h
  rcases at_object_ref h with ⟨rfl, hMem⟩ | ⟨key, v, rest, rfl, hMem, hAt⟩
  · exfalso
    cases hEmpty : (requiredNames s).isEmpty <;> simp [hEmpty] at hMem
  · have hCases : v.IsLeaf ∨ v = .array ((requiredNames s).map .string) ∨
        key = "properties" ∧ v = .object (sortFields (properties model s)) := by
      cases hEmpty : (requiredNames s).isEmpty <;>
        simp only [hEmpty, List.cons_append, List.nil_append, List.mem_cons, List.not_mem_nil,
          Prod.mk.injEq, if_true, if_false, Bool.false_eq_true] at hMem <;>
        grind [isLeaf_string, isLeaf_bool]
    rcases hCases with hLeaf | rfl | ⟨rfl, rfl⟩
    · exact absurd hAt hLeaf.not_at_ref
    · refine absurd hAt (not_at_ref_array ?_)
      intro v hv
      obtain ⟨name, _, rfl⟩ := List.mem_map.1 hv
      exact isLeaf_string name
    · -- The names of members are no keywords of the documents.
      rcases at_object_ref hAt with ⟨rfl, hMem⟩ | ⟨name, v, rest, rfl, hMem, hAt⟩
      · obtain ⟨m, hm, hField⟩ := List.mem_map.1 (mem_of_mem_sortFields hMem)
        exact absurd (Prod.mk.inj hField).1 (hNames m hm)
      · obtain ⟨m, hm, hField⟩ := List.mem_map.1 (mem_of_mem_sortFields hMem)
        obtain ⟨rfl, rfl⟩ := Prod.mk.inj hField
        refine ⟨m, hm, PropertySchema.at_ref hAt ?_⟩
        intro hHead
        obtain ⟨rest, rfl⟩ := List.head?_eq_some_iff.1 hHead
        exact hDefault ⟨m.name, rest, rfl⟩

theorem at_properties {v : JsonValue} :
    (ofStruct model s).toJson.At [.field "properties"] v ↔
      v = .object (sortFields (properties model s)) := by
  rw [toJson_ofStruct, at_object_cons]
  cases hEmpty : (requiredNames s).isEmpty <;> simp [At, eq_comm]

/-- The list of required names is left out if it is empty. -/
theorem at_required {v : JsonValue} :
    (ofStruct model s).toJson.At [.field "required"] v ↔
      requiredNames s ≠ [] ∧ v = .array ((requiredNames s).map .string) := by
  rw [toJson_ofStruct, at_object_cons]
  cases hNames : requiredNames s <;> simp [At, eq_comm]

end Document

/-! ## The files that are emitted -/

theorem name_documents (model : Model) : (documents model).map Document.name = model.names := by
  simp only [documents, List.map_append, List.map_map]
  rfl

/-- The document that the schema of a member refers to is that of the name in its type. -/
theorem exists_name_of_file? {model : Model} {m : Member} {file : String}
    (h : (PropertySchema.ofMember model m).type.file? = some file) :
    ∃ n, m.type.innermostName? = some n ∧ file = fileName n := by
  rw [PropertySchema.ofMember] at h
  split at h
  · cases h
  · rw [file?_typeSchema] at h
    obtain ⟨n, hn, rfl⟩ := Option.map_eq_some_iff.1 h
    exact ⟨n, hn, rfl⟩

/-- Documents have different files. -/
theorem filter_documents {model : Model} (hNames : model.names.Nodup) {d : Document}
    (hd : d ∈ documents model) :
    (documents model).filter (fun d' => d'.artifact.path == ⟨fileName d.name⟩) = [d] := by
  have hSame : ∀ d' : Document, (d'.artifact.path == ⟨fileName d.name⟩) = (d'.name == d.name) := by
    intro d'
    rw [Bool.eq_iff_iff]
    simp [Document.artifact, fileName]
  rw [← name_documents] at hNames
  simp only [hSame]
  generalize documents model = ds at hNames hd
  induction ds with
  | nil => cases hd
  | cons first ds ih =>
    obtain ⟨hNew, hNames⟩ := List.nodup_cons.1 hNames
    rcases List.mem_cons.1 hd with rfl | hd
    · have hNone : ds.filter (fun d' => d'.name == d.name) = [] := by
        simp only [List.filter_eq_nil_iff, beq_iff_eq]
        intro d' hd' hName
        exact hNew (hName ▸ List.mem_map_of_mem hd')
      simp [hNone]
    · have hOther : first.name ≠ d.name := fun h => hNew (h ▸ List.mem_map_of_mem hd)
      rw [List.filter_cons_of_neg (by simpa using hOther)]
      exact ih hNames hd

/-- The files of JSON Schema are the documents of the model. -/
theorem filter_emitted {bs : List Builtin} (hDistinct : (bs.map Builtin.name).Nodup)
    (hb : .jsonSchema ∈ bs) {model : Model} {registry : Registry} {es : List Engine.Emitted}
    (h : (Engine.mk (bs.map Builtin.generator)).emit model registry = .ok es) :
    es.filter (fun e => e.generator == "json_schema") =
      (documents model).map (fun d => ⟨"json_schema", d.artifact⟩) := by
  obtain ⟨as, has, hFiles⟩ := Builtin.emit_filter hDistinct h hb
  rw [Engine.artifactsOf_eq_emit rfl] at has
  obtain rfl := Except.ok.inj has
  refine hFiles.trans ?_
  rw [List.map_map]
  rfl

/-- Each document is in one file. -/
theorem filter_emitted_file {bs : List Builtin} (hDistinct : (bs.map Builtin.name).Nodup)
    (hb : .jsonSchema ∈ bs) {model : Model} (hModel : model.names.Nodup) {registry : Registry}
    {es : List Engine.Emitted}
    (h : (Engine.mk (bs.map Builtin.generator)).emit model registry = .ok es) {d : Document}
    (hd : d ∈ documents model) :
    es.filter (fun e => e.generator == "json_schema" && e.artifact.path == ⟨fileName d.name⟩) =
      [⟨"json_schema", d.artifact⟩] := by
  have hSplit := List.filter_filter (p := fun e => e.artifact.path == ⟨fileName d.name⟩)
    (q := fun e : Engine.Emitted => e.generator == "json_schema") (l := es)
  simp only [Bool.and_comm] at hSplit
  rw [← hSplit, filter_emitted hDistinct hb h, List.filter_map]
  exact congrArg (List.map _) (filter_documents hModel hd)

/-- What the schema declares of a struct is what it was read with. -/
theorem declaredMembers_of_grows {model : Model} {s s' : Struct} (hs : s.Declared model)
    (h : s.Grows s') : declaredMembers s' = s.members := by
  have hOwners : s.members.filter (fun m => m.owner.isSchema) = s.members := by
    rw [List.filter_eq_self]
    intro m hm
    rcases Reader.declared_or_key hs hm with hm | rfl
    · rw [hm.owner]
      rfl
    · rfl
  obtain ⟨holders, hMembers⟩ := h.members
  have hKeys : ∀ holder, (Sql.holderKey holder).owner.isSchema = false := fun _ => rfl
  rw [declaredMembers, hMembers, List.filter_append, hOwners, List.filter_map]
  simp [Function.comp_def, hKeys]

/-- The value describes a struct with these members: each is a property, and those that have to be
given are listed in their order. -/
structure Describes (model : Model) (ms : List Member) (doc : JsonValue) : Prop where
  properties : ∃ fields, (∀ v, doc.At [.field "properties"] v ↔ v = .object fields) ∧
    fields.Perm (ms.map (fun m => (m.name, (PropertySchema.ofMember model m).toJson)))
  required : ∀ v, doc.At [.field "required"] v ↔
    (∃ m ∈ ms, m.required = true) ∧
      v = .array ((ms.filter (fun m => m.required)).map (fun m => .string m.name))

theorem describes_ofStruct (model : Model) {s : Struct}
    (hNames : ((declaredMembers s).map Member.name).Nodup) :
    Describes model (declaredMembers s) (Document.ofStruct model s).toJson where
  properties := by
    refine ⟨_, fun v => Document.at_properties, perm_sortFields ?_⟩
    rwa [Document.properties, List.map_map]
  required := by
    intro v
    rw [Document.at_required]
    simp [Document.requiredNames, Function.comp_def]

/-- The names of members are no keywords of the documents. -/
theorem name_ne_ref {model : Model} {s : Struct} (hs : s.Declared model) {m : Member}
    (hm : m ∈ s.members) : m.name ≠ "$ref" := by
  intro hName
  rcases Reader.declared_or_key hs hm with hm | rfl
  · exact absurd (hName ▸ hm.name) (by decide)
  · exact absurd hName (by decide)

end JsonSchema

open JsonSchema in
/-- The documents that JSON Schema, with any other generators, emits for the structs of a checked
schema. Each struct has one file, and its text is read back as a document that describes the members
that the schema declares, and no others. Wherever a document refers to a file, but for the defaults,
that is a file that is emitted once. -/
theorem documents_refer_within {source : String} {files : FileSystem} {model : Model}
    (h : compile source files = .ok model) {bs : List Builtin} {engine : Engine}
    (hBs : Builtin.register bs = .ok engine)
    (hb : .jsonSchema ∈ bs) :
    ∃ composed registry, engine.compose model = (composed, .ok registry) ∧
      ∀ es, engine.emit composed registry = .ok es → ∀ s ∈ composed.structs,
        ∃ doc : JsonValue, doc = (Document.ofStruct composed s).toJson ∧
          es.filter (fun e => e.generator == "json_schema" &&
            e.artifact.path == ⟨s.name ++ ".schema.json"⟩) =
              [⟨"json_schema", ⟨s.name ++ ".schema.json"⟩, doc.render ++ "\n"⟩] ∧
          (∀ number depth, doc.nesting < depth →
            JsonValue.readWith? number depth (doc.render ++ "\n") = doc.asRead number) ∧
          Describes composed (s.members.filter (fun m => m.owner.isSchema)) doc ∧
          (∃ s₀ ∈ model.structs, s₀.name = s.name ∧
            s₀.members = s.members.filter (fun m => m.owner.isSchema)) ∧
          ∀ path v, doc.At (path ++ [.field "$ref"]) v →
            (¬ ∃ name, [.field "properties", .field name, .field "default"] <+: path) →
            ∃ file, v = .string file ∧ es.countP (fun e => e.generator == "json_schema" &&
              e.artifact.path == ⟨file⟩) = 1 := by
  obtain ⟨hDistinct, rfl⟩ := Builtin.register_eq_ok_iff.1 hBs
  obtain ⟨hRead, hValid⟩ := Printer.compile_eq_ok h
  have hModel := Printer.consistent_of_readModel hRead
  have hGrows := Builtin.grows_composed bs model
  have hNames := hGrows.names
  have hNodup : (Builtin.composed bs model).names.Nodup := hNames ▸ hModel.names
  refine ⟨Builtin.composed bs model, Builtin.registryOf bs, Builtin.compose_eq_composed bs model,
    fun es hEs s hs => ?_⟩
  obtain ⟨s₀, hs₀, hFrom⟩ := exists_of_mem_right hGrows.structs hs
  have hDeclared := hModel.structs s₀ hs₀
  have hMembers := declaredMembers_of_grows hDeclared hFrom
  have hFile := fun {d} => filter_emitted_file (d := d) hDistinct hb hNodup hEs
  refine ⟨_, rfl, ?_, ?_, ?_, ?_, ?_⟩
  · exact hFile (List.mem_append_left _ (List.mem_map_of_mem hs))
  · exact fun number depth hDepth => JsonValue.readWith?_render number hDepth (by decide)
  · refine describes_ofStruct (Builtin.composed bs model) ?_
    rw [hMembers]
    exact Reader.nodup_members hDeclared
  · exact ⟨s₀, hs₀, hFrom.name.symm, hMembers.symm⟩
  · intro path v hAt hDefault
    obtain ⟨m, hm, file, rfl, hType⟩ :=
      Document.at_ref (hMembers ▸ fun m hm => name_ne_ref hDeclared hm) hAt hDefault
    obtain ⟨n, hn, rfl⟩ := exists_name_of_file? hType
    have hName : n ∈ (Builtin.composed bs model).names :=
      hNames ▸ Printer.mem_names_of_validate hValid hs₀ (hMembers ▸ hm) hn
    rw [← name_documents] at hName
    obtain ⟨d, hd, rfl⟩ := List.mem_map.1 hName
    refine ⟨_, rfl, ?_⟩
    rw [List.countP_eq_length_filter, hFile hd, List.length_singleton]

/-- The document of orders, which refer to themselves through an array. -/
def orderDocument : String :=
  "\x7b\n" ++
  "  \"$schema\": \"https://json-schema.org/draft/2020-12/schema\",\n" ++
  "  \"$id\": \"Order.schema.json\",\n" ++
  "  \"title\": \"Order\",\n" ++
  "  \"additionalProperties\": false,\n" ++
  "  \"properties\": \x7b\n" ++
  "    \"id\": \x7b\n" ++
  "      \"readOnly\": true,\n" ++
  "      \"type\": \"integer\"\n" ++
  "    \x7d,\n" ++
  "    \"parts\": \x7b\n" ++
  "      \"items\": \x7b\n" ++
  "        \"$ref\": \"Order.schema.json\"\n" ++
  "      \x7d,\n" ++
  "      \"type\": \"array\"\n" ++
  "    \x7d\n" ++
  "  \x7d,\n" ++
  "  \"required\": [\n" ++
  "    \"id\"\n" ++
  "  ],\n" ++
  "  \"type\": \"object\"\n" ++
  "\x7d\n"

open JsonSchema in
/-- The key that SQL adds to orders is not described. -/
theorem shop_documents_refer_within :
    compile shopSource = .ok shopModel ∧
      ∃ engine, Builtin.register [.sql {}, .jsonSchema] = .ok engine ∧
        ∃ composed registry es, engine.compose shopModel = (composed, .ok registry) ∧
          engine.emit composed registry = .ok es ∧
          ∃ s ∈ composed.structs, s.name = "Order" ∧ s.hasMember "ShopId" = true ∧
            ∃ doc : JsonValue,
              es.filter (fun e => e.generator == "json_schema" &&
                e.artifact.path == ⟨"Order.schema.json"⟩) =
                  [⟨"json_schema", ⟨"Order.schema.json"⟩, orderDocument⟩] ∧
              JsonValue.read? orderDocument = doc.asRead JsonValue.Numeral.toValue? ∧
              (doc.asRead JsonValue.Numeral.toValue?).isSome = true ∧
              (∀ v, doc.At [.field "required"] v ↔ v = .array [.string "id"]) ∧
              doc.At [.field "properties", .field "parts", .field "items", .field "$ref"]
                (.string "Order.schema.json") ∧
              es.countP (fun e => e.generator == "json_schema" &&
                e.artifact.path == ⟨"Order.schema.json"⟩) = 1 := by
  let bs : List Builtin := [.sql {}, .jsonSchema]
  let parts : Member :=
    { owner := .schema, type := .array (.named "Order"), name := "parts",
      position := some ⟨"<input>", 2, 30⟩ }
  have hBs : Builtin.register bs = .ok ⟨bs.map Builtin.generator⟩ :=
    Builtin.register_eq_ok_iff.2 ⟨by decide, rfl⟩
  obtain ⟨es, hEs⟩ := Builtin.generate_isOk hBs (by simp [bs]) shopModel
  have hOrder : ∃ s ∈ (Builtin.composed bs shopModel).structs, s.name = "Order" ∧
      s.hasMember "ShopId" = true ∧
      s.members.filter (fun m => m.owner.isSchema) = [parts, Member.key] ∧
      (Document.ofStruct (Builtin.composed bs shopModel) s).render = orderDocument ∧
      (Document.ofStruct (Builtin.composed bs shopModel) s).toJson.nesting < JsonValue.maxDepth ∧
      ((Document.ofStruct (Builtin.composed bs shopModel) s).toJson.asRead
        JsonValue.Numeral.toValue?).isSome = true := by
    decide +kernel
  obtain ⟨s, hs, hName, hKey, hMembers, hText, hDepth, hRead⟩ := hOrder
  obtain ⟨composed, registry, hCompose, hAll⟩ := documents_refer_within compile_shopSource hBs
    (List.mem_cons_of_mem _ List.mem_cons_self)
  rw [Engine.generate, hCompose] at hEs
  obtain ⟨rfl, -⟩ := Prod.mk.inj ((Builtin.compose_eq_composed bs shopModel).symm.trans hCompose)
  obtain ⟨doc, hDoc, hFile, hReads, hDescribes, -, hRefs⟩ := hAll es hEs s hs
  rw [Document.render, ← hDoc] at hText
  rw [← hDoc] at hDepth hRead
  rw [hName, hText] at hFile
  rw [hText] at hReads
  rw [hMembers] at hDescribes
  have hAt : doc.At [.field "properties", .field "parts", .field "items", .field "$ref"]
      (.string "Order.schema.json") := by
    obtain ⟨fields, hProperties, hPerm⟩ := hDescribes.properties
    have hField : ("parts", .object [("items", .object [("$ref", .string "Order.schema.json")]),
        ("type", .string "array")]) ∈ fields := hPerm.mem_iff.2 List.mem_cons_self
    have hFront : doc.At [.field "properties"] (.object fields) := (hProperties _).2 rfl
    exact hFront.append ⟨_, hField, _, List.mem_cons_self, _, List.mem_cons_self, rfl⟩
  refine ⟨compile_shopSource, _, hBs, _, _, es, hCompose, hEs, s, hs, hName, hKey, doc, hFile,
    hReads _ _ hDepth, hRead, ?_, hAt, ?_⟩
  · intro v
    rw [hDescribes.required]
    exact and_iff_right ⟨Member.key, by simp, rfl⟩
  · obtain ⟨file, hRef, hCount⟩ := hRefs [.field "properties", .field "parts", .field "items"] _ hAt
      (by
        rintro ⟨name, hPrefix⟩
        simp [List.cons_prefix_cons] at hPrefix)
    obtain rfl := JsonValue.string.inj hRef
    exact hCount

end EntitySchema
