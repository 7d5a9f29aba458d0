import EntitySchema.Compilation
import EntitySchema.Proofs.PrintedTokens

/-!
Reading what was printed. A checked model that is printed and read again is the same model, apart
from the places in the text.
-/

namespace EntitySchema

open Lexer EntitySchema.Derivation Grammar

namespace Printer

/-! ## What a declared entity prints -/

/-- Of a declared struct everything is printed but its key. -/
theorem written_of_declared {model : Model} {s : Struct} {ms : List Member}
    (hs : s.members = ms ++ [Member.key]) (hms : ∀ m ∈ ms, m.Declared model) : written s = ms := by
  have hKeep : ms.filter (fun m => m.owner.isSchema && !m.isOwnKey) = ms := by
    rw [List.filter_eq_self]
    intro m hm
    simp [Member.isOwnKey, (hms m hm).owner, Owner.isSchema, (hms m hm).notKey]
  have hKey : [Member.key].filter (fun m => m.owner.isSchema && !m.isOwnKey) = [] := by decide
  rw [written, hs, List.filter_append, hKeep, hKey, List.append_nil]

theorem declaredValues_of_declared {e : Enumeration} {vs : List EnumValue}
    (he : e.values = vs ++ [⟨unknownName, -1⟩]) (hvs : ∀ v ∈ vs, v.Declared) :
    e.declaredValues = vs := by
  have hKeep : vs.filter (fun v => v.name != unknownName) = vs := by
    rw [List.filter_eq_self]
    intro v hv
    simp [(hvs v hv).notUnknown]
  rw [Enumeration.declaredValues, he, List.filter_append, hKeep]
  simp

theorem mem_printedModifiers {m : Member} {x : Modifier} :
    x ∈ printedModifiers m ↔
      (m.required = true ∧ x = .required true) ∨ (m.unique = true ∧ x = .unique) ∨
      (m.autoIncrement = true ∧ x = .autoIncrement) ∨ (m.primaryKey = true ∧ x = .primaryKey) ∨
      (∃ r, m.reference = some r ∧ .reference r = x) ∨
      (∃ n, m.minItems = some n ∧ .minItems n = x) ∨
      (∃ n, m.maxItems = some n ∧ .maxItems n = x) ∨
      (∃ v, m.defaultValue = some v ∧ .defaultValue v = x) ∨
      (∃ t, m.description = some t ∧ .description t = x) := by
  simp only [printedModifiers, flagModifiers, argumentModifiers, List.mem_append,
    List.mem_ite_nil_right, List.mem_singleton, Option.mem_toList, Option.map_eq_some_iff, or_assoc]

/-- The default value has no comment in it, or is printed in quotes because of the type. -/
def PlainDefault (m : Member) : Prop :=
  m.type.isTextual = false → ∀ v, m.defaultValue = some v → ¬ ['/', '/'] <:+: v.toList

theorem isPrintable_of_declared {model : Model} {m : Member} (hm : m.Declared model)
    (hd : PlainDefault m) : IsPrintable m := by
  refine ⟨fun n hn => (hm.type n hn).1, hm.name, ?_⟩
  intro x hx
  rcases mem_printedModifiers.1 hx with ⟨_, rfl⟩ | ⟨_, rfl⟩ | ⟨_, rfl⟩ | ⟨_, rfl⟩ | ⟨r, hr, rfl⟩ |
    ⟨n, _, rfl⟩ | ⟨n, _, rfl⟩ | ⟨v, hv, rfl⟩ | ⟨t, _, rfl⟩
  · trivial
  · trivial
  · trivial
  · trivial
  · exact hm.reference r hr
  · trivial
  · trivial
  · intro hq
    unfold isQuoted at hq
    rw [Bool.or_eq_false_iff] at hq
    exact hd hq.1 v hv
  · trivial

/-! ## Derivations of printed tokens -/

variable {model : Model}

theorem isType_typeTokens {type : TypeExpr} (h : type.Declared model) :
    IsType typeWords model (typeTokens type) type := by
  induction type with
  | scalar s => exact IsType.scalar rfl (ofKeyword?_keyword s)
  | named name =>
    obtain ⟨hName, hWords, hType⟩ := h name rfl
    exact IsType.named (by simpa [isIdentifier, bare] using hName) hWords hType
  | array element ih =>
    exact IsType.array (by decide) (by decide) (ih h) (by decide)

theorem isDefaultWord_of_plain {value : String} (h : IsPlainWord value.toList) :
    IsDefaultWord (bare value) := by
  have hMark : ∀ c, isPlain c = false → (bare value).is (String.singleton c) = false := by
    intro c hc
    rw [Bool.eq_false_iff]
    intro hIs
    obtain ⟨_, rfl⟩ : _ ∧ value = String.singleton c := Token.is_iff.1 hIs
    simpa [hc] using h.plain c (by simp)
  exact ⟨rfl, hMark ')' (by decide), hMark ';' (by decide)⟩

theorem isModifier_modifierTokens {m : Member} {x : Modifier} (hm : m.Declared model)
    (hd : PlainDefault m) (hx : x ∈ printedModifiers m) :
    IsModifier m.type (modifierTokens m.type x) x := by
  have hWord : ∀ word, (bare word).is word = true := fun word => by simp [Token.is, bare]
  have hArray : ∀ {n : Nat}, m.minItems = some n ∨ m.maxItems = some n → m.type.isArray = true := by
    intro n hn
    by_cases hArray : m.type.isArray = true
    · exact hArray
    · obtain ⟨hMin, hMax⟩ := hm.noBounds (by simpa using hArray)
      simp [hMin, hMax] at hn
  rcases mem_printedModifiers.1 hx with ⟨_, rfl⟩ | ⟨_, rfl⟩ | ⟨_, rfl⟩ | ⟨_, rfl⟩ | ⟨r, hr, rfl⟩ |
    ⟨n, hn, rfl⟩ | ⟨n, hn, rfl⟩ | ⟨v, hv, rfl⟩ | ⟨t, _, rfl⟩
  · exact IsModifier.flag (hWord "required") (by decide)
  · exact IsModifier.flag (hWord "unique") (by decide)
  · exact IsModifier.flag (hWord "auto_increment") (by decide)
  · exact IsModifier.flag (hWord "primary_key") (by decide)
  · obtain ⟨hStruct, hField⟩ := hm.reference r hr
    exact IsModifier.reference (hWord "reference") (by decide)
      (by simpa [isIdentifier, bare] using hStruct) (by decide)
      (by simpa [isIdentifier, bare] using hField) (by decide)
  · exact IsModifier.bound (hWord "min_items") (by simp [boundWords]) (hArray (Or.inl hn))
      (by decide) rfl (Number.readUnsigned_decimal (hm.minItems n hn)) (by decide)
  · exact IsModifier.bound (hWord "max_items") (by simp [boundWords]) (hArray (Or.inr hn))
      (by decide) rfl (Number.readUnsigned_decimal (hm.maxItems n hn)) (by decide)
  · -- A default value without quotes is a single word that is read as it stands.
    by_cases hq : isQuoted m.type v = true
    · have hTokens : modifierTokens m.type (.defaultValue v) =
          [bare "default", mark '(', bare v true, mark ')'] := by
        simp [modifierTokens, modifierParts, hq]
      rw [hTokens]
      exact IsModifier.quotedDefault (hWord "default") (by decide) rfl (by decide)
    · have hTokens : modifierTokens m.type (.defaultValue v) =
          bare "default" :: mark '(' :: ([bare v] ++ [mark ')']) := by
        simp [modifierTokens, modifierParts, hq]
      have hJoined : joined [bare v] = v := by simp [joined, bare]
      have hNeeds : m.type.isTextual = false ∧ needsQuotes v = false := by
        simpa [isQuoted] using hq
      have hPlain := isPlainWord_of_needsQuotes hNeeds.2 (hd hNeeds.1 v hv)
      have hDefault : IsModifier m.type (modifierTokens m.type (.defaultValue v))
          (.defaultValue (joined [bare v])) := by
        rw [hTokens]
        exact IsModifier.wordDefault (hWord "default") (by decide) (by simp)
          (by simpa using isDefaultWord_of_plain hPlain) (by decide)
      rwa [hJoined] at hDefault
  · exact IsModifier.description (hWord "description") (by decide) (by decide)

theorem areModifiers_of {type : TypeExpr} {xs : List Modifier} {tokens : Modifier → List Token}
    (h : ∀ x ∈ xs, IsModifier type (tokens x) x) :
    AreModifiers type (xs.flatMap (fun x => mark ':' :: tokens x)) xs := by
  induction xs with
  | nil => exact AreModifiers.nil
  | cons x xs ih =>
    rw [List.forall_mem_cons] at h
    exact AreModifiers.cons (by decide) h.1 (ih h.2)

theorem foldl_flagModifiers (m : Member) :
    (flagModifiers m).foldl Modifier.apply (bareMember m.type (bare m.name)) =
      { bareMember m.type (bare m.name) with
        required := m.required
        unique := m.unique
        autoIncrement := m.autoIncrement
        primaryKey := m.primaryKey } := by
  unfold flagModifiers
  cases m.required <;> cases m.unique <;> cases m.autoIncrement <;> cases m.primaryKey <;> rfl

/-- The printed modifiers give back the member. -/
theorem foldl_printedModifiers {m : Member} (ho : m.owner = .schema) :
    ((printedModifiers m).foldl Modifier.apply (bareMember m.type (bare m.name))).unplaced =
      m.unplaced := by
  rw [printedModifiers, List.foldl_append, foldl_flagModifiers]
  -- What is not printed is what a member without modifiers has.
  unfold argumentModifiers
  rcases m with ⟨owner, type, name, _, _, _, _, reference, description, value, min, max, _⟩
  obtain rfl : owner = .schema := ho
  cases reference <;> cases min <;> cases max <;> cases value <;> cases description <;> rfl

theorem isMember_memberTokens {m : Member} (hm : m.Declared model) (hd : PlainDefault m) :
    ∃ m', IsMember typeWords model (memberTokens m) m' ∧ m'.unplaced = m.unplaced := by
  refine ⟨_, IsMember.intro (isType_typeTokens hm.type) (by decide)
    (by simpa [isIdentifier, bare] using hm.name) hm.notKey
    (areModifiers_of (fun x hx => isModifier_modifierTokens hm hd hx)) (by decide), ?_⟩
  exact foldl_printedModifiers hm.owner

theorem areMembers_memberTokens {ms : List Member} (hms : ∀ m ∈ ms, m.Declared model)
    (hd : ∀ m ∈ ms, PlainDefault m) :
    ∃ ms', AreMembers typeWords model (ms.flatMap memberTokens) ms' ∧
      ms'.map Member.unplaced = ms.map Member.unplaced := by
  induction ms with
  | nil => exact ⟨[], AreMembers.nil, rfl⟩
  | cons m ms ih =>
    rw [List.forall_mem_cons] at hms hd
    obtain ⟨m', hm', hSame⟩ := isMember_memberTokens hms.1 hd.1
    obtain ⟨ms', hms', hSames⟩ := ih hms.2 hd.2
    exact ⟨m' :: ms', AreMembers.cons hm' hms', by simp [hSame, hSames]⟩

theorem isNewName_bareWord {name : String} (hn : isName name) (hr : isReserved name = false)
    (hd : name ∉ model.names) : IsNewName model (bare name) := by
  refine ⟨by simpa [isIdentifier, bare] using hn, hr, ?_⟩
  rw [Bool.eq_false_iff, Ne, Model.isDeclared_iff]
  exact hd

theorem isStruct_structTokens {s : Struct} (hs : s.Declared model) (hNew : s.name ∉ model.names)
    (hd : ∀ m ∈ s.members, PlainDefault m) :
    ∃ s', IsStruct typeWords model (structTokens s) s' ∧ s'.unplaced = s.unplaced := by
  obtain ⟨ms, hMembers, hms, hDistinct⟩ := hs.members
  have hAll : s.members = ms ++ [Member.key] := by rw [hMembers]
  obtain ⟨ms', hms', hSame⟩ :=
    areMembers_memberTokens hms (fun m hm => hd m (by simp [hAll, hm]))
  have hNames : ms'.map Member.name = ms.map Member.name := by
    rw [← map_name_unplaced, hSame, map_name_unplaced]
  have hStruct : IsStruct typeWords model
      (bare "struct" :: bare s.name :: mark '\x7b' ::
        (ms.flatMap memberTokens ++ mark '\x7d' :: [])) _ :=
    IsStruct.intro (by decide) (isNewName_bareWord hs.name hs.notReserved hNew) (by decide) hms'
      (hNames ▸ hDistinct) (by decide) (Or.inl rfl)
  have hTokens : structTokens s = bare "struct" :: bare s.name :: mark '\x7b' ::
      (ms.flatMap memberTokens ++ mark '\x7d' :: []) := by
    rw [structTokens, blockTokens, written_of_declared hAll hms]
  rw [hTokens]
  refine ⟨_, hStruct, ?_⟩
  conv => rhs; rw [hMembers]
  simp [Struct.unplaced, hSame, bare]

theorem areValues_valueTokens {vs : List EnumValue} (hvs : ∀ v ∈ vs, v.Declared)
    (last : Option Int) : AreValues last (vs.flatMap valueTokens) vs := by
  induction vs generalizing last with
  | nil => exact AreValues.nil
  | cons v vs ih =>
    rw [List.forall_mem_cons] at hvs
    have hv : IsValue last [bare v.name, mark '=', bare (Number.signedDecimal v.value)] v :=
      IsValue.explicit (by simpa [isIdentifier, bare] using hvs.1.name) hvs.1.notUnknown
        (by decide) rfl (Number.readSigned_signedDecimal hvs.1.least hvs.1.greatest)
    exact AreValues.cons hv (by decide : (mark ',').is ",") (ih hvs.2 _)

theorem isEnum_enumTokens {e : Enumeration} (he : e.Declared) (hNew : e.name ∉ model.names) :
    ∃ e', IsEnum model (enumTokens e) e' ∧ e'.unplaced = e.unplaced := by
  obtain ⟨vs, hValues, hvs, hDistinct⟩ := he.values
  -- Every value is printed with its number, so none depends on the one before it.
  have hEnum : IsEnum model
      (bare "enum" :: bare e.name :: mark '\x7b' ::
        (vs.flatMap valueTokens ++ mark '\x7d' :: [])) _ :=
    IsEnum.intro (by decide) (isNewName_bareWord he.name he.notReserved hNew) (by decide)
      (areValues_valueTokens hvs none) hDistinct (by decide) (Or.inl rfl)
  have hTokens : enumTokens e = bare "enum" :: bare e.name :: mark '\x7b' ::
      (vs.flatMap valueTokens ++ mark '\x7d' :: []) := by
    rw [enumTokens, blockTokens, declaredValues_of_declared hValues hvs]
  rw [hTokens]
  exact ⟨_, hEnum, by simp [Enumeration.unplaced, hValues, bare]⟩

/-! ## Derivations of printed models -/

theorem admits_refl (model : Model) (ts : List Token) : Admits model model ts :=
  ⟨fun _ _ h => h, fun _ _ h => h⟩

theorem enumName_eq_of_unplaced {e e' : Enumeration} (h : e'.unplaced = e.unplaced) :
    e'.name = e.name := by
  simpa using congrArg Enumeration.name h

theorem structName_eq_of_unplaced {s s' : Struct} (h : s'.unplaced = s.unplaced) :
    s'.name = s.name := by
  simpa using congrArg Struct.name h

/-- Printed enums, wherever their tokens stand, in front of anything else. -/
theorem isSchema_enums {es : List Enumeration} {us : List Token} (he : ∀ e ∈ es, e.Declared)
    (hNew : ∀ e ∈ es, e.name ∉ model.names) (hDistinct : (es.map Enumeration.name).Nodup)
    (hs : SameText (es.flatMap enumTokens) us) :
    ∃ es' : List Enumeration, es'.map Enumeration.unplaced = es.map Enumeration.unplaced ∧
      ∀ rest final, IsSchema typeWords (es'.foldl Model.declareEnum model) rest final →
        IsSchema typeWords model (us ++ rest) final := by
  induction es generalizing model us with
  | nil =>
    cases hs
    exact ⟨[], rfl, fun _ _ h => h⟩
  | cons e es ih =>
    rw [List.forall_mem_cons] at he hNew
    rw [List.map_cons, List.nodup_cons] at hDistinct
    obtain ⟨used, others, rfl, hUsed, hOthers⟩ := hs.append_left
    -- The bare tokens derive the enum, and so do those at the places where they were read.
    obtain ⟨e0, he0, hSame0⟩ := isEnum_enumTokens he.1 hNew.1
    obtain ⟨e', he', hSame'⟩ := he0.congr hUsed (admits_refl model _)
    have hSame := hSame'.trans hSame0
    have hRest : ∀ d ∈ es, d.name ∉ (model.declareEnum e').names := by
      intro d hd
      rw [Model.mem_names_declareEnum, enumName_eq_of_unplaced hSame]
      rintro (hMem | hName)
      · exact hNew.2 d hd hMem
      · exact hDistinct.1 (hName ▸ List.mem_map_of_mem hd)
    obtain ⟨es', hSames, hSchema⟩ := ih he.2 hRest hDistinct.2 hOthers
    refine ⟨e' :: es', by simp [hSame, hSames], ?_⟩
    intro rest final h
    rw [List.append_assoc]
    exact IsSchema.enumeration he' (hSchema rest final h)

/-- Printed structs, wherever their tokens stand. -/
theorem isSchema_structs {ss : List Struct} {us : List Token} (hs : ∀ s ∈ ss, s.Declared model)
    (hd : ∀ s ∈ ss, ∀ m ∈ s.members, PlainDefault m) (hNew : ∀ s ∈ ss, s.name ∉ model.names)
    (hDistinct : (ss.map Struct.name).Nodup) (hText : SameText (ss.flatMap structTokens) us) :
    ∃ ss' : List Struct, ss'.map Struct.unplaced = ss.map Struct.unplaced ∧
      IsSchema typeWords model us (ss'.foldl Model.declareStruct model) := by
  induction ss generalizing model us with
  | nil =>
    cases hText
    exact ⟨[], rfl, IsSchema.nil⟩
  | cons s ss ih =>
    rw [List.forall_mem_cons] at hs hd hNew
    rw [List.map_cons, List.nodup_cons] at hDistinct
    obtain ⟨used, others, rfl, hUsed, hOthers⟩ := hText.append_left
    obtain ⟨s0, hs0, hSame0⟩ := isStruct_structTokens hs.1 hNew.1 hd.1
    obtain ⟨s', hs', hSame'⟩ := hs0.congr hUsed (admits_refl model _)
    have hSame := hSame'.trans hSame0
    have hRest : ∀ t ∈ ss, t.name ∉ (model.declareStruct s').names := by
      intro t ht
      rw [Model.mem_names_declareStruct, structName_eq_of_unplaced hSame]
      rintro (hMem | hName)
      · exact hNew.2 t ht hMem
      · exact hDistinct.1 (hName ▸ List.mem_map_of_mem ht)
    -- A declaration takes no name away, so the types of the other structs are still known.
    have hDeclared : ∀ t ∈ ss, t.Declared (model.declareStruct s') :=
      fun t ht => (hs.2 t ht).mono (Model.declareStruct_extends model s')
    obtain ⟨ss', hSames, hSchema⟩ := ih hDeclared hd.2 hRest hDistinct.2 hOthers
    exact ⟨s' :: ss', by simp [hSame, hSames], IsSchema.struct hs' hSchema⟩

theorem foldl_declareEnum (es : List Enumeration) (model : Model) :
    (es.foldl Model.declareEnum model).structs = model.structs ∧
      (es.foldl Model.declareEnum model).enums = model.enums ++ es ∧
      (∀ n ∈ (es.foldl Model.declareEnum model).pending, n ∈ model.pending) ∧
      model.Extends (es.foldl Model.declareEnum model) := by
  induction es generalizing model with
  | nil => simp [Model.Extends.refl]
  | cons e es ih =>
    obtain ⟨hStructs, hEnums, hPending, hExtends⟩ := ih (model.declareEnum e)
    refine ⟨hStructs, by rw [List.foldl_cons, hEnums]; simp [Model.declareEnum], ?_,
      (Model.declareEnum_extends model e).trans hExtends⟩
    intro n hn
    exact (List.mem_filter.1 (hPending n hn)).1

theorem foldl_declareStruct (ss : List Struct) (model : Model) :
    (ss.foldl Model.declareStruct model).structs = model.structs ++ ss ∧
      (ss.foldl Model.declareStruct model).enums = model.enums ∧
      ∀ n ∈ (ss.foldl Model.declareStruct model).pending, n ∈ model.pending := by
  induction ss generalizing model with
  | nil => simp
  | cons s ss ih =>
    obtain ⟨hStructs, hEnums, hPending⟩ := ih (model.declareStruct s)
    refine ⟨by rw [List.foldl_cons, hStructs]; simp [Model.declareStruct], hEnums, ?_⟩
    intro n hn
    exact (List.mem_filter.1 (hPending n hn)).1

/-! ## The names that printed models announce -/

/-- The names that follow `struct` or `enum`. -/
def announcedNames : List Token → List String
  | t :: name :: rest =>
    (if (t.is "struct" || t.is "enum") && isIdentifier name then [name.text] else []) ++
      announcedNames (name :: rest)
  | _ => []

theorem announceTokens_eq (model : Model) (ts : List Token) :
    Reader.announceTokens model ts = (announcedNames ts).foldl Model.announce model := by
  fun_induction announcedNames ts generalizing model with
  | case1 t name rest ih =>
    rw [Reader.announceTokens, ih, List.foldl_append]
    split <;> rfl
  | case2 ts hShort =>
    rw [Reader.announceTokens]
    · rfl
    · exact hShort

theorem announcedNames_congr {ts us : List Token} (h : SameText ts us) :
    announcedNames us = announcedNames ts := by
  induction h with
  | nil => rfl
  | cons p h ih =>
    cases h with
    | nil => rfl
    | cons q h =>
      simp only [announcedNames] at ih ⊢
      rw [ih]
      rfl

/-- No name follows a keyword across a token that is no name. -/
theorem announcedNames_separator {t : Token} (ht : isIdentifier t = false)
    (front back : List Token) :
    announcedNames (front ++ t :: back) = announcedNames front ++ announcedNames back := by
  have hWord : ∀ word, isName word → t.is word = false := by
    intro word hName
    rw [Bool.eq_false_iff]
    intro hIs
    obtain ⟨hBare, rfl⟩ := Token.is_iff.1 hIs
    simp [isIdentifier, hBare, hName] at ht
  have hStart : announcedNames (t :: back) = announcedNames back := by
    cases back with
    | nil => rfl
    | cons next back =>
      simp [announcedNames, hWord "struct" (by decide), hWord "enum" (by decide)]
  -- Two tokens of the front stay neighbours; only its last one gets a new neighbour.
  fun_induction announcedNames front with
  | case1 u name rest ih =>
    rw [List.cons_append, List.cons_append, announcedNames, ← List.cons_append, ih,
      List.append_assoc]
  | case2 front hShort =>
    rcases front with _ | ⟨u, _ | ⟨name, rest⟩⟩
    · exact hStart
    · simp [announcedNames, ht, hStart]
    · exact (hShort u name rest rfl).elim

theorem announcedNames_typeTokens (type : TypeExpr) : announcedNames (typeTokens type) = [] := by
  induction type with
  | scalar s => rfl
  | named name => rfl
  | array element ih =>
    have hTokens : typeTokens (.array element) =
        [bare "array"] ++ mark '<' :: (typeTokens element ++ mark '>' :: []) := rfl
    rw [hTokens, announcedNames_separator (by decide), announcedNames_separator (by decide), ih]
    rfl

theorem announcedNames_modifierTokens (type : TypeExpr) (x : Modifier) :
    announcedNames (modifierTokens type x) = [] := by
  have hArgument : ∀ (keyword : String) (ts : List Token), announcedNames ts = [] →
      announcedNames (bare keyword :: mark '(' :: (ts ++ [mark ')'])) = [] := by
    intro keyword ts hts
    have hTokens : bare keyword :: mark '(' :: (ts ++ [mark ')']) =
        [bare keyword] ++ mark '(' :: (ts ++ mark ')' :: []) := rfl
    rw [hTokens, announcedNames_separator (by decide), announcedNames_separator (by decide), hts]
    rfl
  cases x with
  | required on => cases on <;> rfl
  | unique | autoIncrement | primaryKey => rfl
  | minItems n | maxItems n | description text | defaultValue value => exact hArgument _ [_] rfl
  | reference r =>
    refine hArgument _ ([bare r.struct] ++ mark '.' :: [bare r.field]) ?_
    rw [announcedNames_separator (by decide)]
    rfl

/-- Parts that each have a colon in front announce nothing if none of them does. -/
theorem announcedNames_modifiers (type : TypeExpr) (xs : List Modifier) {front : List Token}
    (hf : announcedNames front = []) :
    announcedNames (front ++ xs.flatMap (fun x => mark ':' :: modifierTokens type x)) = [] := by
  induction xs generalizing front with
  | nil => simpa using hf
  | cons x xs ih =>
    rw [List.flatMap_cons, List.cons_append, announcedNames_separator (by decide), hf,
      ih (announcedNames_modifierTokens type x)]
    rfl

theorem announcedNames_memberTokens (m : Member) (back : List Token) :
    announcedNames (memberTokens m ++ back) = announcedNames back := by
  have hTokens : memberTokens m ++ back = typeTokens m.type ++ mark ':' ::
      (([bare m.name] ++
        (printedModifiers m).flatMap (fun x => mark ':' :: modifierTokens m.type x)) ++
          mark ';' :: back) := by
    simp [memberTokens]
  rw [hTokens, announcedNames_separator (by decide), announcedNames_separator (by decide),
    announcedNames_typeTokens, announcedNames_modifiers m.type _ rfl]
  rfl

theorem announcedNames_valueTokens (v : EnumValue) (back : List Token) :
    announcedNames (valueTokens v ++ back) = announcedNames back := by
  have hTokens : valueTokens v ++ back = [bare v.name] ++ mark '=' ::
      ([bare (Number.signedDecimal v.value)] ++ mark ',' :: back) := rfl
  rw [hTokens, announcedNames_separator (by decide), announcedNames_separator (by decide)]
  rfl

theorem announcedNames_flatMap {α : Type} {tokens : α → List Token} {names : α → List String}
    {items : List α} (h : ∀ a ∈ items, ∀ back,
      announcedNames (tokens a ++ back) = names a ++ announcedNames back) (back : List Token) :
    announcedNames (items.flatMap tokens ++ back) = items.flatMap names ++ announcedNames back := by
  induction items with
  | nil => rfl
  | cons a items ih =>
    rw [List.forall_mem_cons] at h
    rw [List.flatMap_cons, List.append_assoc, h.1, ih h.2, List.flatMap_cons, List.append_assoc]

/-- A block announces its name, if what it holds announces nothing. -/
theorem announcedNames_blockTokens {α : Type} {keyword name : String} {tokens : α → List Token}
    {items : List α} (hk : keyword = "struct" ∨ keyword = "enum") (hn : isName name)
    (h : ∀ a back, announcedNames (tokens a ++ back) = announcedNames back) (back : List Token) :
    announcedNames (blockTokens keyword name tokens items ++ back) =
      [name] ++ announcedNames back := by
  have hTokens : blockTokens keyword name tokens items ++ back =
      [bare keyword, bare name] ++ mark '\x7b' ::
        (items.flatMap tokens ++ mark '\x7d' :: back) := by
    simp [blockTokens]
  have hItems : announcedNames (items.flatMap tokens ++ []) =
      items.flatMap (fun _ => []) ++ announcedNames [] :=
    announcedNames_flatMap (fun a _ back => h a back) []
  have hNone : items.flatMap (fun _ => ([] : List String)) = [] := by
    simp [List.flatMap_eq_nil_iff]
  have hHead : announcedNames [bare keyword, bare name] = [name] := by
    rcases hk with rfl | rfl <;> simp [announcedNames, Token.is, isIdentifier, bare, hn]
  rw [hTokens, announcedNames_separator (by decide), announcedNames_separator (by decide), hHead]
  simpa [hNone, announcedNames] using hItems

/-- A printed model announces the names of its entities. -/
theorem announcedNames_modelTokens {model : Model} (hModel : model.Consistent) :
    announcedNames (modelTokens model) =
      model.enums.map Enumeration.name ++ model.structs.map Struct.name := by
  have hEnums : ∀ e ∈ model.enums, ∀ back,
      announcedNames (enumTokens e ++ back) = [e.name] ++ announcedNames back :=
    fun e he => announcedNames_blockTokens (Or.inr rfl) (hModel.enums e he).name
      announcedNames_valueTokens
  have hStructs : ∀ s ∈ model.structs, ∀ back,
      announcedNames (structTokens s ++ back) = [s.name] ++ announcedNames back :=
    fun s hs => announcedNames_blockTokens (Or.inl rfl) (hModel.structs s hs).name
      announcedNames_memberTokens
  have hLast := announcedNames_flatMap hStructs []
  rw [List.append_nil] at hLast
  rw [modelTokens, announcedNames_flatMap hEnums, hLast]
  simp [announcedNames, List.map_eq_flatMap]

theorem foldl_announce (ns : List String) (model : Model) :
    (ns.foldl Model.announce model).structs = model.structs ∧
      (ns.foldl Model.announce model).enums = model.enums ∧
      ∀ n, n ∈ (ns.foldl Model.announce model).pending ↔
        n ∈ model.pending ∨ n ∈ ns ∧ n ∉ model.names := by
  induction ns generalizing model with
  | nil => simp
  | cons name ns ih =>
    -- Announcing changes the pending names only, so all is said of the first model.
    obtain ⟨hStructs, hEnums, hPending⟩ := ih (model.announce name)
    have hNames : (model.announce name).names = model.names := by
      unfold Model.announce
      split <;> rfl
    have hStep : ∀ n, n ∈ (model.announce name).pending ↔
        n ∈ model.pending ∨ n = name ∧ n ∉ model.names := by
      intro n
      unfold Model.announce
      split
      · rename_i hDeclared
        rw [Model.isDeclared_iff] at hDeclared
        grind
      · rename_i hNew
        rw [Model.isDeclared_iff] at hNew
        rw [Model.mem_insertName]
        grind
    refine ⟨hStructs.trans ?_, hEnums.trans ?_, ?_⟩
    · unfold Model.announce
      split <;> rfl
    · unfold Model.announce
      split <;> rfl
    · intro n
      rw [List.foldl_cons, hPending, hStep, hNames, List.mem_cons, or_assoc, or_and_right]

/-! ## Checked models -/

/-- In a checked model every type is made of scalars and of its own entities. -/
theorem mem_names_of_validate {model : Model} (h : model.validate = .ok ()) {s : Struct}
    (hs : s ∈ model.structs) {m : Member} (hm : m ∈ s.members) {n : String}
    (hn : m.type.innermostName? = some n) : n ∈ model.names := by
  obtain ⟨_, hMembers, _⟩ := bind_eq_ok_iff.1 h
  have hMember : Rules.checkMember model s m = .ok () :=
    forM_eq_ok_iff.1 (forM_eq_ok_iff.1 hMembers s hs) m hm
  obtain ⟨_, _, hRest⟩ := bind_eq_ok_iff.1 hMember
  obtain ⟨_, hType, _⟩ := bind_eq_ok_iff.1 hRest
  unfold Rules.checkType at hType
  rw [hn] at hType
  by_cases hDeclared : model.isDeclared n
  · exact Model.isDeclared_iff.1 hDeclared
  · simp [hDeclared] at hType

/-- A struct stays declared in a model that has names for its types. -/
theorem declared_of_types {model' : Model} {s : Struct} (h : s.Declared model)
    (hTypes : ∀ m ∈ s.members, ∀ n, m.type.innermostName? = some n → model'.isTypeName n) :
    s.Declared model' := by
  obtain ⟨ms, hs, hms, hDistinct⟩ := h.members
  refine { h with members := ⟨ms, hs, fun m hm => (hms m hm).of_types (hTypes m ?_), hDistinct⟩ }
  rw [hs]
  exact List.mem_append_left _ hm

theorem compile_eq_ok {source : String} {files : FileSystem}
    (h : compile source files = .ok model) :
    readModel source files = .ok model ∧ model.validate = .ok () := by
  unfold compile checked at h
  split at h
  · cases h
  · rename_i read hRead
    split at h
    · cases h
    · rename_i hValid
      obtain rfl := Except.ok.inj h
      exact ⟨hRead, hValid⟩

theorem consistent_of_readModel {source : String} {files : FileSystem}
    (h : readModel source files = .ok model) : model.Consistent := by
  have hEmpty : ({} : Reader).AtRest := ⟨rfl, Model.Consistent.empty⟩
  have hRead := (hEmpty.perform files (.source source inputName)).1.model
  unfold readModel at h
  simp only [Reader.Call.perform] at hRead
  split at h
  · rename_i r hr
    rw [hr] at hRead
    obtain rfl := Except.ok.inj h
    exact hRead
  · cases h

theorem readModel_of_isSchema {text : String} {us : List Token} {final : Model}
    (hLex : tokenize inputName.text text = .ok us)
    (h : IsSchema typeWords (Reader.announceTokens {} us) us final) (files : FileSystem) :
    readModel text files = .ok final := by
  have hWords : WordsNonempty us := tokensFrom_wordsNonempty hLex
  have hRead : Reader.declarations (Reader.inclusionIn files) inputName
      { model := Reader.announceTokens {} us } us = ({ model := final }, .ok ()) :=
    Reader.declarations_complete (r := {}) h hWords
  unfold readModel Reader.readSource Reader.sourceWith
  rw [hLex]
  simp only [hRead]

/-! ## Printing ignores positions -/

theorem written_unplaced (s : Struct) : written s.unplaced = (written s).map Member.unplaced := by
  simp only [written, Struct.unplaced, List.filter_map]
  rfl

theorem struct_unplaced (layout : Text.Layout) (s : Struct) :
    Printer.struct layout s.unplaced = Printer.struct layout s := by
  simp only [Printer.struct, written_unplaced, List.map_map]
  rfl

theorem renderWith_congr {model' : Model} (layout : Text.Layout)
    (hStructs : model'.structs.map Struct.unplaced = model.structs.map Struct.unplaced)
    (hEnums : model'.enums.map Enumeration.unplaced = model.enums.map Enumeration.unplaced) :
    model'.renderWith layout = model.renderWith layout := by
  have hs : ∀ ss : List Struct,
      ss.map (Printer.struct layout) = (ss.map Struct.unplaced).map (Printer.struct layout) := by
    intro ss
    simp [struct_unplaced]
  have he : ∀ es : List Enumeration, es.map (enumeration layout) =
      (es.map Enumeration.unplaced).map (enumeration layout) := by
    intro es
    rw [List.map_map]
    rfl
  rw [Model.renderWith, hs, he, hStructs, hEnums, ← hs, ← he, Model.renderWith]

/-! ## The round trip -/

theorem lexes_of_consistent (hModel : model.Consistent)
    (hd : ∀ s ∈ model.structs, ∀ m ∈ s.members, PlainDefault m) (layout : Text.Layout) :
    Lexes (model.renderWith layout).toList (modelTokens model) := by
  apply lexes_model layout
  · intro e he
    obtain ⟨vs, hValues, hvs, _⟩ := (hModel.enums e he).values
    rw [declaredValues_of_declared hValues hvs]
    exact ⟨(hModel.enums e he).name, fun v hv => (hvs v hv).name⟩
  · intro s hs
    obtain ⟨ms, hMembers, hms, _⟩ := (hModel.structs s hs).members
    have hAll : s.members = ms ++ [Member.key] := by rw [hMembers]
    rw [written_of_declared hAll hms]
    refine ⟨(hModel.structs s hs).name, fun m hm => isPrintable_of_declared (hms m hm) ?_⟩
    exact hd s hs m (by simp [hAll, hm])

/-- The names of a printed model are announced before anything is declared. -/
theorem announceTokens_modelTokens (hModel : model.Consistent) {us : List Token}
    (hText : SameText (modelTokens model) us) :
    (Reader.announceTokens {} us).structs = [] ∧ (Reader.announceTokens {} us).enums = [] ∧
      ∀ n, n ∈ (Reader.announceTokens {} us).pending ↔ n ∈ model.names := by
  rw [announceTokens_eq, announcedNames_congr hText, announcedNames_modelTokens hModel]
  obtain ⟨hStructs, hEnums, hPending⟩ :=
    foldl_announce (model.enums.map Enumeration.name ++ model.structs.map Struct.name) {}
  refine ⟨hStructs, hEnums, fun n => ?_⟩
  rw [hPending]
  simp [Model.names, or_comm]

/-- The tokens of a printed model derive the model again. Every type is announced at the start, so
it does not matter that an entity is printed before those that it uses. -/
theorem isSchema_modelTokens {start : Model} (hModel : model.Consistent)
    (hd : ∀ s ∈ model.structs, ∀ m ∈ s.members, PlainDefault m)
    (hStructs : start.structs = []) (hEnums : start.enums = [])
    (hTypes : ∀ s ∈ model.structs, ∀ m ∈ s.members, ∀ n, m.type.innermostName? = some n →
      start.isTypeName n)
    {us : List Token} (hText : SameText (modelTokens model) us) :
    ∃ final, IsSchema typeWords start us final ∧
      final.structs.map Struct.unplaced = model.structs.map Struct.unplaced ∧
      final.enums.map Enumeration.unplaced = model.enums.map Enumeration.unplaced ∧
      ∀ n ∈ final.pending, n ∈ start.pending := by
  obtain ⟨hStructNames, hEnumNames, hApart⟩ := List.nodup_append.1 hModel.names
  obtain ⟨front, back, rfl, hFront, hBack⟩ := hText.append_left
  have hFree : ∀ e ∈ model.enums, e.name ∉ start.names := by
    simp [Model.names, hStructs, hEnums]
  obtain ⟨es, hes, hSchema⟩ := isSchema_enums hModel.enums hFree hEnumNames hFront
  obtain ⟨hStructs1, hEnums1, hPending1, hExtends⟩ := foldl_declareEnum es start
  have hNew : ∀ s ∈ model.structs, s.name ∉ (es.foldl Model.declareEnum start).names := by
    intro s hs hMem
    have hNames : es.map Enumeration.name = model.enums.map Enumeration.name := by
      simpa [Function.comp_def] using congrArg (List.map Enumeration.name) hes
    simp only [Model.names, hStructs1, hEnums1, hStructs, hEnums, List.map_nil, List.nil_append,
      hNames] at hMem
    exact hApart s.name (List.mem_map_of_mem hs) s.name hMem rfl
  have hDeclared : ∀ s ∈ model.structs, s.Declared (es.foldl Model.declareEnum start) :=
    fun s hs => declared_of_types (hModel.structs s hs)
      (fun m hm n hn => hExtends.typeNames n (hTypes s hs m hm n hn))
  obtain ⟨ss, hss, hSchema2⟩ := isSchema_structs hDeclared hd hNew hStructNames hBack
  obtain ⟨hStructs2, hEnums2, hPending2⟩ :=
    foldl_declareStruct ss (es.foldl Model.declareEnum start)
  refine ⟨_, hSchema _ _ hSchema2, ?_, ?_, fun n hn => hPending1 n (hPending2 n hn)⟩
  · rw [hStructs2, hStructs1, hStructs, List.nil_append, hss]
  · rw [hEnums2, hEnums1, hEnums, List.nil_append, hes]

theorem names_congr {model' : Model}
    (hStructs : model'.structs.map Struct.unplaced = model.structs.map Struct.unplaced)
    (hEnums : model'.enums.map Enumeration.unplaced = model.enums.map Enumeration.unplaced) :
    model'.names = model.names := by
  have hs := congrArg (List.map Struct.name) hStructs
  have he := congrArg (List.map Enumeration.name) hEnums
  simp only [List.map_map, Function.comp_def, Struct.unplaced_name, Enumeration.unplaced_name]
    at hs he
  rw [Model.names, hs, he, Model.names]

end Printer

open Printer

/-- Printing a checked schema and reading the text gives the schema again, in the same order and
with nothing left to declare. Only positions differ, so that printing again gives the same text.
How wide a text is, and how far lines are indented, does not matter, and the text includes no files.
-/
theorem readModel_renderWith {source : String} {files : FileSystem} {model : Model}
    (h : compile source files = .ok model)
    (hd : ∀ s ∈ model.structs, ∀ m ∈ s.members, m.type.isTextual = false →
      ∀ v, m.defaultValue = some v → ¬ ['/', '/'] <:+: v.toList)
    (layout : Text.Layout) :
    ∃ model', (∀ others : FileSystem, readModel (model.renderWith layout) others = .ok model') ∧
      model'.structs.map Struct.unplaced = model.structs.map Struct.unplaced ∧
      model'.enums.map Enumeration.unplaced = model.enums.map Enumeration.unplaced ∧
      model'.pending = [] ∧ model'.renderWith layout = model.renderWith layout := by
  obtain ⟨hRead, hValid⟩ := compile_eq_ok h
  have hModel := consistent_of_readModel hRead
  -- From the text to its tokens, and from the tokens to a derivation.
  obtain ⟨us, hLex, hText⟩ := lexes_of_consistent hModel hd layout inputName.text .start
  obtain ⟨hStructs, hEnums, hPending⟩ := announceTokens_modelTokens hModel hText
  have hTypes : ∀ s ∈ model.structs, ∀ m ∈ s.members, ∀ n, m.type.innermostName? = some n →
      (Reader.announceTokens {} us).isTypeName n := by
    intro s hs m hm n hn
    rw [Model.isTypeName_iff, hPending]
    exact Or.inr (mem_names_of_validate hValid hs hm hn)
  obtain ⟨model', hSchema, hSameStructs, hSameEnums, hLeft⟩ :=
    isSchema_modelTokens hModel hd hStructs hEnums hTypes hText
  have hAgain := readModel_of_isSchema hLex hSchema
  refine ⟨model', hAgain, hSameStructs, hSameEnums, ?_,
    renderWith_congr layout hSameStructs hSameEnums⟩
  -- A pending name was announced by the text, and all that it announces is declared.
  refine List.eq_nil_iff_forall_not_mem.2 (fun n hn => ?_)
  refine (consistent_of_readModel (hAgain {})).pending n hn ?_
  rw [names_congr hSameStructs hSameEnums, ← hPending]
  exact hLeft n hn

/-- Keywords as names, an enum used before its declaration, a comment and a quote inside a text. -/
def sampleSource : String :=
  "struct Item \x7b array<Shape>: struct: max_items(3);\n" ++
  "string: enum: default(\"a // \\\"\"); Item: x: reference(Item.id);\n" ++
  "int8: y: default(- 3); \x7d enum Shape \x7b A, \x7d"

def sampleModel : Model where
  structs := [
    { name := "Item"
      position := some ⟨"<input>", 1, 8⟩
      members := [
        { owner := .schema, type := .array (.named "Shape"), name := "struct",
          maxItems := some 3, position := some ⟨"<input>", 1, 29⟩ },
        { owner := .schema, type := .scalar .string, name := "enum", defaultValue := some "a // \"",
          position := some ⟨"<input>", 2, 9⟩ },
        { owner := .schema, type := .named "Item", name := "x", reference := some ⟨"Item", "id"⟩,
          position := some ⟨"<input>", 2, 41⟩ },
        { owner := .schema, type := .scalar .int8, name := "y", defaultValue := some "-3",
          position := some ⟨"<input>", 3, 7⟩ },
        Member.key] }]
  enums := [
    { name := "Shape", position := some ⟨"<input>", 3, 31⟩,
      values := [⟨"A", 0⟩, ⟨"Unknown", -1⟩] }]

theorem compile_sampleSource : compile sampleSource = .ok sampleModel := by
  have hSome : (compile sampleSource).toOption = some sampleModel := by decide +kernel
  cases hRead : compile sampleSource with
  | error e => simp [hRead, Except.toOption] at hSome
  | ok model =>
    rw [hRead] at hSome
    exact congrArg Except.ok (Option.some.inj hSome)

theorem sampleModel_readAgain :
    compile sampleSource = .ok sampleModel ∧
      ∃ model', (∀ others : FileSystem, readModel sampleModel.render others = .ok model') ∧
        model'.structs.map Struct.unplaced = sampleModel.structs.map Struct.unplaced ∧
        model'.enums.map Enumeration.unplaced = sampleModel.enums.map Enumeration.unplaced ∧
        model'.pending = [] ∧ model'.render = sampleModel.render := by
  have hPlain : ∀ s ∈ sampleModel.structs, ∀ m ∈ s.members, m.type.isTextual = false →
      ∀ v ∈ m.defaultValue, ¬ ['/', '/'] <:+: v.toList := by
    decide +kernel
  exact ⟨compile_sampleSource, readModel_renderWith compile_sampleSource hPlain Printer.layout⟩

end EntitySchema
