import EntitySchema.Proofs.Recognition.Entity

/-!
Reading the declarations of a file follows the grammar. The main result is that tokens without
inclusions are read without an error exactly if they derive from the grammar, and that what they
derive is the model that reading ends with.
-/

namespace EntitySchema

open EntitySchema.Derivation

variable {model : Model} {ts rest used : List Token}

/-! ## Single declarations -/

namespace Grammar

/-- Reading a block to its end passes a balanced part and the brace that closes it. With more braces
open, what follows that brace is read to the end as well. -/
theorem configRest_sound {depth : Nat} {ts rest : List Token}
    (h : configRest depth ts = .ok rest) :
    ∃ body right after, ts = body ++ right :: after ∧ Balanced body ∧ right.is "\x7d" ∧
      ((depth = 0 ∧ after = rest) ∨ ∃ d, depth = d + 1 ∧ configRest d after = .ok rest) := by
  cases ts with
  | nil => simp [configRest] at h
  | cons t ts =>
    unfold configRest at h
    split at h
    · rename_i ht
      -- The brace opened here is closed first, and then the one that was open before.
      obtain ⟨inner, close, after, rfl, hInner, hClose, hAfter⟩ := configRest_sound h
      obtain ⟨d, hd, hAfter⟩ := hAfter.resolve_left (by simp)
      obtain rfl : depth = d := by omega
      obtain ⟨body, right, last, rfl, hBody, hr, hLast⟩ := configRest_sound hAfter
      exact ⟨t :: (inner ++ close :: body), right, last, by simp,
        Balanced.block ht hInner hClose hBody, hr, hLast⟩
    · rename_i hOpen
      split at h
      · rename_i ht
        cases depth with
        | zero =>
          simp only [Except.ok.injEq] at h
          exact ⟨[], t, ts, rfl, Balanced.nil, ht, Or.inl ⟨rfl, h⟩⟩
        | succ d => exact ⟨[], t, ts, rfl, Balanced.nil, ht, Or.inr ⟨d, rfl, h⟩⟩
      · rename_i hClose
        obtain ⟨body, right, after, rfl, hBody, hr, hAfter⟩ := configRest_sound h
        exact ⟨t :: body, right, after, rfl,
          Balanced.word (by simpa using hOpen) (by simpa using hClose) hBody, hr, hAfter⟩
termination_by ts.length
decreasing_by all_goals grind

theorem configRest_open {t : Token} (ht : t.is "\x7b") (depth : Nat) :
    configRest depth (t :: rest) = configRest (depth + 1) rest := by
  conv => lhs; unfold configRest
  simp [ht]

theorem configRest_close {t : Token} (ht : t.is "\x7d") (depth : Nat) :
    configRest (depth + 1) (t :: rest) = configRest depth rest := by
  conv => lhs; unfold configRest
  simp [ht, Token.is_ne ht (by decide : "\x7d" ≠ "\x7b")]

theorem configRest_end {t : Token} (ht : t.is "\x7d") : configRest 0 (t :: rest) = .ok rest := by
  unfold configRest
  simp [ht, Token.is_ne ht (by decide : "\x7d" ≠ "\x7b")]

/-- A balanced part is passed without a change of depth. -/
theorem configRest_append {body : List Token} (h : Balanced body) (depth : Nat)
    (rest : List Token) : configRest depth (body ++ rest) = configRest depth rest := by
  induction h generalizing depth rest with
  | nil => rfl
  | @word t others hOpen hClose _ ih =>
    rw [← ih depth rest, List.cons_append]
    conv => lhs; unfold configRest
    simp [hOpen, hClose]
  | @block left right inner others hl _ hr _ ihInner ihOthers =>
    rw [List.cons_append, List.append_assoc, configRest_open hl, ihInner, List.cons_append,
      configRest_close hr, ihOthers]

theorem config_complete (model : Model) (rest : List Token) (h : IsConfig used) :
    ∃ keyword more, used = keyword :: more ∧ keyword.is "config" ∧
      declaration model keyword (more ++ rest) = .ok (.config, rest) := by
  cases h with
  | @intro keyword left right body hk hl hBody hr =>
    refine ⟨keyword, _, rfl, hk, ?_⟩
    have hRest : configRest 0 (body ++ right :: rest) = .ok rest := by
      rw [configRest_append hBody, configRest_end hr]
    simp only [List.cons_append, List.append_assoc, List.nil_append, declaration,
      Token.is_ne hk (by decide : "config" ≠ "include"),
      Token.is_ne hk (by decide : "config" ≠ "struct"),
      Token.is_ne hk (by decide : "config" ≠ "enum"), hk, Bool.false_eq_true, if_false, if_true,
      bind_eq_ok_iff, expect_eq_ok]
    exact ⟨_, ⟨left, rfl, hl⟩, rest, hRest, rfl⟩

/-- What a declaration can be. -/
theorem declaration_cases {t : Token} {d : Declaration}
    (h : declaration model t ts = .ok (d, rest)) :
    (∃ s used, d = .struct s ∧ t :: ts = used ++ rest ∧ IsStruct typeWords model used s ∧
      Closes used rest) ∨
    (∃ e used, d = .enumeration e ∧ t :: ts = used ++ rest ∧ IsEnum model used e ∧
      Closes used rest) ∨
    (∃ used, d = .config ∧ t :: ts = used ++ rest ∧ IsConfig used) ∨
    (∃ path, d = .includes t.position path ∧ t.is "include") := by
  simp only [declaration] at h
  split at h
  · rename_i ht
    simp only [bind_eq_ok_iff, Prod.exists] at h
    obtain ⟨path, _, _, h⟩ := h
    split at h
    · simp at h
    · simp only [Except.ok.injEq, Prod.mk.injEq] at h
      exact Or.inr (Or.inr (Or.inr ⟨path, h.1.symm, ht⟩))
  · split at h
    · rename_i ht
      simp only [bind_eq_ok_iff, Prod.exists, Except.ok.injEq, Prod.mk.injEq] at h
      obtain ⟨s, _, hs, rfl, rfl⟩ := h
      obtain ⟨used, hUsed, hStruct, hNext⟩ := struct_sound ht hs
      exact Or.inl ⟨s, used, rfl, hUsed, hStruct, hNext⟩
    · split at h
      · rename_i ht
        simp only [bind_eq_ok_iff, Prod.exists, Except.ok.injEq, Prod.mk.injEq] at h
        obtain ⟨e, _, he, rfl, rfl⟩ := h
        obtain ⟨used, hUsed, hEnum, hNext⟩ := enumeration_sound ht he
        exact Or.inr (Or.inl ⟨e, used, rfl, hUsed, hEnum, hNext⟩)
      · split at h
        · rename_i ht
          simp only [bind_eq_ok_iff, expect_eq_ok, Except.ok.injEq, Prod.mk.injEq] at h
          obtain ⟨_, ⟨left, rfl, hl⟩, _, hRest, rfl, rfl⟩ := h
          obtain ⟨body, right, after, rfl, hBody, hr, hAfter⟩ := configRest_sound hRest
          obtain ⟨_, rfl⟩ := hAfter.resolve_right (by simp)
          refine Or.inr (Or.inr (Or.inl ⟨t :: left :: (body ++ [right]), rfl, by simp, ?_⟩))
          exact IsConfig.intro ht hl hBody hr
        · simp at h

theorem isStruct_of_declaration {t : Token} {s : Struct}
    (h : declaration model t ts = .ok (.struct s, rest)) :
    ∃ used, t :: ts = used ++ rest ∧ IsStruct typeWords model used s ∧ Closes used rest := by
  simpa using declaration_cases h

theorem isEnum_of_declaration {t : Token} {e : Enumeration}
    (h : declaration model t ts = .ok (.enumeration e, rest)) :
    ∃ used, t :: ts = used ++ rest ∧ IsEnum model used e ∧ Closes used rest := by
  simpa using declaration_cases h

theorem isConfig_of_declaration {t : Token} (h : declaration model t ts = .ok (.config, rest)) :
    ∃ used, t :: ts = used ++ rest ∧ IsConfig used := by
  simpa using declaration_cases h

theorem is_include_of_declaration {t : Token} {position : Position} {written : String}
    (h : declaration model t ts = .ok (.includes position written, rest)) : t.is "include" := by
  have hCases := declaration_cases h
  simp only [reduceCtorEq, false_and, exists_false, false_or, Declaration.includes.injEq] at hCases
  obtain ⟨_, _, ht⟩ := hCases
  exact ht

theorem declaration_struct {s : Struct} (h : IsStruct typeWords model used s)
    (hw : WordsNonempty used) (hNext : Closes used rest) :
    ∃ keyword more, used = keyword :: more ∧
      declaration model keyword (more ++ rest) = .ok (.struct s, rest) := by
  obtain ⟨keyword, more, rfl, hk, hs⟩ := struct_complete h hw hNext
  refine ⟨keyword, more, rfl, ?_⟩
  simp only [declaration, Token.is_ne hk (by decide : "struct" ≠ "include"), hk,
    Bool.false_eq_true, if_false, if_true]
  exact bind_eq_ok_iff.2 ⟨_, hs, rfl⟩

theorem declaration_enumeration {e : Enumeration} (h : IsEnum model used e)
    (hNext : Closes used rest) :
    ∃ keyword more, used = keyword :: more ∧
      declaration model keyword (more ++ rest) = .ok (.enumeration e, rest) := by
  obtain ⟨keyword, more, rfl, hk, he⟩ := enumeration_complete h hNext
  refine ⟨keyword, more, rfl, ?_⟩
  simp only [declaration, Token.is_ne hk (by decide : "enum" ≠ "include"),
    Token.is_ne hk (by decide : "enum" ≠ "struct"), hk, Bool.false_eq_true, if_false, if_true]
  exact bind_eq_ok_iff.2 ⟨_, he, rfl⟩

end Grammar

/-! ## The declarations of a file -/

namespace Reader

open Grammar

section

variable {inclusion : Reader → Position → Path → Outcome} {file : Path} {r : Reader} {t : Token}

theorem declarations_nil : declarations inclusion file r [] = (r, .ok ()) := by
  unfold declarations
  rfl

theorem declarations_struct {s : Struct} (h : declaration r.model t ts = .ok (.struct s, rest)) :
    declarations inclusion file r (t :: ts) =
      declarations inclusion file { r with model := r.model.declareStruct s } rest := by
  conv => lhs; unfold declarations
  split <;> simp_all

theorem declarations_enumeration {e : Enumeration}
    (h : declaration r.model t ts = .ok (.enumeration e, rest)) :
    declarations inclusion file r (t :: ts) =
      declarations inclusion file { r with model := r.model.declareEnum e } rest := by
  conv => lhs; unfold declarations
  split <;> simp_all

theorem declarations_config (h : declaration r.model t ts = .ok (.config, rest)) :
    declarations inclusion file r (t :: ts) = declarations inclusion file r rest := by
  conv => lhs; unfold declarations
  split <;> simp_all

/-- Where an inclusion of a file leads. -/
abbrev target (file : Path) (written : String) : Path :=
  includeTarget (file.parent?.getD ⟨""⟩) written

/-! ## Soundness -/

/-- An inclusion after some declaration is one among all of them. -/
theorem hasInclude_append {words : List String} {final : Model}
    (hUsed : ∀ {rest last}, IsSchema words final rest last →
      IsSchema words model (used ++ rest) last)
    (h : HasInclude words final rest) : HasInclude words model (used ++ rest) := by
  obtain ⟨before, t, after, last, rfl, ht, hBefore⟩ := h
  exact ⟨used ++ before, t, after, last, by simp, ht, hUsed hBefore⟩

theorem declarations_sound {r' : Reader} (h : declarations inclusion file r ts = (r', .ok ()))
    (hInclude : ¬ HasInclude typeWords r.model ts) :
    ∃ final, IsSchema typeWords r.model ts final ∧ r' = { r with model := final } := by
  fun_induction declarations inclusion file r ts with
  | case1 r =>
    simp only [Prod.mk.injEq, and_true] at h
    exact ⟨r.model, IsSchema.nil, h.symm⟩
  | case2 => simp at h
  | case3 r t ts s after hd ih =>
    obtain ⟨used, hUsed, hs, _⟩ := isStruct_of_declaration hd
    -- An inclusion further on would be one of the whole text.
    rw [hUsed] at hInclude ⊢
    obtain ⟨final, hFinal, rfl⟩ :=
      ih h (fun hi => hInclude (hasInclude_append (IsSchema.struct hs) hi))
    exact ⟨final, IsSchema.struct hs hFinal, rfl⟩
  | case4 r t ts e after hd ih =>
    obtain ⟨used, hUsed, he, _⟩ := isEnum_of_declaration hd
    rw [hUsed] at hInclude ⊢
    obtain ⟨final, hFinal, rfl⟩ :=
      ih h (fun hi => hInclude (hasInclude_append (IsSchema.enumeration he) hi))
    exact ⟨final, IsSchema.enumeration he hFinal, rfl⟩
  | case5 r t ts after hd ih =>
    obtain ⟨used, hUsed, hc⟩ := isConfig_of_declaration hd
    rw [hUsed] at hInclude ⊢
    obtain ⟨final, hFinal, rfl⟩ :=
      ih h (fun hi => hInclude (hasInclude_append (IsSchema.config hc) hi))
    exact ⟨final, IsSchema.config hc hFinal, rfl⟩
  | case6 r t ts position written after hd =>
    exact absurd ⟨[], t, ts, r.model, rfl, is_include_of_declaration hd, IsSchema.nil⟩ hInclude
  | case7 => simp at h

/-! ## Completeness -/

/-- A declaration starts with its keyword. -/
theorem notBefore_of_isSchema {words : List String} {final : Model}
    (h : IsSchema words model used final) (hNext : NotBefore ";" rest) :
    NotBefore ";" (used ++ rest) := by
  cases h with
  | nil => exact hNext
  | struct hs _ =>
    cases hs with
    | intro hk => exact notBefore_cons (Token.is_ne hk (by decide))
  | enumeration he _ =>
    cases he with
    | intro hk => exact notBefore_cons (Token.is_ne hk (by decide))
  | config hc _ =>
    cases hc with
    | intro hk => exact notBefore_cons (Token.is_ne hk (by decide))

/-- Declarations that derive are read, whatever follows them, unless it starts with a semicolon that
could still belong to the last one. -/
theorem declarations_append {final : Model} (h : IsSchema typeWords model used final)
    (hw : WordsNonempty used) (hNext : NotBefore ";" rest) :
    declarations inclusion file { r with model } (used ++ rest) =
      declarations inclusion file { r with model := final } rest := by
  induction h with
  | nil => rfl
  | @struct model final used others s hs hOthers ih =>
    have hUsed : WordsNonempty used := fun t ht => hw t (by simp [ht])
    have hRest : WordsNonempty others := fun t ht => hw t (by simp [ht])
    obtain ⟨keyword, more, rfl, hd⟩ :=
      declaration_struct hs hUsed (Or.inr (notBefore_of_isSchema hOthers hNext))
    rw [List.append_assoc, List.cons_append]
    exact (declarations_struct (r := { r with model }) hd).trans (ih hRest)
  | @enumeration model final used others e he hOthers ih =>
    have hRest : WordsNonempty others := fun t ht => hw t (by simp [ht])
    obtain ⟨keyword, more, rfl, hd⟩ :=
      declaration_enumeration he (Or.inr (notBefore_of_isSchema hOthers hNext))
    rw [List.append_assoc, List.cons_append]
    exact (declarations_enumeration (r := { r with model }) hd).trans (ih hRest)
  | @config model final used others hc hOthers ih =>
    have hRest : WordsNonempty others := fun t ht => hw t (by simp [ht])
    obtain ⟨keyword, more, rfl, _, hd⟩ := config_complete model _ hc
    rw [List.append_assoc, List.cons_append]
    exact (declarations_config (r := { r with model }) hd).trans (ih hRest)

theorem declarations_complete {final : Model} (h : IsSchema typeWords model ts final)
    (hw : WordsNonempty ts) :
    declarations inclusion file { r with model } ts = ({ r with model := final }, .ok ()) := by
  have hAll : declarations inclusion file { r with model } (ts ++ []) =
      declarations inclusion file { r with model := final } [] :=
    declarations_append h hw (notBefore_nil ";")
  rw [List.append_nil, declarations_nil] at hAll
  exact hAll

end

/-! ## The grammar decides -/

/-- Without inclusions, the announced tokens of a file are read without an error exactly if they
derive from the grammar, and reading ends with the model that they derive. -/
theorem declarations_ok_iff_isSchema (inclusion : Reader → Position → Path → Outcome) (file : Path)
    (r : Reader) (ts : List Token) (hw : WordsNonempty ts)
    (hInclude : ¬ HasInclude typeWords (announceTokens r.model ts) ts) :
    ((declarations inclusion file { r with model := announceTokens r.model ts } ts).2 = .ok () ↔
      ∃ final, IsSchema typeWords (announceTokens r.model ts) ts final) ∧
    ∀ final, IsSchema typeWords (announceTokens r.model ts) ts final →
      declarations inclusion file { r with model := announceTokens r.model ts } ts =
        ({ r with model := final }, .ok ()) := by
  refine ⟨⟨?_, ?_⟩, fun final h => declarations_complete h hw⟩
  · intro h
    obtain ⟨final, hFinal, _⟩ := declarations_sound (Prod.ext rfl h) hInclude
    exact ⟨final, hFinal⟩
  · rintro ⟨final, hFinal⟩
    rw [declarations_complete hFinal hw]

/-- A word of a source in one line. -/
def wordAt (column : Nat) (text : String) : Token :=
  ⟨text, ⟨inputName.text, 1, column⟩, false⟩

/-- Tokens with a name used before its declaration, a `reference` without a target, a default value
of several tokens, a block in a block and a comma before a closing brace. -/
def sampleTokens : List Token :=
  [wordAt 1 "struct", wordAt 8 "A", wordAt 10 "\x7b", wordAt 12 "array", wordAt 17 "<",
    wordAt 18 "B", wordAt 19 ">", wordAt 20 ":", wordAt 22 "x", wordAt 23 ":", wordAt 25 "default",
    wordAt 32 "(", wordAt 33 "a", wordAt 34 ".", wordAt 35 "b", wordAt 36 ")", wordAt 37 ";",
    wordAt 39 "A", wordAt 40 ":", wordAt 42 "y", wordAt 43 ":", wordAt 45 "reference",
    wordAt 54 ";", wordAt 56 "\x7d", wordAt 58 "config", wordAt 65 "\x7b", wordAt 67 "x",
    wordAt 69 "\x7b", wordAt 71 "\x7d", wordAt 73 "\x7d", wordAt 75 "enum", wordAt 80 "B",
    wordAt 82 "\x7b", wordAt 84 "V", wordAt 86 "=", wordAt 88 "2", wordAt 89 ",", wordAt 91 "W",
    wordAt 92 ",", wordAt 94 "\x7d", wordAt 95 ";"]

/-- The sample derives from the grammar, because it is read without an error. -/
theorem sampleTokens_derive :
    WordsNonempty sampleTokens ∧
      ¬ HasInclude typeWords (announceTokens {} sampleTokens) sampleTokens ∧
      ∃ final, IsSchema typeWords (announceTokens {} sampleTokens) sampleTokens final := by
  have hw : WordsNonempty sampleTokens := by
    unfold WordsNonempty
    decide
  have hInclude : ¬ HasInclude typeWords (announceTokens {} sampleTokens) sampleTokens := by
    rintro ⟨before, t, after, final, hTokens, ht, _⟩
    have hNone : ∀ t ∈ sampleTokens, t.is "include" = false := by decide
    have := hNone t (hTokens ▸ by simp)
    simp [this] at ht
  have hRead : (declarations (inclusionIn {}) inputName
      { model := announceTokens {} sampleTokens } sampleTokens).2.isOk = true := by
    decide +kernel
  refine ⟨hw, hInclude,
    (declarations_ok_iff_isSchema (inclusionIn {}) inputName {} sampleTokens hw hInclude).1.1 ?_⟩
  rcases h : (declarations (inclusionIn {}) inputName
      { model := announceTokens {} sampleTokens } sampleTokens).2 with e | u
  · rw [h] at hRead
    cases hRead
  · rfl

/-- The tokens of a source that announces `array` and uses it as the name of a type. -/
def announcedArray : List Token :=
  [wordAt 1 "config", wordAt 8 "\x7b", wordAt 10 "struct", wordAt 17 "array", wordAt 23 "\x7d",
    wordAt 25 "struct", wordAt 32 "A", wordAt 34 "\x7b", wordAt 36 "array", wordAt 41 ":",
    wordAt 43 "x", wordAt 44 ";", wordAt 46 "\x7d"]

/-- The tokens of a source that announces `bool` and refers to it as to a struct. -/
def announcedBool : List Token :=
  [wordAt 1 "config", wordAt 8 "\x7b", wordAt 10 "struct", wordAt 17 "bool", wordAt 22 "\x7d",
    wordAt 24 "struct", wordAt 31 "A", wordAt 33 "\x7b", wordAt 35 "bool", wordAt 39 ":",
    wordAt 41 "x", wordAt 42 ":", wordAt 44 "reference", wordAt 53 ";", wordAt 55 "\x7d"]

/-- A block that mentions a struct, and then a struct with one member. -/
theorem isSchema_after_config {words : List String} {member : List Token} {m : Member}
    {a b c d e f g h i : Token} (hm : IsMember words model member m)
    (hConfig : a.is "config" ∧ b.is "\x7b" ∧ c.is "struct" ∧ isIdentifier d ∧ e.is "\x7d")
    (hStruct : f.is "struct" ∧ IsNewName model g ∧ h.is "\x7b" ∧ i.is "\x7d") :
    ∃ final, IsSchema words model ([a, b, c, d, e, f, g, h] ++ member ++ [i]) final := by
  obtain ⟨ha, hb, hc, hd, he⟩ := hConfig
  obtain ⟨hf, hg, hh, hi⟩ := hStruct
  have hBlock : IsConfig (a :: b :: ([c, d] ++ [e])) :=
    IsConfig.intro ha hb (Balanced.word (Token.is_ne hc (by decide)) (Token.is_ne hc (by decide))
      (Balanced.word (not_is_of_isIdentifier hd (by decide))
        (not_is_of_isIdentifier hd (by decide)) Balanced.nil)) he
  have hEntity : IsStruct words model (f :: g :: h :: ((member ++ []) ++ i :: [])) _ :=
    IsStruct.intro hf hg hh (AreMembers.cons hm AreMembers.nil) (by simp) hi (Or.inl rfl)
  have hTokens : [a, b, c, d, e, f, g, h] ++ member ++ [i] =
      (a :: b :: ([c, d] ++ [e])) ++ ((f :: g :: h :: ((member ++ []) ++ i :: [])) ++ []) := by
    simp
  rw [hTokens]
  exact ⟨_, IsSchema.config hBlock (IsSchema.struct hEntity IsSchema.nil)⟩

/-- Where any announced name may be a type, the grammar derives more than is read: `array` and the
scalars are never taken for names. -/
theorem announced_words_are_no_names :
    (tokenize inputName.text "config \x7b struct array \x7d struct A \x7b array: x; \x7d" =
        .ok announcedArray ∧
      (∃ final, IsSchema [] (announceTokens {} announcedArray) announcedArray final) ∧
      (declarations (inclusionIn {}) inputName { model := announceTokens {} announcedArray }
        announcedArray).2.isOk = false) ∧
    (tokenize inputName.text
        "config \x7b struct bool \x7d struct A \x7b bool: x: reference; \x7d" = .ok announcedBool ∧
      (∃ final, IsSchema [] (announceTokens {} announcedBool) announcedBool final) ∧
      (declarations (inclusionIn {}) inputName { model := announceTokens {} announcedBool }
        announcedBool).2.isOk = false) := by
  refine ⟨⟨by cbv, ?_, by decide +kernel⟩, ⟨by cbv, ?_, by decide +kernel⟩⟩
  · have hMember : IsMember [] (announceTokens {} announcedArray)
        ([wordAt 36 "array"] ++ wordAt 41 ":" :: wordAt 43 "x" :: ([] ++ [wordAt 44 ";"])) _ :=
      IsMember.intro (IsType.named (by decide) (by simp) (by decide)) (by decide) (by decide)
        (by decide) AreModifiers.nil (by decide)
    exact isSchema_after_config hMember (by decide)
      ⟨by decide, ⟨by decide, by decide, by decide⟩, by decide, by decide⟩
  · have hMember : IsMember [] (announceTokens {} announcedBool)
        ([wordAt 35 "bool"] ++ wordAt 39 ":" :: wordAt 41 "x" ::
          (wordAt 42 ":" :: ([wordAt 44 "reference"] ++ []) ++ [wordAt 53 ";"])) _ :=
      IsMember.intro (IsType.named (by decide) (by simp) (by decide)) (by decide) (by decide)
        (by decide)
        (AreModifiers.cons (by decide) (IsModifier.ownReference (by decide) rfl) AreModifiers.nil)
        (by decide)
    exact isSchema_after_config hMember (by decide)
      ⟨by decide, ⟨by decide, by decide, by decide⟩, by decide, by decide⟩

end Reader

end EntitySchema
