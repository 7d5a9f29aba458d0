import EntitySchema.Proofs.Derivation
import EntitySchema.Proofs.Lists

/-!
Reading types and members follows the grammar. Each function that reads a part succeeds on tokens
that start with such a part, and on no others; it returns what the part stands for and the tokens
after it. One direction is `*_sound`, the other `*_complete`.
-/

namespace EntitySchema

/-! ## Single tokens -/

theorem Token.is_iff {t : Token} {word : String} :
    t.is word = true ↔ t.quoted = false ∧ t.text = word := by
  simp [Token.is]

/-- A token is at most one word. -/
theorem Token.is_ne {t : Token} {a b : String} (h : t.is a = true) (hab : a ≠ b) :
    t.is b = false := by
  obtain ⟨_, rfl⟩ := Token.is_iff.1 h
  simp [Token.is, hab]

namespace Grammar

theorem any_eq_ok {expected : Expected} {ts rest : List Token} {t : Token} :
    any expected ts = .ok (t, rest) ↔ ts = t :: rest := by
  cases ts <;> simp [any]

theorem expect_eq_ok {word : String} {ts rest : List Token} :
    expect word ts = .ok rest ↔ ∃ t, ts = t :: rest ∧ t.is word := by
  cases ts with
  | nil => simp [expect]
  | cons t ts =>
    simp only [expect]
    split <;> grind

theorem identifier_eq_ok {expected : Expected} {ts rest : List Token} {t : Token} :
    identifier expected ts = .ok (t, rest) ↔ ts = t :: rest ∧ isIdentifier t := by
  cases ts with
  | nil => simp [identifier]
  | cons u ts =>
    simp only [identifier]
    split <;> grind

theorem number_eq_ok {α : Type} {read : String → Option α} {expected : Expected}
    {ts rest : List Token} {n : α} :
    number read expected ts = .ok (n, rest) ↔
      ∃ t, ts = t :: rest ∧ t.quoted = false ∧ read t.text = some n := by
  cases ts with
  | nil => simp [number]
  | cons t ts =>
    simp only [number]
    split
    · simp_all
    · split <;> grind

/-- A word of the grammar that is a name can be read as a name. -/
theorem isIdentifier_of_is {t : Token} {word : String} (h : t.is word) (hw : isName word) :
    isIdentifier t := by
  obtain ⟨hq, rfl⟩ := Token.is_iff.1 h
  simp [isIdentifier, hq, hw]

/-- The tokens go on with something other than this word. -/
def NotBefore (word : String) (rest : List Token) : Prop :=
  ∀ t ∈ rest.head?, t.is word = false

theorem notBefore_nil (word : String) : NotBefore word [] := by
  intro t ht
  simp at ht

theorem notBefore_cons {word : String} {t : Token} {rest : List Token} (h : t.is word = false) :
    NotBefore word (t :: rest) := by
  intro u hu
  simp only [List.head?_cons, Option.mem_def, Option.some.injEq] at hu
  exact hu ▸ h

/-- No semicolon of a declaration is left behind: it ends with one, or none follows it. -/
def Closes (used rest : List Token) : Prop :=
  (∃ t, used.getLast? = some t ∧ t.is ";") ∨ NotBefore ";" rest

theorem optionalSemicolon_split (front ts : List Token) :
    ∃ finish, ts = finish ++ optionalSemicolon ts ∧ Derivation.IsOptionalSemicolon finish ∧
      Closes (front ++ finish) (optionalSemicolon ts) := by
  cases ts with
  | nil => exact ⟨[], rfl, Or.inl rfl, Or.inr (notBefore_nil ";")⟩
  | cons t ts =>
    by_cases h : t.is ";" = true
    · exact ⟨[t], by simp [optionalSemicolon, h], Or.inr ⟨t, rfl, h⟩, Or.inl ⟨t, by simp, h⟩⟩
    · refine ⟨[], by simp [optionalSemicolon, h], Or.inl rfl, Or.inr ?_⟩
      simp only [optionalSemicolon, h]
      exact notBefore_cons (by simpa using h)

theorem optionalSemicolon_append (front : List Token) {finish rest : List Token} {right : Token}
    (hf : Derivation.IsOptionalSemicolon finish) (hr : right.is "\x7d")
    (hNext : Closes (front ++ right :: finish) rest) :
    optionalSemicolon (finish ++ rest) = rest := by
  rcases hf with rfl | ⟨t, rfl, ht⟩
  · have hRest : NotBefore ";" rest := by
      refine hNext.resolve_left ?_
      rintro ⟨t, hLast, ht⟩
      obtain rfl : right = t := by simpa using hLast
      exact absurd ht (by simp [Token.is_ne hr (by decide : "\x7d" ≠ ";")])
    cases rest with
    | nil => rfl
    | cons u rest =>
      have hu : u.is ";" = false := hRest u rfl
      simp [optionalSemicolon, hu]
  · simp [optionalSemicolon, ht]

/-! ## Types -/

section

variable {model : Model} {ts rest used : List Token} {type : TypeExpr}

open EntitySchema.Derivation

theorem ofKeyword?_keyword (s : Scalar) : Scalar.ofKeyword? s.keyword = some s := by
  cases s <;> decide

theorem keyword_of_ofKeyword? {word : String} {s : Scalar} (h : Scalar.ofKeyword? word = some s) :
    s.keyword = word := by
  unfold Scalar.ofKeyword? at h
  simpa using List.find?_some h

theorem mem_typeWords {word : String} :
    word ∈ typeWords ↔ word = "array" ∨ (Scalar.ofKeyword? word).isSome := by
  unfold typeWords
  rw [List.mem_cons, List.mem_map, Option.isSome_iff_exists]
  constructor
  · rintro (h | ⟨s, _, rfl⟩)
    · exact Or.inl h
    · exact Or.inr ⟨s, ofKeyword?_keyword s⟩
  · rintro (h | ⟨s, hs⟩)
    · exact Or.inl h
    · exact Or.inr ⟨s, by cases s <;> decide, keyword_of_ofKeyword? hs⟩

theorem typeExpr_sound (h : typeExpr model.isTypeName ts = .ok (type, rest)) :
    ∃ used, ts = used ++ rest ∧ IsType typeWords model used type := by
  fun_induction typeExpr model.isTypeName ts generalizing type rest with
  | case1 => simp at h
  | case2 => simp at h
  | case3 t ht open_ inner ho ih =>
    simp only [bind_eq_ok_iff] at h
    obtain ⟨⟨element, after⟩, hElement, close, hClose, h⟩ := h
    obtain ⟨used, rfl, hUsed⟩ := ih hElement
    obtain ⟨right, hAfter, hRight⟩ := expect_eq_ok.1 hClose
    simp only [Except.ok.injEq, Prod.mk.injEq] at h
    obtain ⟨rfl, rfl⟩ := h
    refine ⟨t :: open_ :: (used ++ [right]), ?_, IsType.array ht ho hUsed hRight⟩
    simp only at hAfter
    simp [hAfter]
  | case4 => simp at h
  | case5 => simp at h
  | case6 t after _ hId s hs =>
    simp only [Except.ok.injEq, Prod.mk.injEq] at h
    obtain ⟨rfl, rfl⟩ := h
    refine ⟨[t], rfl, IsType.scalar ?_ hs⟩
    simp only [isIdentifier, Bool.not_and, Bool.not_not, Bool.or_eq_true, not_or,
      Bool.not_eq_true] at hId
    exact hId.1
  | case7 t after hArray hId hNone hKnown =>
    simp only [Except.ok.injEq, Prod.mk.injEq] at h
    obtain ⟨rfl, rfl⟩ := h
    have hName : isIdentifier t = true := by simpa using hId
    refine ⟨[t], rfl, IsType.named hName ?_ hKnown⟩
    rw [mem_typeWords, hNone]
    rintro (hWord | hWord)
    · simp only [isIdentifier, Bool.and_eq_true, Bool.not_eq_true'] at hName
      exact hArray (Token.is_iff.2 ⟨hName.1, hWord⟩)
    · simp at hWord
  | case8 => simp at h

/-- A scalar's word can be read as a name. -/
theorem isName_keyword (s : Scalar) : isName s.keyword := by
  cases s <;> decide

theorem typeExpr_complete (h : IsType typeWords model used type) :
    typeExpr model.isTypeName (used ++ rest) = .ok (type, rest) := by
  induction h generalizing rest with
  | @array keyword left right inner element hk hl _ hr ih =>
    simp only [List.cons_append, List.append_assoc, List.nil_append]
    unfold typeExpr
    simp only [hk, hl, if_true]
    rw [bind_eq_ok_iff]
    exact ⟨_, ih, bind_eq_ok_iff.2 ⟨rest, expect_eq_ok.2 ⟨right, rfl, hr⟩, rfl⟩⟩
  | @scalar t s hq hs =>
    have hArray : t.is "array" = false := by
      have hWord : s.keyword ≠ "array" := by cases s <;> decide
      rw [keyword_of_ofKeyword? hs] at hWord
      simp [Token.is, hWord]
    have hName : isIdentifier t = true := by
      unfold isIdentifier
      rw [hq, ← keyword_of_ofKeyword? hs, isName_keyword]
      rfl
    unfold typeExpr
    simp [hArray, hName, hs]
  | @named t hName hWords hKnown =>
    rw [mem_typeWords, not_or] at hWords
    have hArray : t.is "array" = false := by
      simp [Token.is, hWords.1]
    have hNone : Scalar.ofKeyword? t.text = none := by simpa using hWords.2
    unfold typeExpr
    simp [hArray, hName, hNone, hKnown]

/-! ## Modifiers -/

theorem itemBound_eq_ok {n : Nat} : itemBound ts = .ok (n, rest) ↔
    ∃ left number right, ts = left :: number :: right :: rest ∧ left.is "(" ∧
      number.quoted = false ∧ Number.readUnsigned number.text = some n ∧ right.is ")" := by
  simp only [itemBound, bind_eq_ok_iff, Prod.exists, expect_eq_ok, number_eq_ok,
    Except.ok.injEq, Prod.mk.injEq]
  constructor
  · rintro ⟨_, ⟨left, rfl, hl⟩, _, _, ⟨number, rfl, hq, hn⟩, _, ⟨right, rfl, hr⟩, rfl, rfl⟩
    exact ⟨left, number, right, rfl, hl, hq, hn, hr⟩
  · rintro ⟨left, number, right, rfl, hl, hq, hn, hr⟩
    exact ⟨_, ⟨left, rfl, hl⟩, n, _, ⟨number, rfl, hq, hn⟩, _, ⟨right, rfl, hr⟩, rfl, rfl⟩

theorem referenceTarget_eq_ok {r : Reference} : referenceTarget ts = .ok (r, rest) ↔
    ∃ struct dot field right, ts = struct :: dot :: field :: right :: rest ∧
      isIdentifier struct ∧ dot.is "." ∧ isIdentifier field ∧ right.is ")" ∧
      r = ⟨struct.text, field.text⟩ := by
  simp only [referenceTarget, bind_eq_ok_iff, Prod.exists, expect_eq_ok, identifier_eq_ok,
    Except.ok.injEq, Prod.mk.injEq]
  constructor
  · rintro ⟨struct, _, ⟨rfl, hs⟩, _, ⟨dot, rfl, hd⟩, field, _, ⟨rfl, hf⟩, _, ⟨right, rfl, hr⟩,
      rfl, rfl⟩
    exact ⟨struct, dot, field, right, rfl, hs, hd, hf, hr, rfl⟩
  · rintro ⟨struct, dot, field, right, rfl, hs, hd, hf, hr, rfl⟩
    exact ⟨struct, _, ⟨rfl, hs⟩, _, ⟨dot, rfl, hd⟩, field, _, ⟨rfl, hf⟩, _, ⟨right, rfl, hr⟩,
      rfl, rfl⟩

theorem unquotedDefault_sound {text : String} (h : unquotedDefault ts = .ok (text, rest)) :
    ∃ texts, ts = texts ++ rest ∧ (∀ t ∈ texts, IsDefaultWord t) ∧ text = joined texts := by
  induction ts generalizing text rest with
  | nil => simp [unquotedDefault] at h
  | cons t ts ih =>
    simp only [unquotedDefault] at h
    split at h
    · simp only [Except.ok.injEq, Prod.mk.injEq] at h
      obtain ⟨rfl, rfl⟩ := h
      exact ⟨[], rfl, by simp, rfl⟩
    · rename_i hClose
      split at h
      · simp at h
      · rename_i hWord
        simp only [Bool.or_eq_true, not_or, Bool.not_eq_true] at hWord hClose
        simp only [bind_eq_ok_iff] at h
        obtain ⟨⟨more, after⟩, hMore, h⟩ := h
        obtain ⟨texts, rfl, hTexts, hText⟩ := ih hMore
        simp only [Except.ok.injEq, Prod.mk.injEq] at h
        obtain ⟨rfl, rfl⟩ := h
        refine ⟨t :: texts, rfl, ?_, by rw [joined, ← hText]⟩
        intro u hu
        rcases List.mem_cons.1 hu with rfl | hu
        · exact ⟨hWord.1, hClose, hWord.2⟩
        · exact hTexts u hu

theorem unquotedDefault_complete {texts : List Token} {right : Token}
    (h : ∀ t ∈ texts, IsDefaultWord t) (hr : right.is ")") :
    unquotedDefault (texts ++ right :: rest) = .ok (joined texts, right :: rest) := by
  induction texts with
  | nil => simp [unquotedDefault, hr, joined]
  | cons t texts ih =>
    obtain ⟨hq, hc, hs⟩ := h t List.mem_cons_self
    simp only [List.cons_append, unquotedDefault, hq, hc, hs, Bool.or_self, if_false,
      Bool.false_eq_true]
    rw [bind_eq_ok_iff]
    exact ⟨_, ih fun u hu => h u (List.mem_cons_of_mem _ hu), rfl⟩

theorem joined_ne_empty {texts : List Token} (hne : texts ≠ [])
    (h : ∀ t ∈ texts, IsDefaultWord t) (hw : WordsNonempty texts) : joined texts ≠ "" := by
  cases texts with
  | nil => exact absurd rfl hne
  | cons t texts =>
    have ht := hw t List.mem_cons_self (h t List.mem_cons_self).1
    simp [joined, ht]

theorem defaultText_sound {keyword : Token} {text : String}
    (h : defaultText keyword ts = .ok (text, rest)) :
    (∃ t, ts = t :: rest ∧ t.quoted = true ∧ text = t.text) ∨
      ∃ texts, ts = texts ++ rest ∧ texts ≠ [] ∧ (∀ t ∈ texts, IsDefaultWord t) ∧
        text = joined texts := by
  -- Both ways into a default value without quotes end in the same check for an empty one.
  have unquoted : ∀ {ts : List Token},
      (unquotedDefault ts >>= fun x =>
        if x.1 = "" then .error (.invalid keyword.position .emptyDefault)
        else .ok (x.1, x.2)) = Except.ok (text, rest) →
      ∃ texts, ts = texts ++ rest ∧ texts ≠ [] ∧ (∀ t ∈ texts, IsDefaultWord t) ∧
        text = joined texts := by
    intro ts h
    simp only [bind_eq_ok_iff] at h
    obtain ⟨⟨found, after⟩, hFound, h⟩ := h
    obtain ⟨texts, rfl, hTexts, hText⟩ := unquotedDefault_sound hFound
    split at h
    · simp at h
    · rename_i hne
      simp only [Except.ok.injEq, Prod.mk.injEq] at h
      obtain ⟨rfl, rfl⟩ := h
      refine ⟨texts, rfl, ?_, hTexts, hText⟩
      rintro rfl
      exact hne hText
  cases ts with
  | nil => exact Or.inr (unquoted h)
  | cons t ts =>
    simp only [defaultText] at h
    split at h
    · rename_i hq
      simp only [Except.ok.injEq, Prod.mk.injEq] at h
      exact Or.inl ⟨t, by rw [h.2], hq, h.1.symm⟩
    · exact Or.inr (unquoted h)

theorem defaultText_complete {keyword right : Token} {texts : List Token} (hne : texts ≠ [])
    (h : ∀ t ∈ texts, IsDefaultWord t) (hw : WordsNonempty texts) (hr : right.is ")") :
    defaultText keyword (texts ++ right :: rest) = .ok (joined texts, right :: rest) := by
  have hText := joined_ne_empty hne h hw
  cases texts with
  | nil => exact absurd rfl hne
  | cons t texts =>
    have hq := (h t List.mem_cons_self).1
    simp only [List.cons_append, defaultText, hq, Bool.false_eq_true, if_false]
    rw [bind_eq_ok_iff]
    refine ⟨_, unquotedDefault_complete h hr, ?_⟩
    simp [hText]

theorem withoutTarget_eq_ok {keyword : Token} {r : Reference} :
    referenceModifier.withoutTarget keyword type ts = .ok (r, rest) ↔
      ∃ name, type = .named name ∧ r = ⟨name, keyName⟩ ∧ rest = ts := by
  unfold referenceModifier.withoutTarget
  cases type <;> simp [TypeExpr.named?, eq_comm]

/-- Without a parenthesis after it, `reference` has no target. -/
theorem referenceModifier_of_notBefore (keyword : Token) (type : TypeExpr)
    (hr : NotBefore "(" rest) :
    referenceModifier keyword type rest = referenceModifier.withoutTarget keyword type rest := by
  cases rest with
  | nil => rfl
  | cons t rest =>
    have ht : t.is "(" = false := hr t rfl
    simp only [referenceModifier, ht, Bool.false_eq_true, if_false]

/-- The modifier `reference`, with its target and without one. -/
theorem isModifier_of_referenceModifier {keyword : Token} {r : Reference}
    (hk : keyword.is "reference") (h : referenceModifier keyword type ts = .ok (r, rest)) :
    ∃ used, keyword :: ts = used ++ rest ∧ IsModifier type used (.reference r) := by
  have bare : referenceModifier.withoutTarget keyword type ts = .ok (r, rest) →
      ∃ used, keyword :: ts = used ++ rest ∧ IsModifier type used (.reference r) := by
    intro h
    obtain ⟨name, hType, rfl, rfl⟩ := withoutTarget_eq_ok.1 h
    exact ⟨[keyword], rfl, IsModifier.ownReference hk hType⟩
  cases ts with
  | nil => exact bare h
  | cons left ts =>
    simp only [referenceModifier] at h
    split at h
    · rename_i hl
      obtain ⟨struct, dot, field, right, rfl, hs, hd, hf, hr, rfl⟩ := referenceTarget_eq_ok.1 h
      exact ⟨[keyword, left, struct, dot, field, right], rfl,
        IsModifier.reference hk hl hs hd hf hr⟩
    · exact bare h

theorem modifierAfter_sound {keyword : Token} {m : Modifier} (hk : isIdentifier keyword)
    (h : modifierAfter keyword type ts = .ok (m, rest)) :
    ∃ used, keyword :: ts = used ++ rest ∧ IsModifier type used m := by
  have hIs : ∀ {word : String}, keyword.text = word → keyword.is word := by
    intro word hw
    simp only [isIdentifier, Bool.and_eq_true, Bool.not_eq_true'] at hk
    exact Token.is_iff.2 ⟨hk.1, hw⟩
  -- The branches are the five flags, the two bounds, and the three modifiers with other arguments.
  simp only [modifierAfter] at h
  split at h
  iterate 5
    · rename_i hw
      simp only [Except.ok.injEq, Prod.mk.injEq] at h
      obtain ⟨rfl, rfl⟩ := h
      exact ⟨[keyword], rfl, IsModifier.flag (hIs hw) (by simp [flagWords])⟩
  iterate 2
    · rename_i hw
      split at h
      · rename_i hArray
        simp only [bind_eq_ok_iff, Prod.exists, itemBound_eq_ok, Except.ok.injEq,
          Prod.mk.injEq] at h
        obtain ⟨n, _, ⟨left, number, right, rfl, hl, hq, hn, hr⟩, rfl, rfl⟩ := h
        exact ⟨[keyword, left, number, right], rfl,
          IsModifier.bound (hIs hw) (by simp [boundWords]) hArray hl hq hn hr⟩
      · simp at h
  · rename_i hw
    simp only [bind_eq_ok_iff, Prod.exists, Except.ok.injEq, Prod.mk.injEq] at h
    obtain ⟨r, _, hReference, rfl, rfl⟩ := h
    exact isModifier_of_referenceModifier (hIs hw) hReference
  · rename_i hw
    simp only [bind_eq_ok_iff, Prod.exists, expect_eq_ok, any_eq_ok, Except.ok.injEq,
      Prod.mk.injEq] at h
    obtain ⟨_, ⟨left, rfl, hl⟩, text, _, rfl, _, ⟨right, rfl, hr⟩, rfl, rfl⟩ := h
    exact ⟨[keyword, left, text, right], rfl, IsModifier.description (hIs hw) hl hr⟩
  · rename_i hw
    simp only [bind_eq_ok_iff, Prod.exists, expect_eq_ok, Except.ok.injEq, Prod.mk.injEq] at h
    obtain ⟨_, ⟨left, rfl, hl⟩, text, _, hText, _, ⟨right, rfl, hr⟩, rfl, rfl⟩ := h
    rcases defaultText_sound hText with ⟨t, rfl, hq, rfl⟩ | ⟨texts, rfl, hne, hTexts, rfl⟩
    · exact ⟨[keyword, left, t, right], rfl, IsModifier.quotedDefault (hIs hw) hl hq hr⟩
    · refine ⟨keyword :: left :: (texts ++ [right]), by simp, ?_⟩
      exact IsModifier.wordDefault (hIs hw) hl hne hTexts hr
  · simp at h

theorem modifier_sound {m : Modifier} (h : modifier type ts = .ok (m, rest)) :
    ∃ used, ts = used ++ rest ∧ IsModifier type used m := by
  simp only [modifier, bind_eq_ok_iff, Prod.exists, identifier_eq_ok] at h
  obtain ⟨keyword, _, ⟨rfl, hk⟩, h⟩ := h
  exact modifierAfter_sound hk h

/-- After its keyword, which is read as a name, the modifier depends on the text of the keyword. -/
theorem modifier_cons {keyword : Token} {word : String} (hk : keyword.is word)
    (hw : isName word) : modifier type (keyword :: ts) = modifierAfter keyword type ts := by
  simp [modifier, identifier, isIdentifier_of_is hk hw, bind, Except.bind]

theorem modifier_complete {m : Modifier} (h : IsModifier type used m) (hw : WordsNonempty used)
    (hr : NotBefore "(" rest) : modifier type (used ++ rest) = .ok (m, rest) := by
  cases h with
  | @flag keyword word m hk hm =>
    simp only [flagWords, List.mem_cons, Prod.mk.injEq, List.not_mem_nil, or_false] at hm
    have hText := (Token.is_iff.1 hk).2
    rcases hm with ⟨rfl, rfl⟩ | ⟨rfl, rfl⟩ | ⟨rfl, rfl⟩ | ⟨rfl, rfl⟩ | ⟨rfl, rfl⟩
    all_goals
      rw [List.cons_append, List.nil_append, modifier_cons hk (by decide)]
      simp only [modifierAfter, hText]
  | @bound keyword left number right word make n hk hm hArray hl hq hn hr =>
    simp only [boundWords, List.mem_cons, Prod.mk.injEq, List.not_mem_nil, or_false] at hm
    have hText := (Token.is_iff.1 hk).2
    have hBound : itemBound (left :: number :: right :: rest) = .ok (n, rest) :=
      itemBound_eq_ok.2 ⟨left, number, right, rfl, hl, hq, hn, hr⟩
    rcases hm with ⟨rfl, rfl⟩ | ⟨rfl, rfl⟩
    all_goals
      simp only [List.cons_append, List.nil_append]
      rw [modifier_cons hk (by decide)]
      simp only [modifierAfter, hText, hArray, if_true]
      exact bind_eq_ok_iff.2 ⟨_, hBound, rfl⟩
  | @reference keyword left struct dot field right hk hl hs hd hf hr =>
    have hText := (Token.is_iff.1 hk).2
    have hTarget : referenceTarget (struct :: dot :: field :: right :: rest) =
        .ok (⟨struct.text, field.text⟩, rest) :=
      referenceTarget_eq_ok.2 ⟨struct, dot, field, right, rfl, hs, hd, hf, hr, rfl⟩
    simp only [List.cons_append, List.nil_append]
    rw [modifier_cons hk (by decide)]
    simp only [modifierAfter, hText, referenceModifier, hl, if_true]
    exact bind_eq_ok_iff.2 ⟨_, hTarget, rfl⟩
  | @ownReference keyword name hk hType =>
    have hText := (Token.is_iff.1 hk).2
    have hBare : referenceModifier keyword type rest = .ok (⟨name, keyName⟩, rest) := by
      rw [referenceModifier_of_notBefore keyword type hr]
      exact withoutTarget_eq_ok.2 ⟨name, hType, rfl, rfl⟩
    simp only [List.cons_append, List.nil_append]
    rw [modifier_cons hk (by decide)]
    simp only [modifierAfter, hText]
    exact bind_eq_ok_iff.2 ⟨_, hBare, rfl⟩
  | @description keyword left text right hk hl hr =>
    have hText := (Token.is_iff.1 hk).2
    simp only [List.cons_append, List.nil_append]
    rw [modifier_cons hk (by decide)]
    simp only [modifierAfter, hText, bind_eq_ok_iff, Prod.exists, expect_eq_ok, any_eq_ok]
    exact ⟨_, ⟨left, rfl, hl⟩, text, _, rfl, _, ⟨right, rfl, hr⟩, rfl⟩
  | @quotedDefault keyword left text right hk hl hq hr =>
    have hText := (Token.is_iff.1 hk).2
    have hDefault :
        defaultText keyword (text :: right :: rest) = .ok (text.text, right :: rest) := by
      simp [defaultText, hq]
    simp only [List.cons_append, List.nil_append]
    rw [modifier_cons hk (by decide)]
    simp only [modifierAfter, hText, bind_eq_ok_iff, Prod.exists, expect_eq_ok]
    exact ⟨_, ⟨left, rfl, hl⟩, text.text, _, hDefault, _, ⟨right, rfl, hr⟩, rfl⟩
  | @wordDefault keyword left right texts hk hl hne hTexts hr =>
    have hText := (Token.is_iff.1 hk).2
    -- A default value without text is refused, so the words must not all be empty.
    have hNonempty : WordsNonempty texts := fun t ht => hw t (by simp [ht])
    simp only [List.cons_append, List.append_assoc, List.nil_append]
    rw [modifier_cons hk (by decide)]
    simp only [modifierAfter, hText, bind_eq_ok_iff, Prod.exists, expect_eq_ok]
    exact ⟨_, ⟨left, rfl, hl⟩, joined texts, _,
      defaultText_complete hne hTexts hNonempty hr, _, ⟨right, rfl, hr⟩, rfl⟩

theorem modifiers_sound {ms : List Modifier} (h : modifiers type ts = .ok (ms, rest)) :
    ∃ used semicolon, ts = used ++ semicolon :: rest ∧ semicolon.is ";" ∧
      AreModifiers type used ms := by
  fun_induction modifiers type ts generalizing ms rest with
  | case1 => simp at h
  | case2 t after ht =>
    simp only [Except.ok.injEq, Prod.mk.injEq] at h
    obtain ⟨rfl, rfl⟩ := h
    exact ⟨[], t, rfl, ht, AreModifiers.nil⟩
  | case3 => simp at h
  | case4 t after _ ht m more hm ih =>
    simp only [bind_eq_ok_iff, Prod.exists, Except.ok.injEq, Prod.mk.injEq] at h
    obtain ⟨ms', _, hms, rfl, rfl⟩ := h
    obtain ⟨used, rfl, hUsed⟩ := modifier_sound hm
    obtain ⟨others, semicolon, rfl, hs, hOthers⟩ := ih hms
    exact ⟨t :: (used ++ others), semicolon, by simp, hs, AreModifiers.cons ht hUsed hOthers⟩
  | case5 => simp at h

theorem modifiers_complete {ms : List Modifier} {semicolon : Token}
    (h : AreModifiers type used ms) (hw : WordsNonempty used) (hs : semicolon.is ";") :
    modifiers type (used ++ semicolon :: rest) = .ok (ms, rest) := by
  induction h with
  | nil =>
    unfold modifiers
    simp [hs]
  | @cons colon used others m ms hc hm hms ih =>
    have hOthers : WordsNonempty others := fun t ht => hw t (by simp [ht])
    have hUsed : WordsNonempty used := fun t ht => hw t (by simp [ht])
    -- What follows a modifier is the colon of the next one or the semicolon.
    have hNext : NotBefore "(" (others ++ semicolon :: rest) := by
      cases hms with
      | nil => exact notBefore_cons (Token.is_ne hs (by decide))
      | cons hc _ _ => exact notBefore_cons (Token.is_ne hc (by decide))
    have hModifier := modifier_complete hm hUsed hNext
    rw [List.cons_append, List.append_assoc]
    unfold modifiers
    simp only [Token.is_ne hc (by decide : ":" ≠ ";"), hc, Bool.false_eq_true, if_false, if_true]
    split
    · rename_i he
      rw [hModifier] at he
      cases he
    · rename_i m' more he
      rw [hModifier] at he
      cases he
      exact bind_eq_ok_iff.2 ⟨_, ih hOthers, rfl⟩

/-! ## Members -/

theorem member_sound {name : Token} {m : Member}
    (h : member model.isTypeName ts = .ok ((name, m), rest)) :
    ∃ used, ts = used ++ rest ∧ IsMember typeWords model used m := by
  simp only [member, bind_eq_ok_iff, Prod.exists, expect_eq_ok, identifier_eq_ok] at h
  obtain ⟨type, _, hType, _, ⟨colon, rfl, hc⟩, name', _, ⟨rfl, hName⟩, h⟩ := h
  obtain ⟨typeTokens, rfl, hTypeTokens⟩ := typeExpr_sound hType
  split at h
  · simp at h
  · rename_i hKey
    simp only [bind_eq_ok_iff, Prod.exists, Except.ok.injEq, Prod.mk.injEq] at h
    obtain ⟨ms, _, hms, ⟨rfl, rfl⟩, rfl⟩ := h
    obtain ⟨modifierTokens, semicolon, rfl, hs, hms⟩ := modifiers_sound hms
    refine ⟨typeTokens ++ colon :: name' :: (modifierTokens ++ [semicolon]), by simp, ?_⟩
    exact IsMember.intro hTypeTokens hc hName hKey hms hs

theorem member_complete {m : Member} (h : IsMember typeWords model used m)
    (hw : WordsNonempty used) :
    ∃ name, member model.isTypeName (used ++ rest) = .ok ((name, m), rest) := by
  cases h with
  | @intro typeTokens modifierTokens type colon name semicolon ms hType hc hName hKey hms hs =>
    have hModifiers : WordsNonempty modifierTokens := fun t ht => hw t (by simp [ht])
    refine ⟨name, ?_⟩
    simp only [List.append_assoc, List.cons_append, List.nil_append, member, bind_eq_ok_iff,
      Prod.exists, expect_eq_ok, identifier_eq_ok]
    refine ⟨type, _, typeExpr_complete hType, _, ⟨colon, rfl, hc⟩, name, _, ⟨rfl, hName⟩, ?_⟩
    rw [if_neg hKey, bind_eq_ok_iff]
    exact ⟨_, modifiers_complete hms hModifiers hs, rfl⟩

theorem apply_name (m : Member) (x : Modifier) : (x.apply m).name = m.name := by
  cases x <;> rfl

theorem foldl_apply_name (ms : List Modifier) (m : Member) :
    (ms.foldl Modifier.apply m).name = m.name := by
  induction ms generalizing m with
  | nil => rfl
  | cons x ms ih => rw [List.foldl_cons, ih, apply_name]

theorem isMember_name {words : List String} {m : Member} (h : IsMember words model used m) :
    m.name ≠ keyName := by
  cases h with
  | intro _ _ _ hKey _ _ =>
    rw [foldl_apply_name]
    exact hKey

theorem areMembers_name {words : List String} {ms : List Member}
    (h : AreMembers words model used ms) : ∀ m ∈ ms, m.name ≠ keyName := by
  induction h with
  | nil => simp
  | cons hm _ ih =>
    intro m hMem
    rcases List.mem_cons.1 hMem with rfl | hMem
    · exact isMember_name hm
    · exact ih m hMem

theorem addMember?_eq_some {s s' : Struct} {m : Member} : s.addMember? m = some s' ↔
    m.name ∉ s.members.map Member.name ∧ s' = { s with members := s.members ++ [m] } := by
  unfold Struct.addMember? Struct.hasMember
  split <;> grind

end

end Grammar

end EntitySchema
