import EntitySchema.Proofs.Uniformity
import EntitySchema.Proofs.Position

/-!
Complete declarations as blocks of tokens. A block has the form of a struct, an enum or a config
block; whether its names are new and its types known is left open. A block is read by itself,
whatever follows it: the reader accepts it or refuses it, and it never looks past its end.
-/

namespace EntitySchema

namespace Derivation

open Grammar (isIdentifier)

/-! ## Forms -/

/-- The form of a type: a word, or an array of such a form. -/
inductive TypeForm : List Token → Prop
  | array {keyword left right : Token} {inner : List Token} :
      keyword.is "array" → left.is "<" → TypeForm inner → right.is ">" →
      TypeForm (keyword :: left :: (inner ++ [right]))
  | word {t : Token} : isIdentifier t → t.is "array" = false → TypeForm [t]

/-- Modifiers, each after a colon. Each of them is one for some type of a member. -/
inductive ModifiersForm : List Token → Prop
  | nil : ModifiersForm []
  | cons {colon : Token} {used rest : List Token} {type : TypeExpr} {m : Grammar.Modifier} :
      colon.is ":" → IsModifier type used m → ModifiersForm rest →
      ModifiersForm (colon :: (used ++ rest))

inductive MemberForm : List Token → Prop
  | intro {typeTokens modifierTokens : List Token} {colon name semicolon : Token} :
      TypeForm typeTokens → colon.is ":" → isIdentifier name → ModifiersForm modifierTokens →
      semicolon.is ";" →
      MemberForm (typeTokens ++ colon :: name :: (modifierTokens ++ [semicolon]))

inductive MembersForm : List Token → Prop
  | nil : MembersForm []
  | cons {used rest : List Token} :
      MemberForm used → MembersForm rest → MembersForm (used ++ rest)

/-- The form of a value of an enum: a name, with or without a number. -/
inductive ValueForm : List Token → Prop
  | plain {name : Token} : isIdentifier name → ValueForm [name]
  | numbered {name equals number : Token} {i : Int} :
      isIdentifier name → equals.is "=" → number.quoted = false →
      Number.readSigned number.text = some i → ValueForm [name, equals, number]

inductive ValuesForm : List Token → Prop
  | nil : ValuesForm []
  | single {used : List Token} : ValueForm used → ValuesForm used
  | cons {used rest : List Token} {comma : Token} :
      ValueForm used → comma.is "," → ValuesForm rest → ValuesForm (used ++ comma :: rest)

/-- The form of a complete declaration: a struct, an enum or a config block. -/
inductive IsBlock : List Token → Prop
  | struct {keyword name left right : Token} {body finish : List Token} :
      keyword.is "struct" → isIdentifier name → left.is "\x7b" → MembersForm body →
      right.is "\x7d" → IsOptionalSemicolon finish →
      IsBlock (keyword :: name :: left :: (body ++ right :: finish))
  | enumeration {keyword name left right : Token} {body finish : List Token} :
      keyword.is "enum" → isIdentifier name → left.is "\x7b" → ValuesForm body →
      right.is "\x7d" → IsOptionalSemicolon finish →
      IsBlock (keyword :: name :: left :: (body ++ right :: finish))
  | config {used : List Token} : IsConfig used → IsBlock used

variable {words : List String} {model : Model} {used : List Token}

theorem IsType.form {type : TypeExpr} (h : IsType typeWords model used type) : TypeForm used := by
  induction h with
  | array hk hl _ hr ih => exact .array hk hl ih hr
  | @scalar t s hq hs =>
    have hWord : t.text = s.keyword := (Grammar.keyword_of_ofKeyword? hs).symm
    refine .word ?_ ?_
    · simp [isIdentifier, hq, hWord, Grammar.isName_keyword]
    · have hArray : s.keyword ≠ "array" := by cases s <;> decide
      simp [Token.is, hWord, hArray]
  | named hName hWords _ =>
    refine .word hName ?_
    rw [Bool.eq_false_iff]
    intro hArray
    apply hWords
    rw [(Token.is_iff.1 hArray).2]
    exact List.mem_cons_self

theorem AreModifiers.form {type : TypeExpr} {ms : List Grammar.Modifier}
    (h : AreModifiers type used ms) : ModifiersForm used := by
  induction h with
  | nil => exact .nil
  | cons hc hm _ ih => exact .cons hc hm ih

theorem AreMembers.form {ms : List Member} (h : AreMembers typeWords model used ms) :
    MembersForm used := by
  induction h with
  | nil => exact .nil
  | cons hm _ ih =>
    refine .cons ?_ ih
    cases hm with
    | intro hType hc hName _ hms hs => exact .intro hType.form hc hName hms.form hs

theorem AreValues.form {last : Option Int} {vs : List EnumValue} (h : AreValues last used vs) :
    ValuesForm used := by
  have hValue : ∀ {last : Option Int} {used : List Token} {v : EnumValue},
      IsValue last used v → ValueForm used := by
    intro last used v hv
    cases hv with
    | explicit hName _ he hq hn => exact .numbered hName he hq hn
    | first hName _ => exact .plain hName
    | next hName _ _ => exact .plain hName
  induction h with
  | nil => exact .nil
  | single hv => exact .single (hValue hv)
  | cons hv hc _ ih => exact .cons (hValue hv) hc ih

/-- What derives from the grammar has the form of a block. -/
theorem IsStruct.isBlock {s : Struct} (h : IsStruct typeWords model used s) : IsBlock used := by
  cases h with
  | intro hk hNew hl hBody _ hr hFinish =>
    exact .struct hk hNew.identifier hl hBody.form hr hFinish

theorem IsEnum.isBlock {e : Enumeration} (h : IsEnum model used e) : IsBlock used := by
  cases h with
  | intro hk hNew hl hBody _ hr hFinish =>
    exact .enumeration hk hNew.identifier hl hBody.form hr hFinish

/-! Positions play no part in the forms. -/

variable {us : List Token}

theorem TypeForm.congr (h : TypeForm used) (hs : SameText used us) : TypeForm us := by
  induction h generalizing us with
  | array hk hl _ hr ih =>
    obtain _ | ⟨_, _ | ⟨_, hs⟩⟩ := hs
    obtain ⟨_, _, rfl, hInner, _ | ⟨_, _ | _⟩⟩ := hs.append_left
    exact .array hk hl (ih hInner) hr
  | word hName hArray =>
    obtain _ | ⟨_, _ | _⟩ := hs
    exact .word hName hArray

theorem ModifiersForm.congr (h : ModifiersForm used) (hs : SameText used us) :
    ModifiersForm us := by
  induction h generalizing us with
  | nil =>
    cases hs
    exact .nil
  | cons hc hm _ ih =>
    obtain _ | ⟨_, hs⟩ := hs
    obtain ⟨_, _, rfl, hUsed, hRest⟩ := hs.append_left
    exact .cons hc (hm.congr hUsed) (ih hRest)

theorem MembersForm.congr (h : MembersForm used) (hs : SameText used us) : MembersForm us := by
  induction h generalizing us with
  | nil =>
    cases hs
    exact .nil
  | cons hm _ ih =>
    obtain ⟨_, _, rfl, hUsed, hRest⟩ := hs.append_left
    refine .cons ?_ (ih hRest)
    cases hm with
    | intro hType hc hName hms hSemicolon =>
      obtain ⟨_, _, rfl, hTypes, _ | ⟨_, _ | ⟨_, hMore⟩⟩⟩ := hUsed.append_left
      obtain ⟨_, _, rfl, hModifiers, _ | ⟨_, _ | _⟩⟩ := hMore.append_left
      exact .intro (hType.congr hTypes) hc hName (hms.congr hModifiers) hSemicolon

theorem ValueForm.congr (h : ValueForm used) (hs : SameText used us) : ValueForm us := by
  cases h with
  | plain hName =>
    obtain _ | ⟨_, _ | _⟩ := hs
    exact .plain hName
  | numbered hName he hq hi =>
    obtain _ | ⟨_, _ | ⟨_, _ | ⟨_, _ | _⟩⟩⟩ := hs
    exact .numbered hName he hq hi

theorem ValuesForm.congr (h : ValuesForm used) (hs : SameText used us) : ValuesForm us := by
  induction h generalizing us with
  | nil =>
    cases hs
    exact .nil
  | single hv => exact .single (hv.congr hs)
  | cons hv hc _ ih =>
    obtain ⟨_, _, rfl, hUsed, _ | ⟨_, hRest⟩⟩ := hs.append_left
    exact .cons (hv.congr hUsed) hc (ih hRest)

theorem IsBlock.congr (h : IsBlock used) (hs : SameText used us) : IsBlock us := by
  cases h with
  | struct hk hName hl hBody hr hFinish =>
    obtain _ | ⟨_, _ | ⟨_, _ | ⟨_, hs⟩⟩⟩ := hs
    obtain ⟨_, _, rfl, hBodies, _ | ⟨_, hFinishes⟩⟩ := hs.append_left
    exact .struct hk hName hl (hBody.congr hBodies) hr (optionalSemicolon_congr hFinish hFinishes)
  | enumeration hk hName hl hBody hr hFinish =>
    obtain _ | ⟨_, _ | ⟨_, _ | ⟨_, hs⟩⟩⟩ := hs
    obtain ⟨_, _, rfl, hBodies, _ | ⟨_, hFinishes⟩⟩ := hs.append_left
    exact .enumeration hk hName hl (hBody.congr hBodies) hr
      (optionalSemicolon_congr hFinish hFinishes)
  | config hConfig => exact .config (hConfig.congr hs)

end Derivation

namespace Grammar

open EntitySchema.Derivation

variable {used : List Token}

/-! ## Reading a form -/

/-- The result of reading `used`, or the error, is the same whatever comes after it, and what comes
after it is left. What may come after it can be restricted. -/
def ReadsAlone {α : Type} (f : List Token → Attempt (α × List Token))
    (Next : List Token → Prop) (used : List Token) : Prop :=
  ∃ o : Attempt α, ∀ rest, Next rest → f (used ++ rest) = o.map (fun a => (a, rest))

theorem typeExpr_alone (known : String → Bool) (h : TypeForm used) :
    ReadsAlone (typeExpr known) (fun _ => True) used := by
  induction h with
  | @array keyword left right inner hk hl _ hr ih =>
    obtain ⟨o, ho⟩ := ih
    refine ⟨o.map TypeExpr.array, fun rest _ => ?_⟩
    have hInner := ho (right :: rest) trivial
    simp only [List.cons_append, List.append_assoc, List.nil_append, typeExpr, hk, hl, if_true,
      hInner]
    cases o with
    | error e => rfl
    | ok element => simp [Except.map, bind, Except.bind, expect, hr]
  | @word t hName hArray =>
    -- A word is a scalar, a known name or refused, and none of this depends on what follows.
    cases hScalar : Scalar.ofKeyword? t.text with
    | some s =>
      refine ⟨.ok (.scalar s), fun rest _ => ?_⟩
      rw [List.singleton_append]
      unfold typeExpr
      simp [hArray, hName, hScalar, Except.map]
    | none =>
      cases hKnown : known t.text with
      | true =>
        refine ⟨.ok (.named t.text), fun rest _ => ?_⟩
        rw [List.singleton_append]
        unfold typeExpr
        simp [hArray, hName, hScalar, hKnown, Except.map]
      | false =>
        refine ⟨.error (.invalid t.position (.unknownType t.text)), fun rest _ => ?_⟩
        rw [List.singleton_append]
        unfold typeExpr
        simp [hArray, hName, hScalar, hKnown, Except.map]

/-- A modifier that fits another type than that of the member is refused, but as a whole. -/
theorem modifier_alone (type : TypeExpr) {type' : TypeExpr} {m : Modifier}
    (h : IsModifier type' used m) : ReadsAlone (modifier type) (NotBefore "(") used := by
  cases h with
  | @flag keyword word m hk hm =>
    simp only [flagWords, List.mem_cons, Prod.mk.injEq, List.not_mem_nil, or_false] at hm
    have hText := (Token.is_iff.1 hk).2
    refine ⟨.ok m, fun rest _ => ?_⟩
    rcases hm with ⟨rfl, rfl⟩ | ⟨rfl, rfl⟩ | ⟨rfl, rfl⟩ | ⟨rfl, rfl⟩ | ⟨rfl, rfl⟩
    all_goals
      rw [List.singleton_append, modifier_cons hk (by decide)]
      simp only [modifierAfter, hText]
      rfl
  | @bound keyword left number right word make n hk hm _ hl hq hn hr =>
    simp only [boundWords, List.mem_cons, Prod.mk.injEq, List.not_mem_nil, or_false] at hm
    have hText := (Token.is_iff.1 hk).2
    have hBound : ∀ rest, itemBound (left :: number :: right :: rest) = .ok (n, rest) :=
      fun rest => itemBound_eq_ok.2 ⟨left, number, right, rfl, hl, hq, hn, hr⟩
    cases hArray : type.isArray with
    | true =>
      refine ⟨.ok (make n), fun rest _ => ?_⟩
      rcases hm with ⟨rfl, rfl⟩ | ⟨rfl, rfl⟩
      all_goals
        simp only [List.cons_append, List.nil_append]
        rw [modifier_cons hk (by decide)]
        simp only [modifierAfter, hText, hArray, if_true, hBound]
        rfl
    | false =>
      refine ⟨.error (.invalid keyword.position (.boundsWithoutArray keyword.text)),
        fun rest _ => ?_⟩
      rcases hm with ⟨rfl, rfl⟩ | ⟨rfl, rfl⟩
      all_goals
        simp only [List.cons_append, List.nil_append]
        rw [modifier_cons hk (by decide)]
        simp only [modifierAfter, hText, hArray]
        rfl
  | @reference keyword left struct dot field right hk hl hs hd hf hr =>
    have hText := (Token.is_iff.1 hk).2
    refine ⟨.ok (.reference ⟨struct.text, field.text⟩), fun rest _ => ?_⟩
    have hTarget : referenceTarget (struct :: dot :: field :: right :: rest) =
        .ok (⟨struct.text, field.text⟩, rest) :=
      referenceTarget_eq_ok.2 ⟨struct, dot, field, right, rfl, hs, hd, hf, hr, rfl⟩
    simp only [List.cons_append, List.nil_append]
    rw [modifier_cons hk (by decide)]
    simp only [modifierAfter, hText, referenceModifier, hl, if_true, hTarget]
    rfl
  | @ownReference keyword name hk _ =>
    have hText := (Token.is_iff.1 hk).2
    -- An opening parenthesis after the word would start a target.
    have hBare : ∀ rest, NotBefore "(" rest → referenceModifier keyword type rest =
        referenceModifier.withoutTarget keyword type rest :=
      fun rest hr => referenceModifier_of_notBefore keyword type hr
    cases hType : type.named? with
    | some name =>
      refine ⟨.ok (.reference ⟨name, keyName⟩), fun rest hr => ?_⟩
      rw [List.singleton_append, modifier_cons hk (by decide)]
      simp only [modifierAfter, hText, hBare rest hr, referenceModifier.withoutTarget, hType]
      rfl
    | none =>
      refine ⟨.error (.invalid keyword.position .referenceWithoutTarget), fun rest hr => ?_⟩
      rw [List.singleton_append, modifier_cons hk (by decide)]
      simp only [modifierAfter, hText, hBare rest hr, referenceModifier.withoutTarget, hType]
      rfl
  | @description keyword left text right hk hl hr =>
    have hText := (Token.is_iff.1 hk).2
    refine ⟨.ok (.description text.text), fun rest _ => ?_⟩
    simp only [List.cons_append, List.nil_append]
    rw [modifier_cons hk (by decide)]
    simp [modifierAfter, hText, expect, any, hl, hr, bind, Except.bind, Except.map]
  | @quotedDefault keyword left text right hk hl hq hr =>
    have hText := (Token.is_iff.1 hk).2
    refine ⟨.ok (.defaultValue text.text), fun rest _ => ?_⟩
    simp only [List.cons_append, List.nil_append]
    rw [modifier_cons hk (by decide)]
    simp [modifierAfter, hText, expect, defaultText, hl, hq, hr, bind, Except.bind, Except.map]
  | @wordDefault keyword left right texts hk hl hne hTexts hr =>
    have hText := (Token.is_iff.1 hk).2
    have hDefault : ∀ rest, defaultText keyword (texts ++ right :: rest) =
        if joined texts = "" then .error (.invalid keyword.position .emptyDefault)
        else .ok (joined texts, right :: rest) := by
      intro rest
      have hUnquoted : unquotedDefault (texts ++ right :: rest) =
          .ok (joined texts, right :: rest) := unquotedDefault_complete hTexts hr
      cases texts with
      | nil => exact absurd rfl hne
      | cons t texts =>
        have hq : t.quoted = false := (hTexts t List.mem_cons_self).1
        rw [List.cons_append] at hUnquoted ⊢
        simp only [defaultText, hq, Bool.false_eq_true, if_false, hUnquoted]
        rfl
    -- Words that make up an empty text are read to their end and then refused.
    by_cases hEmpty : joined texts = ""
    · refine ⟨.error (.invalid keyword.position .emptyDefault), fun rest _ => ?_⟩
      simp only [List.cons_append, List.append_assoc, List.nil_append]
      rw [modifier_cons hk (by decide)]
      simp [modifierAfter, hText, expect, hDefault, hl, hEmpty, bind, Except.bind, Except.map]
    · refine ⟨.ok (.defaultValue (joined texts)), fun rest _ => ?_⟩
      simp only [List.cons_append, List.append_assoc, List.nil_append]
      rw [modifier_cons hk (by decide)]
      simp [modifierAfter, hText, expect, hDefault, hl, hr, hEmpty, bind, Except.bind, Except.map]

theorem modifiers_alone (type : TypeExpr) {semicolon : Token} (h : ModifiersForm used)
    (hs : semicolon.is ";") :
    ReadsAlone (modifiers type) (fun _ => True) (used ++ [semicolon]) := by
  induction h with
  | nil =>
    refine ⟨.ok [], fun rest _ => ?_⟩
    rw [List.nil_append, List.singleton_append, modifiers_cons, if_pos hs]
    rfl
  | @cons colon used others type' m hc hm hOthers ih =>
    obtain ⟨first, hFirst⟩ := modifier_alone type hm
    obtain ⟨o, ho⟩ := ih
    -- What follows a modifier is the colon of the next one or the semicolon.
    have hNext : ∀ rest, NotBefore "(" (others ++ semicolon :: rest) := by
      intro rest
      cases hOthers with
      | nil => exact notBefore_cons (Token.is_ne hs (by decide))
      | cons hc _ _ => exact notBefore_cons (Token.is_ne hc (by decide))
    have hStep : ∀ rest, modifiers type (colon :: (used ++ others) ++ [semicolon] ++ rest) =
        (first.map (fun m => (m, others ++ semicolon :: rest)) >>= fun x =>
          modifiers type x.2 >>= fun y => .ok (x.1 :: y.1, y.2)) := by
      intro rest
      simp only [List.cons_append, List.append_assoc, List.nil_append]
      rw [modifiers_cons, if_neg (by simp [Token.is_ne hc (by decide : ":" ≠ ";")]), if_pos hc,
        hFirst _ (hNext rest)]
    cases first with
    | error e => exact ⟨.error e, fun rest _ => hStep rest⟩
    | ok m =>
      refine ⟨o.map (fun ms => m :: ms), fun rest _ => ?_⟩
      have hRest := ho rest trivial
      rw [List.append_assoc, List.singleton_append] at hRest
      rw [hStep]
      change (modifiers type (others ++ semicolon :: rest) >>= fun y => _) = _
      rw [hRest]
      cases o <;> rfl

theorem typeForm_head (h : TypeForm used) : ∃ t more, used = t :: more ∧ isIdentifier t := by
  cases h with
  | array hk _ _ _ => exact ⟨_, _, rfl, isIdentifier_of_is hk (by decide)⟩
  | word hName _ => exact ⟨_, _, rfl, hName⟩

theorem member_alone (known : String → Bool) (h : MemberForm used) :
    ReadsAlone (member known) (fun _ => True) used := by
  cases h with
  | @intro typeTokens modifierTokens colon name semicolon hType hc hName hms hs =>
    obtain ⟨o, ho⟩ := typeExpr_alone known hType
    have hStep : ∀ rest, member known
        (typeTokens ++ colon :: name :: (modifierTokens ++ [semicolon]) ++ rest) =
        (o.map (fun type => (type, colon :: name :: (modifierTokens ++ [semicolon] ++ rest))) >>=
          fun x => if name.text = keyName then .error (.invalid name.position .reservedKey)
            else modifiers x.1 (modifierTokens ++ [semicolon] ++ rest) >>= fun y =>
              .ok ((name, y.1.foldl Modifier.apply (bareMember x.1 name)), y.2)) := by
      intro rest
      rw [List.append_assoc, List.cons_append, List.cons_append]
      unfold member
      rw [ho _ trivial]
      cases o with
      | error e => rfl
      | ok type => simp [Except.map, bind, Except.bind, expect, identifier, hc, hName, bareMember]
    cases o with
    | error e => exact ⟨.error e, fun rest _ => hStep rest⟩
    | ok type =>
      by_cases hKey : name.text = keyName
      · refine ⟨.error (.invalid name.position .reservedKey), fun rest _ => ?_⟩
        rw [hStep]
        simp [Except.map, bind, Except.bind, hKey]
      · obtain ⟨o, ho⟩ := modifiers_alone type hms hs
        refine ⟨o.map (fun ms => (name, ms.foldl Modifier.apply (bareMember type name))),
          fun rest _ => ?_⟩
        rw [hStep]
        simp only [Except.map, bind, Except.bind, hKey, if_false]
        rw [ho rest trivial]
        cases o <;> rfl

theorem members_alone (known : String → Bool) {right : Token} (h : MembersForm used)
    (hr : right.is "\x7d") (s : Struct) :
    ReadsAlone (members known s) (fun _ => True) (used ++ [right]) := by
  induction h generalizing s with
  | nil =>
    refine ⟨.ok s, fun rest _ => ?_⟩
    rw [List.nil_append, List.singleton_append, members_cons, if_pos hr]
    rfl
  | @cons used others hm _ ih =>
    obtain ⟨first, hFirst⟩ := member_alone known hm
    -- A member starts with a name, so the loop does not take it for the closing brace.
    obtain ⟨t, more, rfl, ht⟩ : ∃ t more, used = t :: more ∧ isIdentifier t := by
      cases hm with
      | intro hType _ _ _ _ =>
        obtain ⟨t, more, rfl, ht⟩ := typeForm_head hType
        exact ⟨t, _, rfl, ht⟩
    have hStep : ∀ rest, members known s (t :: more ++ others ++ [right] ++ rest) =
        (first.map (fun x => (x, others ++ [right] ++ rest)) >>= membersAfter known s) := by
      intro rest
      have hOpen : t.is "\x7d" = false := not_is_of_isIdentifier ht (by decide)
      rw [← hFirst _ trivial]
      simp only [List.cons_append, List.append_assoc]
      rw [members_cons, if_neg (by simp [hOpen])]
    cases first with
    | error e => exact ⟨.error e, fun rest _ => hStep rest⟩
    | ok x =>
      obtain ⟨name, m⟩ := x
      cases hAdd : s.addMember? m with
      | none =>
        refine ⟨.error (.invalid name.position (.declaredTwice name.text s.name)),
          fun rest _ => ?_⟩
        rw [hStep]
        simp [Except.map, bind, Except.bind, membersAfter, hAdd]
      | some s' =>
        obtain ⟨o, ho⟩ := ih s'
        refine ⟨o, fun rest _ => ?_⟩
        rw [hStep, ← ho rest trivial]
        simp [Except.map, bind, Except.bind, membersAfter, hAdd]

theorem valueNumber_alone {name : Token} (last : Option Int) (h : ValueForm (name :: used)) :
    ReadsAlone (valueNumber name last) (NotBefore "=") used := by
  cases h with
  | plain hName =>
    have hImplicit : ∀ rest, NotBefore "=" rest →
        valueNumber name last rest = valueNumber.implicit name last rest := by
      intro rest hNext
      cases rest with
      | nil => rfl
      | cons t rest =>
        have ht : t.is "=" = false := hNext t rfl
        simp [valueNumber, ht]
    cases hValue : implicitValue last with
    | some i =>
      refine ⟨.ok i, fun rest hNext => ?_⟩
      rw [List.nil_append, hImplicit rest hNext]
      simp [valueNumber.implicit, hValue, Except.map]
    | none =>
      refine ⟨.error (.invalid name.position .valueOverflow), fun rest hNext => ?_⟩
      rw [List.nil_append, hImplicit rest hNext]
      simp [valueNumber.implicit, hValue, Except.map]
  | @numbered _ equals number i hName he hq hn =>
    refine ⟨.ok i, fun rest _ => ?_⟩
    simp [valueNumber, he, Grammar.number, hq, hn, Except.map]

/-- One value is read and added, or it is refused. -/
theorem values_first (e : Enumeration) (last : Option Int) (h : ValueForm used) :
    ∃ o : Attempt (Enumeration × Int), ∀ (after : Token) (rest : List Token),
      after.is "=" = false →
      values e last (used ++ after :: rest) =
        o >>= fun x => valuesAfter x.1 x.2 (after :: rest) := by
  obtain ⟨name, more, rfl, hName⟩ : ∃ name more, used = name :: more ∧ isIdentifier name := by
    cases h with
    | plain hName => exact ⟨_, _, rfl, hName⟩
    | numbered hName _ _ _ => exact ⟨_, _, rfl, hName⟩
  have hOpen : name.is "\x7d" = false := not_is_of_isIdentifier hName (by decide)
  obtain ⟨number, hNumber⟩ := valueNumber_alone last h
  have hStep : ∀ (after : Token) (rest : List Token), after.is "=" = false →
      values e last (name :: more ++ after :: rest) =
        if name.text = unknownName then .error (.invalid name.position .reservedUnknown)
        else number.map (fun i => (i, after :: rest)) >>= valueAfter e name := by
    intro after rest hAfter
    rw [List.cons_append, values_cons, if_neg (by simp [hOpen]), if_neg (by simp [hName]),
      hNumber _ (notBefore_cons hAfter)]
  by_cases hUnknown : name.text = unknownName
  · refine ⟨.error (.invalid name.position .reservedUnknown), fun after rest hAfter => ?_⟩
    rw [hStep after rest hAfter, if_pos hUnknown]
    rfl
  · cases number with
    | error f =>
      refine ⟨.error f, fun after rest hAfter => ?_⟩
      rw [hStep after rest hAfter, if_neg hUnknown]
      rfl
    | ok i =>
      cases hAdd : e.addValue? name.text i with
      | none =>
        refine ⟨.error (.invalid name.position (.declaredTwice name.text e.name)),
          fun after rest hAfter => ?_⟩
        rw [hStep after rest hAfter, if_neg hUnknown]
        simp [Except.map, bind, Except.bind, valueAfter, hAdd]
      | some e' =>
        refine ⟨.ok (e', i), fun after rest hAfter => ?_⟩
        rw [hStep after rest hAfter, if_neg hUnknown]
        simp [Except.map, bind, Except.bind, valueAfter, hAdd]

theorem values_alone {right : Token} (h : ValuesForm used) (hr : right.is "\x7d")
    (e : Enumeration) (last : Option Int) :
    ReadsAlone (values e last) (fun _ => True) (used ++ [right]) := by
  induction h generalizing e last with
  | nil =>
    refine ⟨.ok e, fun rest _ => ?_⟩
    rw [List.nil_append, List.singleton_append, values_cons, if_pos hr]
    rfl
  | @single used hv =>
    obtain ⟨o, ho⟩ := values_first e last hv
    refine ⟨o.map Prod.fst, fun rest _ => ?_⟩
    rw [List.append_assoc, List.singleton_append, ho right rest (Token.is_ne hr (by decide))]
    cases o with
    | error f => rfl
    | ok x =>
      simp [Except.map, bind, Except.bind, valuesAfter, hr,
        Token.is_ne hr (by decide : "\x7d" ≠ ",")]
  | @cons used others comma hv hc _ ih =>
    obtain ⟨o, ho⟩ := values_first e last hv
    have hStep : ∀ rest, values e last (used ++ comma :: others ++ [right] ++ rest) =
        o >>= fun x => valuesAfter x.1 x.2 (comma :: (others ++ [right] ++ rest)) := by
      intro rest
      rw [← ho comma _ (Token.is_ne hc (by decide))]
      simp only [List.append_assoc, List.cons_append]
    cases o with
    | error f => exact ⟨.error f, fun rest _ => hStep rest⟩
    | ok x =>
      obtain ⟨o, ho⟩ := ih x.1 (some x.2)
      refine ⟨o, fun rest _ => ?_⟩
      rw [hStep, ← ho rest trivial]
      simp [bind, Except.bind, valuesAfter, hc]

/-! ## Reading a block -/

/-- A name is new, or it is refused. -/
theorem newName_alone (model : Model) (expected : Expected) {name : Token}
    (h : isIdentifier name) : ReadsAlone (newName model expected) (fun _ => True) [name] := by
  have hStep : ∀ rest, newName model expected ([name] ++ rest) =
      if isReserved name.text then .error (.invalid name.position (.reservedName name.text))
      else if model.isDeclared name.text then
        .error (.invalid name.position (.alreadyDeclared name.text))
      else .ok (name, rest) := by
    intro rest
    simp [newName, identifier, h, bind, Except.bind]
  by_cases hReserved : isReserved name.text = true
  · refine ⟨.error (.invalid name.position (.reservedName name.text)), fun rest _ => ?_⟩
    rw [hStep, if_pos hReserved]
    rfl
  · by_cases hDeclared : model.isDeclared name.text = true
    · refine ⟨.error (.invalid name.position (.alreadyDeclared name.text)), fun rest _ => ?_⟩
      rw [hStep, if_neg hReserved, if_pos hDeclared]
      rfl
    · refine ⟨.ok name, fun rest _ => ?_⟩
      rw [hStep, if_neg hReserved, if_neg hDeclared]
      rfl

section

variable {keyword name left right : Token} {body finish : List Token}

theorem struct_alone (model : Model) (hName : isIdentifier name) (hl : left.is "\x7b")
    (hBody : MembersForm body) (hr : right.is "\x7d") (hFinish : IsOptionalSemicolon finish) :
    ReadsAlone (struct model) (Closes (keyword :: name :: left :: (body ++ right :: finish)))
      (name :: left :: (body ++ right :: finish)) := by
  obtain ⟨first, hFirst⟩ := newName_alone model .structName hName
  have hNames : ∀ rest, newName model .structName
      (name :: left :: (body ++ right :: finish) ++ rest) =
        first.map (fun n => (n, left :: (body ++ [right] ++ (finish ++ rest)))) := by
    intro rest
    rw [← hFirst _ trivial]
    simp
  cases first with
  | error e =>
    refine ⟨.error e, fun rest _ => ?_⟩
    rw [struct, hNames]
    rfl
  | ok n =>
    obtain ⟨o, ho⟩ := members_alone model.isTypeName hBody hr
      { name := n.text, position := n.position }
    refine ⟨o.map Struct.close, fun rest hNext => ?_⟩
    -- If the block has no semicolon at its end, none follows it that could be taken for its own.
    have hAfter : optionalSemicolon (finish ++ rest) = rest :=
      optionalSemicolon_append (keyword :: name :: left :: body) hFinish hr hNext
    rw [struct, hNames]
    simp only [Except.map, bind, Except.bind, expect, hl, if_true]
    rw [ho _ trivial]
    cases o with
    | error e => rfl
    | ok s => simp [Except.map, hAfter]

theorem enumeration_alone (model : Model) (hName : isIdentifier name) (hl : left.is "\x7b")
    (hBody : ValuesForm body) (hr : right.is "\x7d") (hFinish : IsOptionalSemicolon finish) :
    ReadsAlone (enumeration model) (Closes (keyword :: name :: left :: (body ++ right :: finish)))
      (name :: left :: (body ++ right :: finish)) := by
  obtain ⟨first, hFirst⟩ := newName_alone model .enumName hName
  have hNames : ∀ rest, newName model .enumName
      (name :: left :: (body ++ right :: finish) ++ rest) =
        first.map (fun n => (n, left :: (body ++ [right] ++ (finish ++ rest)))) := by
    intro rest
    rw [← hFirst _ trivial]
    simp
  cases first with
  | error e =>
    refine ⟨.error e, fun rest _ => ?_⟩
    rw [enumeration, hNames]
    rfl
  | ok n =>
    obtain ⟨o, ho⟩ := values_alone hBody hr { name := n.text, position := n.position } none
    refine ⟨o.map Enumeration.close, fun rest hNext => ?_⟩
    have hAfter : optionalSemicolon (finish ++ rest) = rest :=
      optionalSemicolon_append (keyword :: name :: left :: body) hFinish hr hNext
    rw [enumeration, hNames]
    simp only [Except.map, bind, Except.bind, expect, hl, if_true]
    rw [ho _ trivial]
    cases o with
    | error e => rfl
    | ok e => simp [Except.map, hAfter]

end

/-- What a block is read as, in view of a model, does not depend on what follows it. -/
theorem declaration_alone (model : Model) {t : Token} {ts : List Token} (h : IsBlock (t :: ts)) :
    ReadsAlone (declaration model t) (Closes (t :: ts)) ts := by
  generalize hBlock : t :: ts = block at h
  cases h with
  | struct hk hName hl hBody hr hFinish =>
    obtain ⟨rfl, rfl⟩ := List.cons.inj hBlock
    obtain ⟨o, ho⟩ := struct_alone model hName hl hBody hr hFinish
    refine ⟨o.map Declaration.struct, fun rest hNext => ?_⟩
    simp only [declaration, hk, Token.is_ne hk (by decide : "struct" ≠ "include"),
      Bool.false_eq_true, if_false, if_true]
    rw [ho rest hNext]
    cases o <;> rfl
  | enumeration hk hName hl hBody hr hFinish =>
    obtain ⟨rfl, rfl⟩ := List.cons.inj hBlock
    obtain ⟨o, ho⟩ := enumeration_alone model hName hl hBody hr hFinish
    refine ⟨o.map Declaration.enumeration, fun rest hNext => ?_⟩
    simp only [declaration, hk, Token.is_ne hk (by decide : "enum" ≠ "include"),
      Token.is_ne hk (by decide : "enum" ≠ "struct"), Bool.false_eq_true, if_false, if_true]
    rw [ho rest hNext]
    cases o <;> rfl
  | config hConfig =>
    refine ⟨.ok .config, fun rest _ => ?_⟩
    obtain ⟨keyword, more, hUsed, _, hd⟩ := config_complete model rest hConfig
    obtain ⟨rfl, rfl⟩ := List.cons.inj (hBlock.trans hUsed)
    exact hd

/-! ## Runs over blocks -/

/-- The model after a declaration. -/
def Declaration.declareIn (model : Model) : Declaration → Model
  | struct s => model.declareStruct s
  | enumeration e => model.declareEnum e
  | _ => model

/-- What a block by itself declares in view of a model. -/
def readBlock (model : Model) : List Token → Option Declaration
  | [] => none
  | t :: ts => (declaration model t ts).toOption.map Prod.fst

theorem readBlock_cons_eq_some {model : Model} {t : Token} {ts : List Token} {d : Declaration} :
    readBlock model (t :: ts) = some d ↔ ∃ rest, declaration model t ts = .ok (d, rest) := by
  simp only [readBlock]
  cases declaration model t ts with
  | error e => simp [Except.toOption]
  | ok x =>
    obtain ⟨d', rest⟩ := x
    simp [Except.toOption]

/-- The model after some blocks. -/
def readBlocks (model : Model) : List (List Token) → Option Model
  | [] => some model
  | block :: blocks => (readBlock model block).bind fun d => readBlocks (d.declareIn model) blocks

theorem isBlock_head {block : List Token} (h : IsBlock block) :
    ∃ t ts, block = t :: ts ∧ (t.is "struct" ∨ t.is "enum" ∨ t.is "config") := by
  cases h with
  | struct hk => exact ⟨_, _, rfl, Or.inl hk⟩
  | enumeration hk => exact ⟨_, _, rfl, Or.inr (Or.inl hk)⟩
  | config hConfig =>
    cases hConfig with
    | intro hk => exact ⟨_, _, rfl, Or.inr (Or.inr hk)⟩

theorem not_include_of_isBlock {t : Token} {ts : List Token} (h : IsBlock (t :: ts)) :
    t.is "include" = false := by
  obtain ⟨_, _, hBlock, hk⟩ := isBlock_head h
  obtain ⟨rfl, rfl⟩ := List.cons.inj hBlock
  rcases hk with hk | hk | hk
  all_goals exact Token.is_ne hk (by decide)

theorem notBefore_flatten {blocks : List (List Token)} (h : ∀ b ∈ blocks, IsBlock b) :
    NotBefore ";" blocks.flatten := by
  cases blocks with
  | nil => exact notBefore_nil ";"
  | cons block blocks =>
    obtain ⟨t, ts, rfl, hk⟩ := isBlock_head (h block List.mem_cons_self)
    rw [List.flatten_cons, List.cons_append]
    apply notBefore_cons
    rcases hk with hk | hk | hk
    all_goals exact Token.is_ne hk (by decide)

/-- A block at the front of some tokens is read as it is read alone. -/
theorem declaration_block {model : Model} {t : Token} {ts rest rest' : List Token}
    {d : Declaration} (h : IsBlock (t :: ts)) (hNext : Closes (t :: ts) rest) :
    declaration model t (ts ++ rest) = .ok (d, rest') ↔
      readBlock model (t :: ts) = some d ∧ rest' = rest := by
  obtain ⟨o, ho⟩ := declaration_alone model h
  have hAlone := ho [] (Or.inr (notBefore_nil ";"))
  rw [List.append_nil] at hAlone
  rw [ho rest hNext, readBlock, hAlone]
  cases o with
  | error e => simp [Except.map, Except.toOption]
  | ok d' => simp [Except.map, Except.toOption, eq_comm]

/-- What a block declares is no inclusion. -/
theorem readBlock_cases {model : Model} {block : List Token} {d : Declaration}
    (h : IsBlock block) (hd : readBlock model block = some d) :
    (∃ s, d = .struct s) ∨ (∃ e, d = .enumeration e) ∨ d = .config := by
  obtain ⟨t, ts, rfl, _⟩ := isBlock_head h
  have hAlone : declaration model t (ts ++ []) = .ok (d, []) :=
    (declaration_block h (Or.inr (notBefore_nil ";"))).2 ⟨hd, rfl⟩
  cases d with
  | struct s => exact Or.inl ⟨s, rfl⟩
  | enumeration e => exact Or.inr (Or.inl ⟨e, rfl⟩)
  | config => exact Or.inr (Or.inr rfl)
  | includes position path =>
    have hInclude := is_include_of_declaration hAlone
    rw [not_include_of_isBlock h] at hInclude
    cases hInclude

end Grammar

namespace Reader

open Grammar EntitySchema.Derivation

variable {inclusion : Reader → Position → Path → Outcome} {file : Path}

/-- Reading blocks that stand one after the other: the step over one block, and the run. -/
theorem declarations_blocks_iff {r r' : Reader} {blocks : List (List Token)}
    (h : ∀ b ∈ blocks, IsBlock b) :
    declarations inclusion file r blocks.flatten = (r', .ok ()) ↔
      ∃ final, readBlocks r.model blocks = some final ∧ r' = { r with model := final } := by
  induction blocks generalizing r with
  | nil =>
    rw [List.flatten_nil, declarations_nil]
    simp [readBlocks, eq_comm]
  | cons block blocks ih =>
    obtain ⟨hBlock, hBlocks⟩ := List.forall_mem_cons.1 h
    obtain ⟨t, ts, rfl, _⟩ := isBlock_head hBlock
    have hNext : Closes (t :: ts) blocks.flatten := Or.inr (notBefore_flatten hBlocks)
    rw [List.flatten_cons, List.cons_append]
    cases hRead : readBlock r.model (t :: ts) with
    | none =>
      cases hd : declaration r.model t (ts ++ blocks.flatten) with
      | error e => simp [declarations_error hd, readBlocks, hRead]
      | ok x =>
        obtain ⟨hSome, _⟩ := (declaration_block hBlock hNext).1 hd
        rw [hRead] at hSome
        cases hSome
    | some d =>
      have hd := (declaration_block hBlock hNext).2 ⟨hRead, rfl⟩
      have hNextModel : readBlocks r.model ((t :: ts) :: blocks) =
          readBlocks (d.declareIn r.model) blocks := by simp [readBlocks, hRead]
      rw [hNextModel]
      rcases readBlock_cases hBlock hRead with ⟨s, rfl⟩ | ⟨e, rfl⟩ | rfl
      · rw [declarations_struct hd]
        exact ih hBlocks
      · rw [declarations_enumeration hd]
        exact ih hBlocks
      · rw [declarations_config hd]
        exact ih hBlocks

/-- The word `include` stands after complete declarations, where another one could start. -/
def HasDirective (ts : List Token) : Prop :=
  ∃ (blocks : List (List Token)) (t : Token) (rest : List Token), (∀ b ∈ blocks, IsBlock b) ∧
    ts = blocks.flatten ++ t :: rest ∧ t.is "include"

/-- What is read without an error and without an inclusion is a sequence of blocks. -/
theorem exists_blocks {r r' : Reader} {ts : List Token}
    (h : declarations inclusion file r ts = (r', .ok ())) (hInclude : ¬ HasDirective ts) :
    ∃ blocks : List (List Token), ts = blocks.flatten ∧ ∀ b ∈ blocks, IsBlock b := by
  -- An inclusion further on would be one of all the tokens.
  have hLater : ∀ {used rest : List Token}, IsBlock used → ¬ HasDirective (used ++ rest) →
      ¬ HasDirective rest := by
    rintro used rest hUsed hInclude ⟨blocks, t, after, hBlocks, rfl, ht⟩
    exact hInclude ⟨used :: blocks, t, after, List.forall_mem_cons.2 ⟨hUsed, hBlocks⟩, by simp, ht⟩
  have hFirst : ∀ {used rest : List Token}, IsBlock used →
      (∃ blocks : List (List Token), rest = blocks.flatten ∧ ∀ b ∈ blocks, IsBlock b) →
      ∃ blocks : List (List Token), used ++ rest = blocks.flatten ∧ ∀ b ∈ blocks, IsBlock b := by
    rintro used _ hUsed ⟨blocks, rfl, hBlocks⟩
    exact ⟨used :: blocks, rfl, List.forall_mem_cons.2 ⟨hUsed, hBlocks⟩⟩
  fun_induction declarations inclusion file r ts with
  | case1 r => exact ⟨[], rfl, by simp⟩
  | case2 => simp at h
  | case3 r t ts s after hd ih =>
    obtain ⟨used, hUsed, hs, _⟩ := isStruct_of_declaration hd
    rw [hUsed] at hInclude ⊢
    exact hFirst hs.isBlock (ih h (hLater hs.isBlock hInclude))
  | case4 r t ts e after hd ih =>
    obtain ⟨used, hUsed, he, _⟩ := isEnum_of_declaration hd
    rw [hUsed] at hInclude ⊢
    exact hFirst he.isBlock (ih h (hLater he.isBlock hInclude))
  | case5 r t ts after hd ih =>
    obtain ⟨used, hUsed, hc⟩ := isConfig_of_declaration hd
    rw [hUsed] at hInclude ⊢
    exact hFirst (.config hc) (ih h (hLater (.config hc) hInclude))
  | case6 r t ts position written after hd =>
    exact absurd ⟨[], t, ts, by simp, rfl, is_include_of_declaration hd⟩ hInclude
  | case7 => simp at h

end Reader

end EntitySchema
