import EntitySchema.Schema.Grammar.Basic

/-!
The members of structs: a type, a name and modifiers, as in `string: title: required: default("");`.
-/

namespace EntitySchema.Grammar

/-- A modifier of a member. -/
inductive Modifier where
  | required (on : Bool)
  | unique
  | autoIncrement
  | primaryKey
  | minItems (n : Nat)
  | maxItems (n : Nat)
  | reference (target : Reference)
  | description (text : String)
  | defaultValue (text : String)
  deriving DecidableEq, Repr

/-- The member with the modifier put to it. A later modifier of the same kind wins. -/
def Modifier.apply (m : Member) : Modifier → Member
  | required on => { m with required := on }
  | unique => { m with unique := true }
  | autoIncrement => { m with autoIncrement := true }
  | primaryKey => { m with primaryKey := true }
  | minItems n => { m with minItems := some n }
  | maxItems n => { m with maxItems := some n }
  | reference target => { m with reference := some target }
  | description text => { m with description := some text }
  | defaultValue text => { m with defaultValue := some text }

/-- The argument of a bound on the number of items. -/
def itemBound (ts : List Token) : Attempt (Nat × List Token) := do
  let ts ← expect "(" ts
  let (n, ts) ← number Number.readUnsigned .natural ts
  let ts ← expect ")" ts
  .ok (n, ts)

/-- The target of a reference, after its opening parenthesis. -/
def referenceTarget (ts : List Token) : Attempt (Reference × List Token) := do
  let (struct, ts) ← identifier .structName ts
  let ts ← expect "." ts
  let (field, ts) ← identifier .fieldName ts
  let ts ← expect ")" ts
  .ok (⟨struct.text, field.text⟩, ts)

/-- A reference with its target, or without one, when it leads to the key of the struct that the
member is typed with. -/
def referenceModifier (keyword : Token) (type : TypeExpr) :
    List Token → Attempt (Reference × List Token)
  | [] => withoutTarget []
  | t :: rest => if t.is "(" then referenceTarget rest else withoutTarget (t :: rest)
where
  withoutTarget (ts : List Token) : Attempt (Reference × List Token) :=
    match type.named? with
    | some name => .ok (⟨name, keyName⟩, ts)
    | none => .error (.invalid keyword.position .referenceWithoutTarget)

/-- The tokens of an unquoted default value up to its closing parenthesis, joined together. -/
def unquotedDefault : List Token → Attempt (String × List Token)
  | [] => .error (.endOfInput .defaultEnd)
  | t :: rest =>
    if t.is ")" then .ok ("", t :: rest)
    else if t.quoted || t.is ";" then .error (.unexpected t (.word ")"))
    else do
      let (text, rest) ← unquotedDefault rest
      .ok (t.text ++ text, rest)

/-- One quoted text, or one or more other tokens joined together. -/
def defaultText (keyword : Token) (ts : List Token) : Attempt (String × List Token) :=
  let unquoted : Attempt (String × List Token) := do
    let (text, ts) ← unquotedDefault ts
    if text = "" then .error (.invalid keyword.position .emptyDefault) else .ok (text, ts)
  match ts with
  | [] => unquoted
  | t :: rest => if t.quoted then .ok (t.text, rest) else unquoted

/-- What follows the keyword of a modifier. -/
def modifierAfter (keyword : Token) (type : TypeExpr) (ts : List Token) :
    Attempt (Modifier × List Token) :=
  match keyword.text with
  | "required" => .ok (.required true, ts)
  | "optional" => .ok (.required false, ts)
  | "unique" => .ok (.unique, ts)
  | "auto_increment" => .ok (.autoIncrement, ts)
  | "primary_key" => .ok (.primaryKey, ts)
  | "min_items" =>
    if type.isArray then do
      let (n, ts) ← itemBound ts
      .ok (.minItems n, ts)
    else .error (.invalid keyword.position (.boundsWithoutArray keyword.text))
  | "max_items" =>
    if type.isArray then do
      let (n, ts) ← itemBound ts
      .ok (.maxItems n, ts)
    else .error (.invalid keyword.position (.boundsWithoutArray keyword.text))
  | "reference" => do
    let (target, ts) ← referenceModifier keyword type ts
    .ok (.reference target, ts)
  | "description" => do
    let ts ← expect "(" ts
    let (text, ts) ← any .descriptionText ts
    let ts ← expect ")" ts
    .ok (.description text.text, ts)
  | "default" => do
    let ts ← expect "(" ts
    let (text, ts) ← defaultText keyword ts
    let ts ← expect ")" ts
    .ok (.defaultValue text, ts)
  | _ => .error (.invalid keyword.position (.unknownModifier keyword.text))

/-- One modifier of a member of the given type. -/
def modifier (type : TypeExpr) (ts : List Token) : Attempt (Modifier × List Token) := do
  let (keyword, ts) ← identifier .modifier ts
  modifierAfter keyword type ts

theorem itemBound_shorter {ts rest : List Token} {n : Nat} (h : itemBound ts = .ok (n, rest)) :
    rest.length < ts.length := by
  simp only [itemBound, bind_eq_ok_iff] at h
  obtain ⟨t1, h1, ⟨m, t2⟩, h2, t3, h3, h⟩ := h
  have := expect_shorter h1
  have := number_shorter h2
  have : t3.length < t2.length := expect_shorter h3
  simp only [Except.ok.injEq, Prod.mk.injEq] at h
  rw [← h.2]; omega

theorem referenceTarget_shorter {ts rest : List Token} {r : Reference}
    (h : referenceTarget ts = .ok (r, rest)) : rest.length < ts.length := by
  simp only [referenceTarget, bind_eq_ok_iff] at h
  obtain ⟨⟨s, t1⟩, h1, t2, h2, ⟨f, t3⟩, h3, t4, h4, h⟩ := h
  have := identifier_shorter h1
  have : t2.length < t1.length := expect_shorter h2
  have := identifier_shorter h3
  have : t4.length < t3.length := expect_shorter h4
  simp only [Except.ok.injEq, Prod.mk.injEq] at h
  rw [← h.2]; omega

theorem withoutTarget_rest {keyword : Token} {type : TypeExpr} {ts rest : List Token}
    {r : Reference} (h : referenceModifier.withoutTarget keyword type ts = .ok (r, rest)) :
    rest = ts := by
  simp only [referenceModifier.withoutTarget] at h
  split at h <;> simp_all

theorem referenceModifier_length {keyword : Token} {type : TypeExpr} {ts rest : List Token}
    {r : Reference} (h : referenceModifier keyword type ts = .ok (r, rest)) :
    rest.length ≤ ts.length := by
  cases ts with
  | nil => exact Nat.le_of_eq (congrArg List.length (withoutTarget_rest h))
  | cons t ts =>
    simp only [referenceModifier] at h
    split at h
    · have := referenceTarget_shorter h
      simp only [List.length_cons]; omega
    · exact Nat.le_of_eq (congrArg List.length (withoutTarget_rest h))

theorem unquotedDefault_length {ts rest : List Token} {text : String}
    (h : unquotedDefault ts = .ok (text, rest)) : rest.length ≤ ts.length := by
  induction ts generalizing text rest with
  | nil => simp [unquotedDefault] at h
  | cons t ts ih =>
    simp only [unquotedDefault] at h
    split at h
    · simp only [Except.ok.injEq, Prod.mk.injEq] at h
      exact Nat.le_of_eq (congrArg List.length h.2.symm)
    · split at h
      · simp at h
      · simp only [bind_eq_ok_iff] at h
        obtain ⟨⟨more, after⟩, hMore, h⟩ := h
        have := ih hMore
        simp only [Except.ok.injEq, Prod.mk.injEq] at h
        simp only [List.length_cons, ← h.2]; omega

theorem defaultText_length {keyword : Token} {ts rest : List Token} {text : String}
    (h : defaultText keyword ts = .ok (text, rest)) : rest.length ≤ ts.length := by
  have unquoted : ∀ {ts : List Token},
      (unquotedDefault ts >>= fun x =>
        if x.1 = "" then .error (.invalid keyword.position .emptyDefault)
        else .ok (x.1, x.2)) = .ok (text, rest) → rest.length ≤ ts.length := by
    intro ts h
    simp only [bind_eq_ok_iff] at h
    obtain ⟨⟨more, after⟩, hMore, h⟩ := h
    have := unquotedDefault_length hMore
    split at h
    · simp at h
    · simp only [Except.ok.injEq, Prod.mk.injEq] at h
      rw [← h.2]; exact this
  cases ts with
  | nil => exact unquoted h
  | cons t ts =>
    simp only [defaultText] at h
    split at h
    · simp only [Except.ok.injEq, Prod.mk.injEq] at h
      simp [← h.2]
    · exact unquoted h

theorem modifierAfter_length {keyword : Token} {type : TypeExpr} {ts rest : List Token}
    {m : Modifier} (h : modifierAfter keyword type ts = .ok (m, rest)) :
    rest.length ≤ ts.length := by
  simp only [modifierAfter] at h
  split at h
  iterate 5
    · simp only [Except.ok.injEq, Prod.mk.injEq] at h
      exact Nat.le_of_eq (congrArg List.length h.2.symm)
  iterate 2
    · split at h
      · simp only [bind_eq_ok_iff] at h
        obtain ⟨⟨n, t1⟩, h1, h⟩ := h
        have := itemBound_shorter h1
        simp only [Except.ok.injEq, Prod.mk.injEq] at h
        rw [← h.2]; omega
      · simp at h
  · simp only [bind_eq_ok_iff] at h
    obtain ⟨⟨r, t1⟩, h1, h⟩ := h
    have := referenceModifier_length h1
    simp only [Except.ok.injEq, Prod.mk.injEq] at h
    rw [← h.2]; omega
  · simp only [bind_eq_ok_iff] at h
    obtain ⟨t1, h1, ⟨d, t2⟩, h2, t3, h3, h⟩ := h
    have := expect_shorter h1
    have := any_shorter h2
    have : t3.length < t2.length := expect_shorter h3
    simp only [Except.ok.injEq, Prod.mk.injEq] at h
    rw [← h.2]; omega
  · simp only [bind_eq_ok_iff] at h
    obtain ⟨t1, h1, ⟨d, t2⟩, h2, t3, h3, h⟩ := h
    have := expect_shorter h1
    have := defaultText_length h2
    have : t3.length < t2.length := expect_shorter h3
    simp only [Except.ok.injEq, Prod.mk.injEq] at h
    rw [← h.2]; omega
  · simp at h

theorem modifier_shorter {type : TypeExpr} {ts rest : List Token} {m : Modifier}
    (h : modifier type ts = .ok (m, rest)) : rest.length < ts.length := by
  simp only [modifier, bind_eq_ok_iff] at h
  obtain ⟨⟨keyword, t1⟩, h1, h2⟩ := h
  have := identifier_shorter h1
  have : rest.length ≤ t1.length := modifierAfter_length h2
  omega

/-- The modifiers of a member, each after a colon, up to the semicolon that ends the member. -/
def modifiers (type : TypeExpr) (ts : List Token) : Attempt (List Modifier × List Token) :=
  match ts with
  | [] => .error (.endOfInput .colonOrSemicolon)
  | t :: rest =>
    if t.is ";" then .ok ([], rest)
    else if t.is ":" then
      match _h : modifier type rest with
      | .error e => .error e
      | .ok (m, rest) => do
        let (ms, rest) ← modifiers type rest
        .ok (m :: ms, rest)
    else .error (.unexpected t .colonOrSemicolon)
termination_by ts.length
decreasing_by have := modifier_shorter _h; simp only [List.length_cons]; omega

/-- A member: its type, its name and its modifiers. It comes with the token of its name. -/
def member (known : String → Bool) (ts : List Token) : Attempt ((Token × Member) × List Token) := do
  let (type, ts) ← typeExpr known ts
  let ts ← expect ":" ts
  let (name, ts) ← identifier .memberName ts
  if name.text = keyName then .error (.invalid name.position .reservedKey)
  else do
    let (ms, ts) ← modifiers type ts
    let bare : Member := { owner := .schema, type, name := name.text, position := name.position }
    .ok ((name, ms.foldl Modifier.apply bare), ts)

theorem modifiers_shorter {type : TypeExpr} {ts rest : List Token} {ms : List Modifier}
    (h : modifiers type ts = .ok (ms, rest)) : rest.length < ts.length := by
  fun_induction modifiers type ts generalizing ms rest with
  | case1 => simp at h
  | case2 => simp_all
  | case3 => simp at h
  | case4 t after _ _ m more hm ih =>
    simp only [bind_eq_ok_iff] at h
    obtain ⟨⟨ms', rest'⟩, hms, h⟩ := h
    have h1 := ih hms
    have h2 := modifier_shorter hm
    simp only [Except.ok.injEq, Prod.mk.injEq] at h
    simp only [List.length_cons, ← h.2]; omega
  | case5 => simp at h

theorem member_shorter {known : String → Bool} {ts rest : List Token} {m : Token × Member}
    (h : member known ts = .ok (m, rest)) : rest.length < ts.length := by
  simp only [member, bind_eq_ok_iff] at h
  obtain ⟨⟨type, t1⟩, h1, t2, h2, ⟨name, t3⟩, h3, h⟩ := h
  have := typeExpr_shorter h1
  have : t2.length < t1.length := expect_shorter h2
  have := identifier_shorter h3
  split at h
  · simp at h
  · simp only [bind_eq_ok_iff] at h
    obtain ⟨⟨ms, t4⟩, h4, h⟩ := h
    have : t4.length < t3.length := modifiers_shorter h4
    simp only [Except.ok.injEq, Prod.mk.injEq] at h
    rw [← h.2]; omega

end EntitySchema.Grammar
