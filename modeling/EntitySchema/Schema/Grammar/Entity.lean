import EntitySchema.Schema.Grammar.Member

/-!
Structs and enums. Their names have to be new, so they are read in view of the model so far, and the
types of members have to be declared or announced in it.
-/

namespace EntitySchema.Grammar

/-- The words that name no struct or enum, apart from the scalars. -/
def keywords : List String := ["struct", "enum", "include", "config", "array"]

def isReserved (name : String) : Bool :=
  (Scalar.ofKeyword? name).isSome || keywords.contains name

/-- The name of a new struct or enum. -/
def newName (model : Model) (expected : Expected) (ts : List Token) :
    Attempt (Token × List Token) := do
  let (name, ts) ← identifier expected ts
  if isReserved name.text then .error (.invalid name.position (.reservedName name.text))
  else if model.isDeclared name.text then
    .error (.invalid name.position (.alreadyDeclared name.text))
  else .ok (name, ts)

/-- The members of a struct up to its closing brace. -/
def members (known : String → Bool) (s : Struct) (ts : List Token) :
    Attempt (Struct × List Token) :=
  match ts with
  | [] => .error (.endOfInput .memberOrClose)
  | t :: rest =>
    if t.is "\x7d" then .ok (s, rest)
    else
      match _h : member known (t :: rest) with
      | .error e => .error e
      | .ok ((name, m), after) =>
        match s.addMember? m with
        | none => .error (.invalid name.position (.declaredTwice name.text s.name))
        | some s => members known s after
termination_by ts.length
decreasing_by exact member_shorter _h

/-- A struct, after its keyword. -/
def struct (model : Model) (ts : List Token) : Attempt (Struct × List Token) := do
  let (name, ts) ← newName model .structName ts
  let ts ← expect "\x7b" ts
  let (s, ts) ← members model.isTypeName { name := name.text, position := name.position } ts
  .ok (s.close, optionalSemicolon ts)

/-- The number of a value that has none of its own: one more than the value before it, and zero for
the first. There is none after the largest number. -/
def implicitValue : Option Int → Option Int
  | none => some 0
  | some previous => if previous < Number.maxSigned then some (previous + 1) else none

/-- The number of a value: the one after its equals sign, or else the implicit one. -/
def valueNumber (name : Token) (last : Option Int) (ts : List Token) : Attempt (Int × List Token) :=
  match ts with
  | t :: rest => if t.is "=" then number Number.readSigned .integer rest else implicit
  | [] => implicit
where
  implicit : Attempt (Int × List Token) :=
    match implicitValue last with
    | some value => .ok (value, ts)
    | none => .error (.invalid name.position .valueOverflow)

theorem valueNumber_length {name : Token} {last : Option Int} {ts rest : List Token} {n : Int}
    (h : valueNumber name last ts = .ok (n, rest)) : rest.length ≤ ts.length := by
  have implicit : valueNumber.implicit name last ts = .ok (n, rest) → rest = ts := by
    intro h
    simp only [valueNumber.implicit] at h
    split at h <;> simp_all
  cases ts with
  | nil => exact Nat.le_of_eq (congrArg List.length (implicit h))
  | cons t ts =>
    simp only [valueNumber] at h
    split at h
    · have := number_shorter h
      simp only [List.length_cons]; omega
    · exact Nat.le_of_eq (congrArg List.length (implicit h))

/-- The values of an enum up to its closing brace, separated by commas. -/
def values (e : Enumeration) (last : Option Int) (ts : List Token) :
    Attempt (Enumeration × List Token) :=
  match ts with
  | [] => .error (.endOfInput .valueOrClose)
  | t :: rest =>
    if t.is "\x7d" then .ok (e, rest)
    else if !isIdentifier t then .error (.unexpected t .valueOrClose)
    else if t.text = unknownName then .error (.invalid t.position .reservedUnknown)
    else
      match _h : valueNumber t last rest with
      | .error e => .error e
      | .ok (value, after) =>
        match e.addValue? t.text value with
        | none => .error (.invalid t.position (.declaredTwice t.text e.name))
        | some e =>
          match after with
          | [] => .error (.endOfInput .commaOrClose)
          | s :: more =>
            if s.is "," then values e (some value) more
            else if s.is "\x7d" then .ok (e, more)
            else .error (.unexpected s .commaOrClose)
termination_by ts.length
decreasing_by
  have : (s :: more).length ≤ rest.length := valueNumber_length _h
  simp only [List.length_cons] at *; omega

/-- An enum, after its keyword. -/
def enumeration (model : Model) (ts : List Token) : Attempt (Enumeration × List Token) := do
  let (name, ts) ← newName model .enumName ts
  let ts ← expect "\x7b" ts
  let (e, ts) ← values { name := name.text, position := name.position } none ts
  .ok (e.close, optionalSemicolon ts)

theorem newName_shorter {model : Model} {expected : Expected} {ts rest : List Token} {t : Token}
    (h : newName model expected ts = .ok (t, rest)) : rest.length < ts.length := by
  simp only [newName, bind_eq_ok_iff] at h
  obtain ⟨⟨name, t1⟩, h1, h⟩ := h
  have := identifier_shorter h1
  split at h
  · simp at h
  · split at h
    · simp at h
    · simp only [Except.ok.injEq, Prod.mk.injEq] at h
      rw [← h.2]; omega

theorem members_shorter {known : String → Bool} {s s' : Struct} {ts rest : List Token}
    (h : members known s ts = .ok (s', rest)) : rest.length < ts.length := by
  fun_induction members known s ts generalizing s' rest with
  | case1 => simp at h
  | case2 => simp_all
  | case3 => simp at h
  | case4 => simp at h
  | case5 s t ts _ name m after hm s2 _ ih =>
    have h1 := ih h
    have h2 := member_shorter hm
    omega

theorem values_shorter {e e' : Enumeration} {last : Option Int} {ts rest : List Token}
    (h : values e last ts = .ok (e', rest)) : rest.length < ts.length := by
  fun_induction values e last ts generalizing e' rest with
  | case1 => simp at h
  | case2 => simp_all
  | case3 => simp at h
  | case4 => simp at h
  | case5 => simp at h
  | case6 => simp at h
  | case7 => simp at h
  | case8 e last t ts _ _ _ value e2 _ s more hv _ _ ih =>
    have h1 := ih h
    have h2 := valueNumber_length hv
    simp only [List.length_cons] at *; omega
  | case9 e last t ts _ _ _ value e2 _ s more hv _ _ =>
    have h2 := valueNumber_length hv
    simp only [Except.ok.injEq, Prod.mk.injEq] at h
    simp only [List.length_cons, ← h.2] at *; omega
  | case10 => simp at h

theorem struct_shorter {model : Model} {ts rest : List Token} {s : Struct}
    (h : struct model ts = .ok (s, rest)) : rest.length < ts.length := by
  simp only [struct, bind_eq_ok_iff] at h
  obtain ⟨⟨name, t1⟩, h1, t2, h2, ⟨s, t3⟩, h3, h⟩ := h
  have := newName_shorter h1
  have : t2.length < t1.length := expect_shorter h2
  have : t3.length < t2.length := members_shorter h3
  have := optionalSemicolon_length t3
  simp only [Except.ok.injEq, Prod.mk.injEq] at h
  rw [← h.2]; omega

theorem enumeration_shorter {model : Model} {ts rest : List Token} {e : Enumeration}
    (h : enumeration model ts = .ok (e, rest)) : rest.length < ts.length := by
  simp only [enumeration, bind_eq_ok_iff] at h
  obtain ⟨⟨name, t1⟩, h1, t2, h2, ⟨e, t3⟩, h3, h⟩ := h
  have := newName_shorter h1
  have : t2.length < t1.length := expect_shorter h2
  have : t3.length < t2.length := values_shorter h3
  have := optionalSemicolon_length t3
  simp only [Except.ok.injEq, Prod.mk.injEq] at h
  rw [← h.2]; omega

end EntitySchema.Grammar
