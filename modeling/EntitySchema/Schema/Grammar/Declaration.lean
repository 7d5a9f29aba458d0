import EntitySchema.Schema.Grammar.Entity

/-!
Top-level declarations: structs, enums, blocks of configuration for other tools, and the inclusion
of other files.
-/

namespace EntitySchema.Grammar

/-- The rest of a config block in which `depth` further braces are open. What stands in the block
means nothing to the schema. -/
def configRest : Nat → List Token → Attempt (List Token)
  | _, [] => .error (.endOfInput .configEnd)
  | depth, t :: rest =>
    if t.is "\x7b" then configRest (depth + 1) rest
    else if t.is "\x7d" then
      match depth with
      | 0 => .ok rest
      | depth + 1 => configRest depth rest
    else configRest depth rest

/-- The tokens of an include path up to its semicolon, joined together. -/
def includePath : List Token → Attempt (String × List Token)
  | [] => .error (.endOfInput .pathEnd)
  | t :: rest =>
    if t.is ";" then .ok ("", rest)
    else do
      let (text, rest) ← includePath rest
      .ok (t.text ++ text, rest)

/-- A top-level declaration. -/
inductive Declaration where
  | struct (s : Struct)
  | enumeration (e : Enumeration)
  | config
  | includes (position : Position) (path : String)
  deriving DecidableEq, Repr

/-- One declaration, whose first token is `t`. -/
def declaration (model : Model) (t : Token) (ts : List Token) :
    Attempt (Declaration × List Token) :=
  if t.is "include" then do
    let (path, ts) ← includePath ts
    if path = "" then .error (.invalid t.position .emptyInclude)
    else .ok (.includes t.position path, ts)
  else if t.is "struct" then do
    let (s, ts) ← struct model ts
    .ok (.struct s, ts)
  else if t.is "enum" then do
    let (e, ts) ← enumeration model ts
    .ok (.enumeration e, ts)
  else if t.is "config" then do
    let ts ← expect "\x7b" ts
    let ts ← configRest 0 ts
    .ok (.config, ts)
  else .error (.unexpected t .declaration)

theorem configRest_shorter {depth : Nat} {ts rest : List Token}
    (h : configRest depth ts = .ok rest) : rest.length < ts.length := by
  fun_induction configRest depth ts generalizing rest with
  | case1 => simp at h
  | case2 depth t ts _ ih => have := ih h; simp only [List.length_cons]; omega
  | case3 t ts => simp_all
  | case4 t ts _ _ depth ih => have := ih h; simp only [List.length_cons]; omega
  | case5 depth t ts _ _ ih => have := ih h; simp only [List.length_cons]; omega

theorem includePath_shorter {ts rest : List Token} {path : String}
    (h : includePath ts = .ok (path, rest)) : rest.length < ts.length := by
  induction ts generalizing path rest with
  | nil => simp [includePath] at h
  | cons t ts ih =>
    simp only [includePath] at h
    split at h
    · simp_all
    · simp only [bind_eq_ok_iff] at h
      obtain ⟨⟨more, after⟩, hMore, h⟩ := h
      have := ih hMore
      simp only [Except.ok.injEq, Prod.mk.injEq] at h
      simp only [List.length_cons, ← h.2]; omega

theorem declaration_shorter {model : Model} {t : Token} {ts rest : List Token} {d : Declaration}
    (h : declaration model t ts = .ok (d, rest)) : rest.length < ts.length := by
  simp only [declaration] at h
  split at h
  · simp only [bind_eq_ok_iff] at h
    obtain ⟨⟨path, t1⟩, h1, h⟩ := h
    have := includePath_shorter h1
    split at h
    · simp at h
    · simp only [Except.ok.injEq, Prod.mk.injEq] at h
      rw [← h.2]; exact this
  · split at h
    · simp only [bind_eq_ok_iff] at h
      obtain ⟨⟨s, t1⟩, h1, h⟩ := h
      have := struct_shorter h1
      simp only [Except.ok.injEq, Prod.mk.injEq] at h
      rw [← h.2]; exact this
    · split at h
      · simp only [bind_eq_ok_iff] at h
        obtain ⟨⟨e, t1⟩, h1, h⟩ := h
        have := enumeration_shorter h1
        simp only [Except.ok.injEq, Prod.mk.injEq] at h
        rw [← h.2]; exact this
      · split at h
        · simp only [bind_eq_ok_iff] at h
          obtain ⟨t1, h1, t2, h2, h⟩ := h
          have := expect_shorter h1
          have := configRest_shorter h2
          simp only [Except.ok.injEq, Prod.mk.injEq] at h
          rw [← h.2]; omega
        · simp at h

end EntitySchema.Grammar
