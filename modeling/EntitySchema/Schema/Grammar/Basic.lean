import EntitySchema.Model
import EntitySchema.Number.Decimal
import EntitySchema.Schema.SyntaxError
import EntitySchema.Text.Alphabetic

/-!
Reading single tokens and types at the front of a list of tokens. Each function of the grammar
returns what it read and the tokens after it. It leaves fewer tokens than it found, which the lemmas
`*_shorter` say; that is why the loops of the grammar end.
-/

namespace EntitySchema

/-- A step that succeeds hands its result to the next one. -/
theorem bind_eq_ok_iff {ε α β : Type} {x : Except ε α} {f : α → Except ε β} {b : β} :
    x >>= f = .ok b ↔ ∃ a, x = .ok a ∧ f a = .ok b := by
  cases x <;> simp [bind, Except.bind]

namespace Grammar

/-! ## Single tokens -/

/-- What reading gives: mostly a result and the tokens after it. -/
abbrev Attempt := Except SyntaxError

/-- Any token at all. -/
def any (expected : Expected) : List Token → Attempt (Token × List Token)
  | [] => .error (.endOfInput expected)
  | t :: rest => .ok (t, rest)

/-- A given word of the grammar. -/
def expect (word : String) : List Token → Attempt (List Token)
  | [] => .error (.endOfInput (.word word))
  | t :: rest => if t.is word then .ok rest else .error (.unexpected t (.word word))

/-- A name: a letter or underscore, then letters, numbers and underscores. -/
def isName (text : String) : Bool :=
  match text.toList with
  | [] => false
  | c :: cs =>
    (Text.isAlphabetic c || c == '_') && cs.all (fun c => Text.isAlphanumeric c || c == '_')

def isIdentifier (t : Token) : Bool :=
  !t.quoted && isName t.text

def identifier (expected : Expected) : List Token → Attempt (Token × List Token)
  | [] => .error (.endOfInput expected)
  | t :: rest => if isIdentifier t then .ok (t, rest) else .error (.unexpected t expected)

/-- An unquoted token that `read` makes a number of. -/
def number {α : Type} (read : String → Option α) (expected : Expected) :
    List Token → Attempt (α × List Token)
  | [] => .error (.endOfInput expected)
  | t :: rest =>
    if t.quoted then .error (.unexpected t expected)
    else
      match read t.text with
      | some n => .ok (n, rest)
      | none => .error (.unexpected t expected)

/-- A semicolon that may be left out. -/
def optionalSemicolon : List Token → List Token
  | [] => []
  | t :: rest => if t.is ";" then rest else t :: rest

theorem any_shorter {expected : Expected} {ts rest : List Token} {t : Token}
    (h : any expected ts = .ok (t, rest)) : rest.length < ts.length := by
  cases ts <;> simp_all [any]

theorem expect_shorter {word : String} {ts rest : List Token}
    (h : expect word ts = .ok rest) : rest.length < ts.length := by
  cases ts with
  | nil => simp [expect] at h
  | cons t ts =>
    simp only [expect] at h
    split at h <;> simp_all

theorem identifier_shorter {expected : Expected} {ts rest : List Token} {t : Token}
    (h : identifier expected ts = .ok (t, rest)) : rest.length < ts.length := by
  cases ts with
  | nil => simp [identifier] at h
  | cons t ts =>
    simp only [identifier] at h
    split at h <;> simp_all

theorem number_shorter {α : Type} {read : String → Option α} {expected : Expected}
    {ts rest : List Token} {n : α} (h : number read expected ts = .ok (n, rest)) :
    rest.length < ts.length := by
  cases ts with
  | nil => simp [number] at h
  | cons t ts =>
    simp only [number] at h
    split at h
    · simp at h
    · split at h <;> simp_all

theorem optionalSemicolon_length (ts : List Token) :
    (optionalSemicolon ts).length ≤ ts.length := by
  cases ts with
  | nil => simp [optionalSemicolon]
  | cons t ts => simp only [optionalSemicolon]; split <;> simp

/-! ## Types -/

/-- A scalar, the name of a struct or enum that `known` accepts, or an array of a type. -/
def typeExpr (known : String → Bool) : List Token → Attempt (TypeExpr × List Token)
  | [] => .error (.endOfInput .type)
  | t :: rest =>
    if t.is "array" then
      match rest with
      | [] => .error (.endOfInput (.word "<"))
      | open_ :: inner =>
        if open_.is "<" then do
          let (element, rest) ← typeExpr known inner
          let rest ← expect ">" rest
          .ok (.array element, rest)
        else .error (.unexpected open_ (.word "<"))
    else if !isIdentifier t then .error (.unexpected t .type)
    else
      match Scalar.ofKeyword? t.text with
      | some s => .ok (.scalar s, rest)
      | none =>
        if known t.text then .ok (.named t.text, rest)
        else .error (.invalid t.position (.unknownType t.text))

theorem typeExpr_shorter {known : String → Bool} {ts rest : List Token} {type : TypeExpr}
    (h : typeExpr known ts = .ok (type, rest)) : rest.length < ts.length := by
  fun_induction typeExpr known ts generalizing type rest with
  | case1 => simp at h
  | case2 => simp at h
  | case3 t _ open_ inner _ ih =>
    simp only [bind_eq_ok_iff] at h
    obtain ⟨⟨element, after⟩, hElement, close, hClose, h⟩ := h
    have h1 := ih hElement
    have h2 : close.length < after.length := expect_shorter hClose
    simp only [Except.ok.injEq, Prod.mk.injEq] at h
    simp only [List.length_cons, ← h.2]; omega
  | case4 => simp at h
  | case5 => simp at h
  | case6 => simp_all
  | case7 => simp_all
  | case8 => simp at h

end Grammar

end EntitySchema
