import EntitySchema.Proofs.Recognition
import Mathlib.Data.List.Forall2

/-!
Two readings of tokens that differ only in what the grammar does not look at: in the places where
they stand, or in what stands between quotes. Every function of the grammar takes the same way in
both: it succeeds in both, with results that differ in such things only, or it fails in both for the
same reason. The main result is that quoted text never acts as grammar.
-/

namespace EntitySchema

open EntitySchema.Derivation

/-! ## Tokens and errors -/

/-- What is left of the places of tokens and of quoted texts when two readings are compared. -/
structure Erasure where
  position : Position → Position
  text : String → String

/-- Places count and quoted texts do not. -/
def Erasure.texts : Erasure := ⟨id, fun _ => ""⟩

/-- Quoted texts count and places do not. -/
def Erasure.positions : Erasure := ⟨fun _ => default, id⟩

/-- The tokens differ at most in what is erased. -/
structure Token.Alike (E : Erasure) (t u : Token) : Prop where
  quoted : t.quoted = u.quoted
  position : E.position t.position = E.position u.position
  word : t.quoted = false → t.text = u.text
  text : E.text t.text = E.text u.text

/-- Unquoted tokens with the same text. -/
structure Token.SameWord (E : Erasure) (t u : Token) : Prop where
  text : t.text = u.text
  position : E.position t.position = E.position u.position

namespace Token.Alike

variable {E : Erasure} {t u : Token}

theorem is_eq (h : t.Alike E u) (word : String) : u.is word = t.is word := by
  unfold Token.is
  rw [← h.quoted]
  cases hq : t.quoted with
  | false => rw [h.word hq]
  | true => rfl

theorem isIdentifier_eq (h : t.Alike E u) : Grammar.isIdentifier u = Grammar.isIdentifier t := by
  unfold Grammar.isIdentifier
  rw [← h.quoted]
  cases hq : t.quoted with
  | false => rw [h.word hq]
  | true => rfl

/-- A name is not quoted, so its text is the same in both. -/
theorem sameWord (h : t.Alike E u) (hName : Grammar.isIdentifier t = true) : t.SameWord E u := by
  simp only [Grammar.isIdentifier, Bool.and_eq_true, Bool.not_eq_true'] at hName
  exact ⟨h.word hName.1, h.position⟩

end Token.Alike

/-- The errors have the same reason, and the places they name differ in what is erased only. -/
inductive SyntaxError.Alike (E : Erasure) : SyntaxError → SyntaxError → Prop
  | unexpected {t u : Token} (expected : Expected) :
      t.Alike E u → Alike E (.unexpected t expected) (.unexpected u expected)
  | endOfInput (expected : Expected) : Alike E (.endOfInput expected) (.endOfInput expected)
  | invalid {p q : Position} (rule : BrokenRule) :
      E.position p = E.position q → Alike E (.invalid p rule) (.invalid q rule)

/-! ## Entities -/

def Member.erase (E : Erasure) (m : Member) : Member :=
  { m with
    description := m.description.map E.text
    defaultValue := m.defaultValue.map E.text
    position := m.position.map E.position }

def Struct.erase (E : Erasure) (s : Struct) : Struct :=
  { s with members := s.members.map (Member.erase E), position := s.position.map E.position }

def Enumeration.erase (E : Erasure) (e : Enumeration) : Enumeration :=
  { e with position := e.position.map E.position }

def Model.erase (E : Erasure) (model : Model) : Model :=
  { model with
    structs := model.structs.map (Struct.erase E)
    enums := model.enums.map (Enumeration.erase E) }

def Reader.erase (E : Erasure) (r : Reader) : Reader :=
  { r with model := r.model.erase E }

namespace Grammar

def Modifier.erase (E : Erasure) : Modifier → Modifier
  | description text => description (E.text text)
  | defaultValue text => defaultValue (E.text text)
  | m => m

def Declaration.erase (E : Erasure) : Declaration → Declaration
  | struct s => struct (s.erase E)
  | enumeration e => enumeration (e.erase E)
  | config => config
  | includes position path => includes (E.position position) path

theorem erase_foldl_apply (E : Erasure) (xs : List Modifier) (m : Member) :
    (xs.foldl Modifier.apply m).erase E =
      (xs.map (Modifier.erase E)).foldl Modifier.apply (m.erase E) := by
  induction xs generalizing m with
  | nil => rfl
  | cons x xs ih =>
    have hApply : (x.apply m).erase E = (x.erase E).apply (m.erase E) := by
      cases x <;> rfl
    rw [List.foldl_cons, ih, hApply, List.map_cons, List.foldl_cons]

end Grammar

namespace Struct

theorem hasMember_erase (E : Erasure) (s : Struct) (name : String) :
    (s.erase E).hasMember name = s.hasMember name := by
  simp only [hasMember, erase, List.any_map]
  rfl

theorem addMember?_erase (E : Erasure) (s : Struct) (m : Member) :
    (s.addMember? m).map (erase E) = (s.erase E).addMember? (m.erase E) := by
  have hName : (m.erase E).name = m.name := rfl
  unfold addMember?
  rw [hName, hasMember_erase]
  split
  · rfl
  · simp [erase]

theorem close_erase (E : Erasure) (s : Struct) : s.close.erase E = (s.erase E).close := by
  have hAdd := addMember?_erase E s Member.key
  have hKey : Member.key.erase E = Member.key := rfl
  unfold close addMember
  rw [hKey] at hAdd
  rw [← hAdd, Option.getD_map]

end Struct

namespace Enumeration

theorem addValue?_erase (E : Erasure) (e : Enumeration) (name : String) (value : Int) :
    (e.addValue? name value).map (erase E) = (e.erase E).addValue? name value := by
  have hValues : (e.erase E).values = e.values := rfl
  unfold addValue?
  rw [hValues]
  split <;> rfl

theorem close_erase (E : Erasure) (e : Enumeration) : e.close.erase E = (e.erase E).close := by
  have hAdd := addValue?_erase E e unknownName (-1)
  unfold close addValue
  rw [← hAdd, Option.getD_map]

end Enumeration

namespace Model

variable {E : Erasure} {model model' : Model}

theorem isDeclared_erase (model : Model) (name : String) :
    (model.erase E).isDeclared name = model.isDeclared name := by
  simp only [isDeclared, hasStruct, hasEnum, erase, List.any_map]
  rfl

theorem isDeclared_eq (h : model.erase E = model'.erase E) :
    model.isDeclared = model'.isDeclared := by
  funext name
  rw [← isDeclared_erase (E := E), h, isDeclared_erase]

theorem isTypeName_eq (h : model.erase E = model'.erase E) :
    model.isTypeName = model'.isTypeName := by
  have hPending : (model.erase E).pending = (model'.erase E).pending := congrArg pending h
  change model.pending = model'.pending at hPending
  funext name
  rw [isTypeName, isTypeName, isDeclared_eq h, hPending]

theorem erase_declareStruct (E : Erasure) (model : Model) (s : Struct) :
    (model.declareStruct s).erase E = (model.erase E).declareStruct (s.erase E) := by
  simp [declareStruct, erase, Struct.erase]

theorem erase_declareEnum (E : Erasure) (model : Model) (e : Enumeration) :
    (model.declareEnum e).erase E = (model.erase E).declareEnum (e.erase E) := by
  simp [declareEnum, erase, Enumeration.erase]

end Model

namespace Grammar

variable {E : Erasure} {ts us : List Token}

/-! ## Two attempts -/

/-- Both attempts succeed, with results that are related, or both fail alike. -/
inductive Agree (E : Erasure) {α : Type} (R : α → α → Prop) : Attempt α → Attempt α → Prop
  | ok {a b : α} : R a b → Agree E R (.ok a) (.ok b)
  | error {e f : SyntaxError} : e.Alike E f → Agree E R (.error e) (.error f)

/-- Related results, and after them tokens that are alike. -/
def Reads (E : Erasure) {α : Type} (R : α → α → Prop) (x y : α × List Token) : Prop :=
  R x.1 y.1 ∧ List.Forall₂ (Token.Alike E) x.2 y.2

namespace Agree

variable {α β : Type} {R : α → α → Prop} {S : β → β → Prop}

theorem ended (expected : Expected) :
    Agree E R (.error (.endOfInput expected)) (.error (.endOfInput expected)) :=
  .error (.endOfInput expected)

theorem unexpected {t u : Token} (h : t.Alike E u) (expected : Expected) :
    Agree E R (.error (.unexpected t expected)) (.error (.unexpected u expected)) :=
  .error (.unexpected expected h)

theorem invalid {p q : Position} (h : E.position p = E.position q) (rule : BrokenRule) :
    Agree E R (.error (.invalid p rule)) (.error (.invalid q rule)) :=
  .error (.invalid rule h)

/-- Attempts that agree are followed by attempts that agree. -/
theorem bind {x y : Attempt α} {f g : α → Attempt β} (h : Agree E R x y)
    (hNext : ∀ a b, x = .ok a → R a b → Agree E S (f a) (g b)) :
    Agree E S (x >>= f) (y >>= g) := by
  cases h with
  | ok hab => exact hNext _ _ rfl hab
  | error he => exact .error he

theorem ok_left {a : α} {y : Attempt α} (h : Agree E R (.ok a) y) : ∃ b, y = .ok b ∧ R a b := by
  cases h with
  | ok hab => exact ⟨_, rfl, hab⟩

theorem error_left {e : SyntaxError} {y : Attempt α} (h : Agree E R (.error e) y) :
    ∃ f, y = .error f ∧ e.Alike E f := by
  cases h with
  | error he => exact ⟨_, rfl, he⟩

end Agree

/-! ## Single tokens and types -/

theorem any_agree (h : List.Forall₂ (Token.Alike E) ts us) (expected : Expected) :
    Agree E (Reads E (Token.Alike E)) (any expected ts) (any expected us) := by
  cases h with
  | nil => exact .ended _
  | cons ht h => exact .ok ⟨ht, h⟩

theorem expect_agree (h : List.Forall₂ (Token.Alike E) ts us) (word : String) :
    Agree E (List.Forall₂ (Token.Alike E)) (expect word ts) (expect word us) := by
  cases h with
  | nil => exact .ended _
  | cons ht h =>
    unfold expect
    dsimp only
    rw [ht.is_eq]
    split
    · exact .ok h
    · exact .unexpected ht _

theorem identifier_agree (h : List.Forall₂ (Token.Alike E) ts us) (expected : Expected) :
    Agree E (Reads E (Token.SameWord E)) (identifier expected ts) (identifier expected us) := by
  cases h with
  | nil => exact .ended _
  | cons ht h =>
    unfold identifier
    dsimp only
    rw [ht.isIdentifier_eq]
    split
    · rename_i hName
      exact .ok ⟨ht.sameWord hName, h⟩
    · exact .unexpected ht _

theorem number_agree {α : Type} (read : String → Option α) (expected : Expected)
    (h : List.Forall₂ (Token.Alike E) ts us) :
    Agree E (Reads E Eq) (number read expected ts) (number read expected us) := by
  cases h with
  | nil => exact .ended _
  | @cons t u _ _ ht h =>
    unfold number
    dsimp only
    rw [← ht.quoted]
    split
    · exact .unexpected ht _
    · rename_i hq
      -- A quoted number is refused, so here both are words, and the same one.
      rw [← ht.word (by simpa using hq)]
      cases read t.text with
      | none => exact .unexpected ht _
      | some n => exact .ok ⟨rfl, h⟩

theorem optionalSemicolon_alike (h : List.Forall₂ (Token.Alike E) ts us) :
    List.Forall₂ (Token.Alike E) (optionalSemicolon ts) (optionalSemicolon us) := by
  cases h with
  | nil => exact .nil
  | cons ht h =>
    unfold optionalSemicolon
    dsimp only
    rw [ht.is_eq]
    split
    · exact h
    · exact .cons ht h

theorem typeExpr_agree (known : String → Bool) (h : List.Forall₂ (Token.Alike E) ts us) :
    Agree E (Reads E Eq) (typeExpr known ts) (typeExpr known us) := by
  -- The element of an array is two tokens further on, so the induction is on the length.
  induction hn : ts.length using Nat.strongRecOn generalizing ts us with
  | ind n ih =>
    cases h with
    | nil => exact .ended _
    | @cons t u rest rest' ht h =>
      unfold typeExpr
      rw [ht.is_eq, ht.isIdentifier_eq]
      split
      · cases h with
        | nil => exact .ended _
        | @cons left left' inner inner' hLeft h =>
          dsimp only
          rw [hLeft.is_eq]
          split
          · have hShorter : inner.length < n := by
              rw [← hn, List.length_cons, List.length_cons]
              omega
            refine (ih inner.length hShorter h rfl).bind ?_
            rintro ⟨type, after⟩ ⟨type', after'⟩ - ⟨rfl, hAfter⟩
            refine (expect_agree hAfter ">").bind (fun _ _ _ hRest => ?_)
            exact .ok ⟨rfl, hRest⟩
          · exact .unexpected hLeft _
      · by_cases hName : isIdentifier t = true
        · -- What a word stands for depends on its text and on the names that are known.
          have hWord := ht.sameWord hName
          rw [hName, ← hWord.text]
          cases Scalar.ofKeyword? t.text with
          | some s => exact .ok ⟨rfl, h⟩
          | none =>
            cases known t.text with
            | true => exact .ok ⟨rfl, h⟩
            | false => exact .invalid hWord.position _
        · rw [Bool.not_eq_true] at hName
          rw [hName]
          exact .unexpected ht _

/-! ## Modifiers -/

theorem itemBound_agree (h : List.Forall₂ (Token.Alike E) ts us) :
    Agree E (Reads E Eq) (itemBound ts) (itemBound us) := by
  unfold itemBound
  refine (expect_agree h "(").bind (fun _ _ _ h => ?_)
  refine (number_agree Number.readUnsigned .natural h).bind ?_
  rintro ⟨n, _⟩ ⟨n', _⟩ - ⟨rfl, h⟩
  refine (expect_agree h ")").bind (fun _ _ _ h => ?_)
  exact .ok ⟨rfl, h⟩

theorem referenceTarget_agree (h : List.Forall₂ (Token.Alike E) ts us) :
    Agree E (Reads E Eq) (referenceTarget ts) (referenceTarget us) := by
  unfold referenceTarget
  refine (identifier_agree h .structName).bind ?_
  rintro struct struct' - ⟨hStruct, h⟩
  refine (expect_agree h ".").bind (fun _ _ _ h => ?_)
  refine (identifier_agree h .fieldName).bind ?_
  rintro field field' - ⟨hField, h⟩
  refine (expect_agree h ")").bind (fun _ _ _ h => ?_)
  refine .ok ⟨?_, h⟩
  rw [hStruct.text, hField.text]

theorem referenceModifier_agree {keyword keyword' : Token} (hk : keyword.SameWord E keyword')
    (type : TypeExpr) (h : List.Forall₂ (Token.Alike E) ts us) :
    Agree E (Reads E Eq) (referenceModifier keyword type ts)
      (referenceModifier keyword' type us) := by
  have hWithout : ∀ {ts us : List Token}, List.Forall₂ (Token.Alike E) ts us →
      Agree E (Reads E Eq) (referenceModifier.withoutTarget keyword type ts)
        (referenceModifier.withoutTarget keyword' type us) := by
    intro ts us h
    unfold referenceModifier.withoutTarget
    cases type.named? with
    | some name => exact .ok ⟨rfl, h⟩
    | none => exact .invalid hk.position _
  cases h with
  | nil => exact hWithout .nil
  | cons ht h =>
    unfold referenceModifier
    dsimp only
    rw [ht.is_eq]
    split
    · exact referenceTarget_agree h
    · exact hWithout (.cons ht h)

/-- A quoted text ends the tokens of an unquoted default, whatever it says. -/
theorem unquotedDefault_agree (h : List.Forall₂ (Token.Alike E) ts us) :
    Agree E (Reads E Eq) (unquotedDefault ts) (unquotedDefault us) := by
  induction h with
  | nil => exact .ended _
  | @cons t u _ _ ht h ih =>
    unfold unquotedDefault
    rw [ht.is_eq, ht.is_eq, ← ht.quoted]
    split
    · exact .ok ⟨rfl, .cons ht h⟩
    · split
      · exact .unexpected ht _
      · rename_i hStop
        have hq : t.quoted = false := by
          simp only [Bool.or_eq_true, not_or, Bool.not_eq_true] at hStop
          exact hStop.1
        refine ih.bind ?_
        rintro ⟨text, _⟩ ⟨text', _⟩ - ⟨rfl, h⟩
        exact .ok ⟨by rw [ht.word hq], h⟩

/-- The texts differ at most in what is erased. -/
abbrev TextAlike (E : Erasure) (a b : String) : Prop :=
  E.text a = E.text b

theorem defaultText_agree {keyword keyword' : Token} (hk : keyword.SameWord E keyword')
    (h : List.Forall₂ (Token.Alike E) ts us) :
    Agree E (Reads E (TextAlike E)) (defaultText keyword ts) (defaultText keyword' us) := by
  have hUnquoted : ∀ {ts us : List Token}, List.Forall₂ (Token.Alike E) ts us →
      Agree E (Reads E (TextAlike E))
        (unquotedDefault ts >>= fun x =>
          if x.1 = "" then .error (.invalid keyword.position .emptyDefault) else .ok (x.1, x.2))
        (unquotedDefault us >>= fun x =>
          if x.1 = "" then .error (.invalid keyword'.position .emptyDefault)
          else .ok (x.1, x.2)) := by
    intro ts us h
    refine (unquotedDefault_agree h).bind ?_
    rintro ⟨text, _⟩ ⟨text', _⟩ - ⟨rfl, h⟩
    dsimp only
    split
    · exact .invalid hk.position _
    · exact .ok ⟨rfl, h⟩
  cases h with
  | nil => exact hUnquoted .nil
  | cons ht h =>
    unfold defaultText
    dsimp only
    rw [← ht.quoted]
    split
    · exact .ok ⟨ht.text, h⟩
    · exact hUnquoted (.cons ht h)

/-- The modifiers differ at most in what is erased. -/
abbrev SameModifier (E : Erasure) (m n : Modifier) : Prop :=
  m.erase E = n.erase E

theorem modifierAfter_agree {keyword keyword' : Token} (hk : keyword.SameWord E keyword')
    (type : TypeExpr) (h : List.Forall₂ (Token.Alike E) ts us) :
    Agree E (Reads E (SameModifier E)) (modifierAfter keyword type ts)
      (modifierAfter keyword' type us) := by
  have hBound : ∀ make : Nat → Modifier, Agree E (Reads E (SameModifier E))
      (if type.isArray then itemBound ts >>= fun x => .ok (make x.1, x.2)
        else .error (.invalid keyword.position (.boundsWithoutArray keyword.text)))
      (if type.isArray then itemBound us >>= fun x => .ok (make x.1, x.2)
        else .error (.invalid keyword'.position (.boundsWithoutArray keyword.text))) := by
    intro make
    split
    · refine (itemBound_agree h).bind ?_
      rintro ⟨n, _⟩ ⟨n', _⟩ - ⟨rfl, h⟩
      exact .ok ⟨rfl, h⟩
    · exact .invalid hk.position _
  unfold modifierAfter
  rw [← hk.text]
  split
  iterate 5
    · exact .ok ⟨rfl, h⟩
  · exact hBound .minItems
  · exact hBound .maxItems
  · refine (referenceModifier_agree hk type h).bind ?_
    rintro ⟨target, _⟩ ⟨target', _⟩ - ⟨rfl, h⟩
    exact .ok ⟨rfl, h⟩
  · refine (expect_agree h "(").bind (fun _ _ _ h => ?_)
    refine (any_agree h .descriptionText).bind ?_
    rintro _ _ - ⟨ht, h⟩
    refine (expect_agree h ")").bind (fun _ _ _ h => ?_)
    exact .ok ⟨congrArg Modifier.description ht.text, h⟩
  · refine (expect_agree h "(").bind (fun _ _ _ h => ?_)
    refine (defaultText_agree hk h).bind ?_
    rintro _ _ - ⟨hText, h⟩
    refine (expect_agree h ")").bind (fun _ _ _ h => ?_)
    exact .ok ⟨congrArg Modifier.defaultValue hText, h⟩
  · exact .invalid hk.position _

theorem modifier_agree (type : TypeExpr) (h : List.Forall₂ (Token.Alike E) ts us) :
    Agree E (Reads E (SameModifier E)) (modifier type ts) (modifier type us) := by
  unfold modifier
  refine (identifier_agree h .modifier).bind ?_
  rintro _ _ - ⟨hk, h⟩
  exact modifierAfter_agree hk type h

theorem modifiers_cons (type : TypeExpr) (t : Token) (rest : List Token) :
    modifiers type (t :: rest) =
      if t.is ";" then .ok ([], rest)
      else if t.is ":" then
        modifier type rest >>= fun x => modifiers type x.2 >>= fun y => .ok (x.1 :: y.1, y.2)
      else .error (.unexpected t .colonOrSemicolon) := by
  rw [modifiers]
  split
  · rfl
  · split
    · split <;> simp_all [bind, Except.bind]
    · rfl

theorem modifiers_agree (type : TypeExpr) (h : List.Forall₂ (Token.Alike E) ts us) :
    Agree E (Reads E (List.Forall₂ (SameModifier E))) (modifiers type ts) (modifiers type us) := by
  -- How far a modifier goes is up to `modifier`, so the induction is on the number of tokens.
  induction hn : ts.length using Nat.strongRecOn generalizing ts us with
  | ind n ih =>
    cases h with
    | nil =>
      rw [modifiers]
      exact .ended _
    | @cons t u rest rest' ht h =>
      rw [modifiers_cons, modifiers_cons, ht.is_eq, ht.is_eq]
      split
      · exact .ok ⟨.nil, h⟩
      · split
        · refine (modifier_agree type h).bind ?_
          rintro ⟨m, after⟩ ⟨m', after'⟩ hRead ⟨hm, hAfter⟩
          have hShorter : after.length < n := by
            have := modifier_shorter hRead
            rw [← hn, List.length_cons]
            omega
          refine (ih after.length hShorter hAfter rfl).bind ?_
          rintro _ _ - ⟨hms, h⟩
          exact .ok ⟨.cons hm hms, h⟩
        · exact .unexpected ht _

/-! ## Members -/

/-- The members differ at most in what is erased, and so do the tokens of their names. -/
def SameMember (E : Erasure) (x y : Token × Member) : Prop :=
  x.1.SameWord E y.1 ∧ x.2.erase E = y.2.erase E

theorem member_agree (known : String → Bool) (h : List.Forall₂ (Token.Alike E) ts us) :
    Agree E (Reads E (SameMember E)) (member known ts) (member known us) := by
  unfold member
  refine (typeExpr_agree known h).bind ?_
  rintro ⟨type, _⟩ ⟨type', _⟩ - ⟨rfl, h⟩
  refine (expect_agree h ":").bind (fun _ _ _ h => ?_)
  refine (identifier_agree h .memberName).bind ?_
  rintro ⟨name, _⟩ ⟨name', _⟩ - ⟨hName, h⟩
  dsimp only at hName ⊢
  rw [← hName.text]
  split
  · exact .invalid hName.position _
  · refine (modifiers_agree type h).bind ?_
    rintro ⟨ms, _⟩ ⟨ms', _⟩ - ⟨hms, h⟩
    refine .ok ⟨⟨hName, ?_⟩, h⟩
    -- Erasing goes past the modifiers, which then are the same ones.
    have hSame : ms.map (Modifier.erase E) = ms'.map (Modifier.erase E) := by
      rw [← List.forall₂_eq_eq_eq, List.forall₂_map_left_iff, List.forall₂_map_right_iff]
      exact hms
    rw [erase_foldl_apply, erase_foldl_apply, hSame]
    simp only [Member.erase, Option.map_some, hName.position]

/-- What is done with a member that was read: it is added, and further members follow. -/
def membersAfter (known : String → Bool) (s : Struct) (x : (Token × Member) × List Token) :
    Attempt (Struct × List Token) :=
  match s.addMember? x.1.2 with
  | none => .error (.invalid x.1.1.position (.declaredTwice x.1.1.text s.name))
  | some s => members known s x.2

theorem members_cons (known : String → Bool) (s : Struct) (t : Token) (rest : List Token) :
    members known s (t :: rest) =
      if t.is "\x7d" then .ok (s, rest) else member known (t :: rest) >>= membersAfter known s := by
  rw [members]
  split
  · rfl
  · split
    · rename_i hError
      rw [hError]
      rfl
    · rename_i name m after hMember
      rw [hMember]
      change _ = membersAfter known s ((name, m), after)
      unfold membersAfter
      cases s.addMember? m <;> rfl

/-- The structs differ at most in what is erased. -/
abbrev SameStruct (E : Erasure) (s s' : Struct) : Prop :=
  s.erase E = s'.erase E

theorem members_agree (known : String → Bool) {s s' : Struct} (hs : SameStruct E s s')
    (h : List.Forall₂ (Token.Alike E) ts us) :
    Agree E (Reads E (SameStruct E)) (members known s ts) (members known s' us) := by
  induction hn : ts.length using Nat.strongRecOn generalizing ts us s s' with
  | ind n ih =>
    cases h with
    | nil =>
      rw [members, members]
      exact .ended _
    | @cons t u rest rest' ht h =>
      rw [members_cons, members_cons, ht.is_eq]
      split
      · exact .ok ⟨hs, h⟩
      · refine (member_agree known (.cons ht h)).bind ?_
        rintro ⟨⟨name, m⟩, after⟩ ⟨⟨name', m'⟩, after'⟩ hRead ⟨⟨hName, hm⟩, hAfter⟩
        have hShorter : after.length < n := by
          have := member_shorter hRead
          omega
        -- Adding a member looks at names only.
        have hAdd : (s.addMember? m).map (Struct.erase E) =
            (s'.addMember? m').map (Struct.erase E) := by
          rw [Struct.addMember?_erase, Struct.addMember?_erase, hs, hm]
        have hOwner : (s.erase E).name = (s'.erase E).name := congrArg Struct.name hs
        change s.name = s'.name at hOwner
        unfold membersAfter
        dsimp only at hName ⊢
        cases hFirst : s.addMember? m with
        | none =>
          rw [hFirst] at hAdd
          rw [Option.map_eq_none_iff.1 hAdd.symm, hOwner, hName.text]
          exact .invalid hName.position _
        | some s₂ =>
          rw [hFirst] at hAdd
          obtain ⟨s₂', hSecond, hSame⟩ := Option.map_eq_some_iff.1 hAdd.symm
          rw [hSecond]
          exact ih after.length hShorter hSame.symm hAfter rfl

/-! ## Structs and enums -/

section

variable {model model' : Model}

theorem newName_agree (hm : model.erase E = model'.erase E) (expected : Expected)
    (h : List.Forall₂ (Token.Alike E) ts us) :
    Agree E (Reads E (Token.SameWord E)) (newName model expected ts)
      (newName model' expected us) := by
  unfold newName
  rw [Model.isDeclared_eq hm]
  refine (identifier_agree h expected).bind ?_
  rintro ⟨name, _⟩ ⟨name', _⟩ - ⟨hName, h⟩
  dsimp only at hName ⊢
  rw [← hName.text]
  split
  · exact .invalid hName.position _
  · split
    · exact .invalid hName.position _
    · exact .ok ⟨hName, h⟩

theorem struct_agree (hm : model.erase E = model'.erase E)
    (h : List.Forall₂ (Token.Alike E) ts us) :
    Agree E (Reads E (SameStruct E)) (struct model ts) (struct model' us) := by
  unfold struct
  rw [Model.isTypeName_eq hm]
  refine (newName_agree hm .structName h).bind ?_
  rintro ⟨name, _⟩ ⟨name', _⟩ - ⟨hName, h⟩
  dsimp only at hName ⊢
  -- A struct takes the place of its name.
  have hEmpty : SameStruct E { name := name.text, position := name.position }
      { name := name'.text, position := name'.position } := by
    simp only [SameStruct, Struct.erase, Option.map_some, hName.text, hName.position]
  refine (expect_agree h "\x7b").bind (fun _ _ _ h => ?_)
  refine (members_agree _ hEmpty h).bind ?_
  rintro ⟨s, _⟩ ⟨s', _⟩ - ⟨hs, h⟩
  refine .ok ⟨?_, optionalSemicolon_alike h⟩
  rw [SameStruct, Struct.close_erase, Struct.close_erase, hs]

theorem valueNumber_agree {name name' : Token} (hName : name.SameWord E name')
    (last : Option Int) (h : List.Forall₂ (Token.Alike E) ts us) :
    Agree E (Reads E Eq) (valueNumber name last ts) (valueNumber name' last us) := by
  have hImplicit : ∀ {ts us : List Token}, List.Forall₂ (Token.Alike E) ts us →
      Agree E (Reads E Eq) (valueNumber.implicit name last ts)
        (valueNumber.implicit name' last us) := by
    intro ts us h
    unfold valueNumber.implicit
    cases implicitValue last with
    | some value => exact .ok ⟨rfl, h⟩
    | none => exact .invalid hName.position _
  cases h with
  | nil => exact hImplicit .nil
  | cons ht h =>
    unfold valueNumber
    dsimp only
    rw [ht.is_eq]
    split
    · exact number_agree Number.readSigned .integer h
    · exact hImplicit (.cons ht h)

/-- What follows a value: a comma and more values, or the closing brace. -/
def valuesAfter (e : Enumeration) (value : Int) : List Token → Attempt (Enumeration × List Token)
  | [] => .error (.endOfInput .commaOrClose)
  | s :: more =>
    if s.is "," then values e (some value) more
    else if s.is "\x7d" then .ok (e, more)
    else .error (.unexpected s .commaOrClose)

/-- What is done with the number of a value: the value is added, and further values follow. -/
def valueAfter (e : Enumeration) (name : Token) (x : Int × List Token) :
    Attempt (Enumeration × List Token) :=
  match e.addValue? name.text x.1 with
  | none => .error (.invalid name.position (.declaredTwice name.text e.name))
  | some e => valuesAfter e x.1 x.2

theorem values_cons (e : Enumeration) (last : Option Int) (t : Token) (rest : List Token) :
    values e last (t :: rest) =
      if t.is "\x7d" then .ok (e, rest)
      else if !isIdentifier t then .error (.unexpected t .valueOrClose)
      else if t.text = unknownName then .error (.invalid t.position .reservedUnknown)
      else valueNumber t last rest >>= valueAfter e t := by
  rw [values]
  split
  · rfl
  · split
    · rfl
    · split
      · rfl
      · split
        · rename_i hError
          rw [hError]
          rfl
        · rename_i value after hValue
          have hNext : valueNumber t last rest >>= valueAfter e t =
              valueAfter e t (value, after) := by
            rw [hValue]
            rfl
          rw [hNext]
          unfold valueAfter
          dsimp only
          cases e.addValue? t.text value with
          | none => rfl
          | some e => cases after <;> rfl

/-- The enums differ at most in what is erased. -/
abbrev SameEnum (E : Erasure) (e e' : Enumeration) : Prop :=
  e.erase E = e'.erase E

theorem values_agree {e e' : Enumeration} (he : SameEnum E e e') (last : Option Int)
    (h : List.Forall₂ (Token.Alike E) ts us) :
    Agree E (Reads E (SameEnum E)) (values e last ts) (values e' last us) := by
  induction hn : ts.length using Nat.strongRecOn generalizing ts us e e' last with
  | ind n ih =>
    cases h with
    | nil =>
      rw [values, values]
      exact .ended _
    | @cons t u rest rest' ht h =>
      rw [values_cons, values_cons, ht.is_eq, ht.isIdentifier_eq]
      split
      · exact .ok ⟨he, h⟩
      · split
        · exact .unexpected ht _
        · rename_i hName
          have hWord := ht.sameWord (by simpa using hName)
          rw [← hWord.text]
          split
          · exact .invalid hWord.position _
          · refine (valueNumber_agree hWord last h).bind ?_
            rintro ⟨value, after⟩ ⟨value', after'⟩ hRead ⟨rfl, hAfter⟩
            have hShorter := valueNumber_length hRead
            have hAdd : (e.addValue? t.text value).map (Enumeration.erase E) =
                (e'.addValue? t.text value).map (Enumeration.erase E) := by
              rw [Enumeration.addValue?_erase, Enumeration.addValue?_erase, he]
            have hOwner : (e.erase E).name = (e'.erase E).name := congrArg Enumeration.name he
            change e.name = e'.name at hOwner
            unfold valueAfter
            dsimp only
            rw [← hWord.text]
            cases hFirst : e.addValue? t.text value with
            | none =>
              rw [hFirst] at hAdd
              rw [Option.map_eq_none_iff.1 hAdd.symm, hOwner]
              exact .invalid hWord.position _
            | some e₂ =>
              rw [hFirst] at hAdd
              obtain ⟨e₂', hSecond, hSame⟩ := Option.map_eq_some_iff.1 hAdd.symm
              rw [hSecond]
              cases hAfter with
              | nil => exact .ended _
              | @cons s s' more more' hs hMore =>
                unfold valuesAfter
                dsimp only
                rw [hs.is_eq, hs.is_eq]
                split
                · refine ih more.length ?_ hSame.symm (some value) hMore rfl
                  simp only [List.length_cons] at hShorter hn
                  omega
                · split
                  · exact .ok ⟨hSame.symm, hMore⟩
                  · exact .unexpected hs _

theorem enumeration_agree (hm : model.erase E = model'.erase E)
    (h : List.Forall₂ (Token.Alike E) ts us) :
    Agree E (Reads E (SameEnum E)) (enumeration model ts) (enumeration model' us) := by
  unfold enumeration
  refine (newName_agree hm .enumName h).bind ?_
  rintro ⟨name, _⟩ ⟨name', _⟩ - ⟨hName, h⟩
  dsimp only at hName ⊢
  have hEmpty : SameEnum E { name := name.text, position := name.position }
      { name := name'.text, position := name'.position } := by
    simp only [SameEnum, Enumeration.erase, Option.map_some, hName.text, hName.position]
  refine (expect_agree h "\x7b").bind (fun _ _ _ h => ?_)
  refine (values_agree hEmpty none h).bind ?_
  rintro ⟨e, _⟩ ⟨e', _⟩ - ⟨he, h⟩
  refine .ok ⟨?_, optionalSemicolon_alike h⟩
  rw [SameEnum, Enumeration.close_erase, Enumeration.close_erase, he]

/-! ## Declarations -/

/-- Quoted braces do not count. -/
theorem configRest_agree (depth : Nat) (h : List.Forall₂ (Token.Alike E) ts us) :
    Agree E (List.Forall₂ (Token.Alike E)) (configRest depth ts) (configRest depth us) := by
  induction h generalizing depth with
  | nil => exact .ended _
  | cons ht h ih =>
    unfold configRest
    rw [ht.is_eq, ht.is_eq]
    split
    · exact ih (depth + 1)
    · split
      · cases depth with
        | zero => exact .ok h
        | succ depth => exact ih depth
      · exact ih depth

/-- The declarations differ at most in what is erased. -/
abbrev SameDeclaration (E : Erasure) (d d' : Declaration) : Prop :=
  d.erase E = d'.erase E

theorem SameDeclaration.struct_left {s : Struct} {d : Declaration}
    (h : SameDeclaration E (.struct s) d) : ∃ s', d = .struct s' ∧ SameStruct E s s' := by
  cases d with
  | struct s' => exact ⟨s', rfl, Declaration.struct.inj h⟩
  | _ => cases h

theorem SameDeclaration.enumeration_left {e : Enumeration} {d : Declaration}
    (h : SameDeclaration E (.enumeration e) d) : ∃ e', d = .enumeration e' ∧ SameEnum E e e' := by
  cases d with
  | enumeration e' => exact ⟨e', rfl, Declaration.enumeration.inj h⟩
  | _ => cases h

theorem SameDeclaration.config_left {d : Declaration} (h : SameDeclaration E .config d) :
    d = .config := by
  cases d <;> cases h
  rfl

/-- The path of an inclusion is joined from the texts of its tokens, quoted or not, so inclusions
are left out. -/
theorem declaration_agree (hm : model.erase E = model'.erase E) {t u : Token}
    (ht : t.Alike E u) (hInclude : t.is "include" = false)
    (h : List.Forall₂ (Token.Alike E) ts us) :
    Agree E (Reads E (SameDeclaration E)) (declaration model t ts) (declaration model' u us) := by
  unfold declaration
  rw [ht.is_eq, ht.is_eq, ht.is_eq, ht.is_eq, hInclude]
  rw [if_neg Bool.false_ne_true, if_neg Bool.false_ne_true]
  split
  · refine (struct_agree hm h).bind ?_
    rintro _ _ - ⟨hs, h⟩
    exact .ok ⟨congrArg Declaration.struct hs, h⟩
  · split
    · refine (enumeration_agree hm h).bind ?_
      rintro _ _ - ⟨he, h⟩
      exact .ok ⟨congrArg Declaration.enumeration he, h⟩
    · split
      · refine (expect_agree h "\x7b").bind (fun _ _ _ h => ?_)
        refine (configRest_agree 0 h).bind (fun _ _ _ h => ?_)
        exact .ok ⟨rfl, h⟩
      · exact .unexpected ht _

end

end Grammar

namespace Reader

open Grammar

variable {E : Erasure} {inclusion : Reader → Position → Path → Outcome} {file : Path}

/-! ## Announcing -/

theorem announceTokens_alike (model : Model) {ts us : List Token}
    (h : List.Forall₂ (Token.Alike E) ts us) :
    announceTokens model us = announceTokens model ts := by
  induction h generalizing model with
  | nil => rfl
  | @cons t u ts us ht h ih =>
    cases h with
    | nil => rfl
    | @cons name name' rest rest' hName h =>
      unfold announceTokens
      rw [ht.is_eq, ht.is_eq, hName.isIdentifier_eq, ih]
      -- Only a name is announced, and a name is no quoted text.
      by_cases hWord : isIdentifier name = true
      · rw [(hName.sameWord hWord).text]
      · simp [hWord]

/-! ## Whole files -/

/-- Two readings end alike: in states that differ at most in what is erased, and both without an
error or both with errors that are alike. -/
structure EndAlike (E : Erasure) (file : Path) (x y : Outcome) : Prop where
  state : x.1.erase E = y.1.erase E
  result : (x.2 = .ok () ∧ y.2 = .ok ()) ∨
    ∃ e f : SyntaxError, x.2 = .error (.grammar file.text e) ∧
      y.2 = .error (.grammar file.text f) ∧ e.Alike E f

theorem declarations_error {r : Reader} {t : Token} {ts : List Token} {e : SyntaxError}
    (h : declaration r.model t ts = .error e) :
    declarations inclusion file r (t :: ts) = (r, .error (.grammar file.text e)) := by
  rw [declarations]
  split <;> simp_all

theorem erase_congr {r r' : Reader} {model model' : Model}
    (h : r.erase E = r'.erase E) (hm : model.erase E = model'.erase E) :
    ({ r with model } : Reader).erase E = ({ r' with model := model' } : Reader).erase E := by
  simp only [Reader.erase, Reader.mk.injEq] at h ⊢
  exact ⟨hm, h.2⟩

/-- What is declared in the one reading is declared in the other. -/
theorem declaration_ok_alike {r r' : Reader} {t u : Token} {ts us after : List Token}
    {d : Declaration} (hr : r.erase E = r'.erase E) (ht : t.Alike E u)
    (hInclude : t.is "include" = false) (h : List.Forall₂ (Token.Alike E) ts us)
    (hd : declaration r.model t ts = .ok (d, after)) :
    ∃ d' after', declaration r'.model u us = .ok (d', after') ∧ SameDeclaration E d d' ∧
      List.Forall₂ (Token.Alike E) after after' := by
  have hAgree := declaration_agree (congrArg Reader.model hr) ht hInclude h
  rw [hd] at hAgree
  obtain ⟨⟨d', after'⟩, hd', hSame, hAfter⟩ := hAgree.ok_left
  exact ⟨d', after', hd', hSame, hAfter⟩

/-- The step from one declaration to the next is the same in both readings, and so is the run. -/
theorem declarations_alike {r r' : Reader} {ts us : List Token}
    (hr : r.erase E = r'.erase E) (h : List.Forall₂ (Token.Alike E) ts us)
    (hInclude : ¬ HasInclude typeWords r.model ts) :
    EndAlike E file (declarations inclusion file r ts) (declarations inclusion file r' us) := by
  have hFirst : ∀ {r : Reader} {t : Token} {ts : List Token},
      ¬ HasInclude typeWords r.model (t :: ts) → t.is "include" = false := by
    intro r t ts hInclude
    by_contra ht
    exact hInclude ⟨[], t, ts, r.model, rfl, by simpa using ht, IsSchema.nil⟩
  have hModel : ∀ {r r' : Reader}, r.erase E = r'.erase E → r.model.erase E = r'.model.erase E :=
    fun hr => congrArg Reader.model hr
  fun_induction declarations inclusion file r ts generalizing r' us with
  | case1 r =>
    cases h
    rw [declarations_nil]
    exact ⟨hr, Or.inl ⟨rfl, rfl⟩⟩
  | case2 r t ts e hd =>
    obtain _ | ⟨ht, h⟩ := h
    have hAgree := declaration_agree (hModel hr) ht (hFirst hInclude) h
    rw [hd] at hAgree
    obtain ⟨f, hd', hError⟩ := hAgree.error_left
    rw [declarations_error hd']
    exact ⟨hr, Or.inr ⟨e, f, rfl, rfl, hError⟩⟩
  | case3 r t ts s after hd ih =>
    obtain _ | ⟨ht, h⟩ := h
    obtain ⟨d', after', hd', hSame, hAfter⟩ :=
      declaration_ok_alike hr ht (hFirst hInclude) h hd
    obtain ⟨s', rfl, hs⟩ := hSame.struct_left
    rw [declarations_struct hd']
    obtain ⟨used, hUsed, hStruct, _⟩ := isStruct_of_declaration hd
    rw [hUsed] at hInclude
    refine ih (erase_congr hr ?_) hAfter
      (fun hi => hInclude (hasInclude_append (IsSchema.struct hStruct) hi))
    rw [Model.erase_declareStruct, Model.erase_declareStruct, hModel hr, hs]
  | case4 r t ts e after hd ih =>
    obtain _ | ⟨ht, h⟩ := h
    obtain ⟨d', after', hd', hSame, hAfter⟩ :=
      declaration_ok_alike hr ht (hFirst hInclude) h hd
    obtain ⟨e', rfl, he⟩ := hSame.enumeration_left
    rw [declarations_enumeration hd']
    obtain ⟨used, hUsed, hEnum, _⟩ := isEnum_of_declaration hd
    rw [hUsed] at hInclude
    refine ih (erase_congr hr ?_) hAfter
      (fun hi => hInclude (hasInclude_append (IsSchema.enumeration hEnum) hi))
    rw [Model.erase_declareEnum, Model.erase_declareEnum, hModel hr, he]
  | case5 r t ts after hd ih =>
    obtain _ | ⟨ht, h⟩ := h
    obtain ⟨d', after', hd', hSame, hAfter⟩ :=
      declaration_ok_alike hr ht (hFirst hInclude) h hd
    obtain rfl := hSame.config_left
    rw [declarations_config hd']
    obtain ⟨used, hUsed, hConfig⟩ := isConfig_of_declaration hd
    rw [hUsed] at hInclude
    exact ih hr hAfter (fun hi => hInclude (hasInclude_append (IsSchema.config hConfig) hi))
  | case6 r t ts position written after hd =>
    exact absurd (is_include_of_declaration hd) (by simp [hFirst hInclude])
  | case7 r t ts position written after hd =>
    exact absurd (is_include_of_declaration hd) (by simp [hFirst hInclude])

/-- Quoted text is no part of the grammar. When only quoted texts of a file are changed, its tokens
are read as before: with the same entities but for the texts of descriptions and defaults, or with
the same error in the same place. -/
theorem declarations_endAlike (inclusion : Reader → Position → Path → Outcome) (file : Path)
    (r : Reader) {ts us : List Token} (h : List.Forall₂ (Token.Alike .texts) ts us)
    (hInclude : ¬ HasInclude typeWords (announceTokens r.model ts) ts) :
    EndAlike .texts file
      (declarations inclusion file { r with model := announceTokens r.model ts } ts)
      (declarations inclusion file { r with model := announceTokens r.model us } us) := by
  rw [announceTokens_alike r.model h]
  exact declarations_alike rfl h hInclude

/-- A struct whose member has two quoted texts, and then a quoted word of the grammar. -/
def quotingTokens (description default last : String) : List Token :=
  [wordAt 1 "struct", wordAt 8 "A", wordAt 10 "\x7b", wordAt 12 "string", wordAt 18 ":",
    wordAt 20 "x", wordAt 21 ":", wordAt 23 "description", wordAt 34 "(",
    ⟨description, ⟨inputName.text, 1, 35⟩, true⟩, wordAt 48 ")", wordAt 49 ":", wordAt 51 "default",
    wordAt 58 "(", ⟨default, ⟨inputName.text, 1, 59⟩, true⟩, wordAt 69 ")", wordAt 70 ";",
    wordAt 72 "\x7d", ⟨last, ⟨inputName.text, 1, 74⟩, true⟩]

/-- Braces and keywords between quotes do not end the struct, and a quoted `struct` starts none. -/
theorem quotingTokens_endAlike :
    List.Forall₂ (Token.Alike .texts) (quotingTokens "\x7d" "" "struct")
        (quotingTokens "" "; \x7d" "x") ∧
      ¬ HasInclude typeWords (announceTokens {} (quotingTokens "\x7d" "" "struct"))
        (quotingTokens "\x7d" "" "struct") ∧
      EndAlike .texts inputName
        (declarations (inclusionIn {}) inputName
          { model := announceTokens {} (quotingTokens "\x7d" "" "struct") }
          (quotingTokens "\x7d" "" "struct"))
        (declarations (inclusionIn {}) inputName
          { model := announceTokens {} (quotingTokens "" "; \x7d" "x") }
          (quotingTokens "" "; \x7d" "x")) := by
  have hAlike : List.Forall₂ (Token.Alike .texts) (quotingTokens "\x7d" "" "struct")
      (quotingTokens "" "; \x7d" "x") := by
    unfold quotingTokens
    repeat' constructor
    all_goals simp
  have hInclude : ¬ HasInclude typeWords (announceTokens {} (quotingTokens "\x7d" "" "struct"))
      (quotingTokens "\x7d" "" "struct") := by
    rintro ⟨before, t, after, final, hTokens, ht, _⟩
    have hNone : ∀ t ∈ quotingTokens "\x7d" "" "struct", t.is "include" = false := by decide
    have := hNone t (hTokens ▸ by simp)
    simp [this] at ht
  exact ⟨hAlike, hInclude, declarations_endAlike (inclusionIn {}) inputName {} hAlike hInclude⟩

end Reader

end EntitySchema
