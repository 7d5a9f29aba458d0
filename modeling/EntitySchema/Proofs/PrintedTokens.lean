import EntitySchema.Proofs.Lexing
import EntitySchema.Proofs.ReaderInvariant

/-!
The tokens of models as they are printed. However the columns of the text are laid out, it is read
as the same tokens: the words of the declarations, the marks between them and the quoted texts.
-/

namespace EntitySchema

open Lexer EntitySchema.Derivation Grammar

/-! ## Numbers -/

namespace Number

theorem ofDigits?_toDigits (n : Nat) : ofDigits? (Nat.toDigits 10 n) = some n := by
  have hDigits : (Nat.toDigits 10 n).all Char.isDigit = true := by
    rw [List.all_eq_true]
    intro c hc
    exact Nat.isDigit_of_mem_toDigits (by decide) (by decide) hc
  have hValue : ofDigits (Nat.toDigits 10 n) = n := Nat.ofDigitChars_ten_toDigits
  simp [ofDigits?, hDigits, hValue, Nat.toDigits_ne_nil]

/-- No digit is a sign. -/
theorem toDigits_cases (n : Nat) :
    ∃ c cs, Nat.toDigits 10 n = c :: cs ∧ c ≠ '+' ∧ c ≠ '-' := by
  obtain ⟨c, cs, h⟩ := List.exists_cons_of_ne_nil (Nat.toDigits_ne_nil : Nat.toDigits 10 n ≠ [])
  have hDigit : c.isDigit = true :=
    Nat.isDigit_of_mem_toDigits (by decide) (by decide) (h ▸ List.mem_cons_self)
  refine ⟨c, cs, h, ?_, ?_⟩
  · rintro rfl
    cases hDigit
  · rintro rfl
    cases hDigit

theorem readUnsigned_decimal {n : Nat} (hn : n ≤ maxUnsigned) :
    readUnsigned (decimal n) = some n := by
  obtain ⟨c, cs, h, hPlus, _⟩ := toDigits_cases n
  have hDigits := ofDigits?_toDigits n
  rw [h] at hDigits
  simp only [readUnsigned, decimal, String.toList_ofList, h]
  split <;> simp_all

theorem readSigned_signedDecimal {i : Int} (hMin : minSigned ≤ i) (hMax : i ≤ maxSigned) :
    readSigned (signedDecimal i) = some i := by
  cases i with
  | ofNat n =>
    obtain ⟨c, cs, h, hPlus, hMinus⟩ := toDigits_cases n
    have hDigits := ofDigits?_toDigits n
    rw [h] at hDigits
    simp only [readSigned, signedDecimal, decimal, String.toList_ofList, h]
    split <;> simp_all
  | negSucc n =>
    have hText : ("-" ++ decimal (n + 1)).toList = '-' :: Nat.toDigits 10 (n + 1) := by
      simp [decimal]
    have hValue : -Int.ofNat (n + 1) = Int.negSucc n := rfl
    simp only [readSigned, signedDecimal, hText, ofDigits?_toDigits, Option.map_some, hValue]
    rw [if_pos ⟨hMin, hMax⟩]

end Number

/-! ## Words -/

/-- The characters with a meaning of their own. -/
def specialChars : List Char :=
  [' ', '\n', '\t', '\r', '"', '\\', '/'] ++ Token.punctuation

theorem isPlainWord_of {p : Char → Bool} {w : List Char}
    (hp : specialChars.all (fun c => !p c) = true) (hne : w ≠ []) (hw : ∀ c ∈ w, p c = true) :
    IsPlainWord w := by
  have hSpecial : ∀ c ∈ w, c ∉ specialChars := by
    intro c hc hMem
    have hNot := List.all_eq_true.1 hp c hMem
    simp [hw c hc] at hNot
  refine ⟨hne, ?_, ?_⟩
  · intro c hc
    have := hSpecial c hc
    simp only [specialChars, List.mem_append, List.mem_cons, List.not_mem_nil, or_false] at this
    simp_all [isPlain, isSpace, Token.isPunctuationChar]
  · intro hSlash
    exact hSpecial '/' (hSlash.subset List.mem_cons_self) (by decide)

theorem isPlainWord_of_isName {text : String} (h : isName text) : IsPlainWord text.toList := by
  unfold isName at h
  cases hText : text.toList with
  | nil => simp [hText] at h
  | cons c cs =>
    simp only [hText, Bool.and_eq_true, List.all_eq_true] at h
    refine isPlainWord_of (p := fun c => Text.isAlphanumeric c || c == '_') (by decide) (by simp) ?_
    rw [List.forall_mem_cons]
    refine ⟨?_, h.2⟩
    simp only [Bool.or_eq_true] at h ⊢
    exact h.1.imp (fun hc => by simp [Text.isAlphanumeric, hc]) id

theorem isPlainWord_decimal (n : Nat) : IsPlainWord (Number.decimal n).toList := by
  unfold Number.decimal
  rw [String.toList_ofList]
  refine isPlainWord_of (p := Char.isDigit) (by decide) Nat.toDigits_ne_nil ?_
  intro c hc
  exact Nat.isDigit_of_mem_toDigits (by decide) (by decide) hc

theorem isPlainWord_signedDecimal (i : Int) : IsPlainWord (Number.signedDecimal i).toList := by
  cases i with
  | ofNat n => exact isPlainWord_decimal n
  | negSucc n =>
    have hText : (Number.signedDecimal (.negSucc n)).toList = '-' :: Nat.toDigits 10 (n + 1) := by
      simp [Number.signedDecimal, Number.decimal]
    rw [hText]
    refine isPlainWord_of (p := fun c => c == '-' || c.isDigit) (by decide) (by simp) ?_
    rw [List.forall_mem_cons]
    refine ⟨by decide, ?_⟩
    intro c hc
    simp [Nat.isDigit_of_mem_toDigits (by decide) (by decide) hc]

namespace Printer

/-! ## Types -/

/-- A punctuation mark at no particular place. -/
def mark (c : Char) : Token :=
  bare (String.singleton c)

def typeTokens : TypeExpr → List Token
  | .scalar s => [bare s.keyword]
  | .named name => [bare name]
  | .array element => bare "array" :: mark '<' :: (typeTokens element ++ [mark '>'])

section

variable {cs : List Char} {ts : List Token}

theorem lexes_text {text : String} (hw : IsPlainWord text.toList) (hb : Breaks cs)
    (h : Lexes cs ts) : Lexes (text.toList ++ cs) (bare text :: ts) := by
  have hText := lexes_word hw hb h
  rwa [String.ofList_toList] at hText

theorem lexes_name {text : String} (hn : isName text) (hb : Breaks cs) (h : Lexes cs ts) :
    Lexes (text.toList ++ cs) (bare text :: ts) :=
  lexes_text (isPlainWord_of_isName hn) hb h

theorem lexes_spaces (n : Nat) (h : Lexes cs ts) : Lexes (List.replicate n ' ' ++ cs) ts := by
  induction n with
  | zero => exact h
  | succ n ih => exact lexes_space rfl ih

theorem lexes_type {type : TypeExpr} (ht : ∀ n, type.innermostName? = some n → isName n)
    (hb : Breaks cs) (h : Lexes cs ts) :
    Lexes (type.render.toList ++ cs) (typeTokens type ++ ts) := by
  induction type generalizing cs ts with
  | scalar s => exact lexes_name (isName_keyword s) hb h
  | named name => exact lexes_name (ht name rfl) hb h
  | array element ih =>
    have hText : (TypeExpr.array element).render.toList ++ cs =
        "array".toList ++ '<' :: (element.render.toList ++ '>' :: cs) := by
      simp [TypeExpr.render]
    have hTokens : typeTokens (.array element) ++ ts =
        bare "array" :: mark '<' :: (typeTokens element ++ mark '>' :: ts) := by
      simp [typeTokens]
    rw [hText, hTokens]
    refine lexes_name (by decide) (breaks_cons (by decide)) (lexes_mark (by decide) ?_)
    exact ih ht (breaks_cons (by decide)) (lexes_mark (by decide) h)

end

/-! ## Modifiers -/

/-- Whether a default value is printed in quotes. -/
def isQuoted (type : TypeExpr) (value : String) : Bool :=
  type.isTextual || needsQuotes value

/-- The keyword of a modifier, and the text and the tokens of its argument. -/
def modifierParts (type : TypeExpr) : Modifier → String × Option (String × List Token)
  | .required true => ("required", none)
  | .required false => ("optional", none)
  | .unique => ("unique", none)
  | .autoIncrement => ("auto_increment", none)
  | .primaryKey => ("primary_key", none)
  | .minItems n => ("min_items", some (Number.decimal n, [bare (Number.decimal n)]))
  | .maxItems n => ("max_items", some (Number.decimal n, [bare (Number.decimal n)]))
  | .reference r => ("reference", some (r.render, [bare r.struct, mark '.', bare r.field]))
  | .description text => ("description", some (quote text, [bare text true]))
  | .defaultValue value =>
    ("default", some (defaultText type value,
      [bare value (isQuoted type value)]))

/-- A modifier as it is printed after its colon. -/
def modifierText (type : TypeExpr) (x : Modifier) : String :=
  match modifierParts type x with
  | (keyword, none) => keyword
  | (keyword, some (text, _)) => keyword ++ "(" ++ text ++ ")"

def modifierTokens (type : TypeExpr) (x : Modifier) : List Token :=
  match modifierParts type x with
  | (keyword, none) => [bare keyword]
  | (keyword, some (_, ts)) => bare keyword :: mark '(' :: (ts ++ [mark ')'])

/-- The modifiers of a member that are a single word. -/
def flagModifiers (m : Member) : List Modifier :=
  (if m.required then [.required true] else []) ++
    (if m.unique then [.unique] else []) ++
    (if m.autoIncrement then [.autoIncrement] else []) ++
    (if m.primaryKey then [.primaryKey] else [])

/-- The modifiers of a member that have an argument. -/
def argumentModifiers (m : Member) : List Modifier :=
  (m.reference.map .reference).toList ++
    (m.minItems.map .minItems).toList ++
    (m.maxItems.map .maxItems).toList ++
    (m.defaultValue.map .defaultValue).toList ++
    (m.description.map .description).toList

/-- The modifiers of a member, in the order in which they are printed. -/
def printedModifiers (m : Member) : List Modifier :=
  flagModifiers m ++ argumentModifiers m

/-- What a modifier adds to the text of a member. -/
def modifierChars (type : TypeExpr) (x : Modifier) : List Char :=
  ':' :: ' ' :: (modifierText type x).toList

theorem flag_toList (on : Bool) (type : TypeExpr) (x : Modifier) :
    (flag on (modifierText type x)).toList =
      (if on then [x] else []).flatMap (modifierChars type) := by
  cases on <;> simp [flag, modifierChars]

theorem argument_toList {α : Type} {name : String} {print : α → String} {make : α → Modifier}
    {type : TypeExpr} (h : ∀ a, modifierText type (make a) = name ++ "(" ++ print a ++ ")")
    (a : Option α) :
    (argument name (a.map print)).toList = (a.map make).toList.flatMap (modifierChars type) := by
  cases a with
  | none => rfl
  | some a => simp [argument, modifierChars, h]

theorem memberTail_toList (m : Member) :
    (memberTail m).toList =
      m.name.toList ++ ((printedModifiers m).flatMap (modifierChars m.type) ++ [';']) := by
  have hReference : (argument "reference" (m.reference.map Reference.render)).toList =
      (m.reference.map .reference).toList.flatMap (modifierChars m.type) :=
    argument_toList (fun _ => rfl) m.reference
  have hMin : (argument "min_items" (m.minItems.map Number.decimal)).toList =
      (m.minItems.map .minItems).toList.flatMap (modifierChars m.type) :=
    argument_toList (fun _ => rfl) m.minItems
  have hMax : (argument "max_items" (m.maxItems.map Number.decimal)).toList =
      (m.maxItems.map .maxItems).toList.flatMap (modifierChars m.type) :=
    argument_toList (fun _ => rfl) m.maxItems
  have hDefault : (argument "default" (m.defaultValue.map (defaultText m.type))).toList =
      (m.defaultValue.map .defaultValue).toList.flatMap (modifierChars m.type) :=
    argument_toList (fun _ => rfl) m.defaultValue
  have hDescription : (argument "description" (m.description.map quote)).toList =
      (m.description.map .description).toList.flatMap (modifierChars m.type) :=
    argument_toList (fun _ => rfl) m.description
  -- A flag is printed as the word of its modifier, or not at all.
  have hFlags := flag_toList m.required m.type (.required true)
  have hUnique := flag_toList m.unique m.type .unique
  have hIncrement := flag_toList m.autoIncrement m.type .autoIncrement
  have hKey := flag_toList m.primaryKey m.type .primaryKey
  simp only [modifierText, modifierParts] at hFlags hUnique hIncrement hKey
  simp only [memberTail, printedModifiers, flagModifiers, argumentModifiers, String.toList_append,
    List.flatMap_append, hFlags, hUnique, hIncrement, hKey, hReference, hMin, hMax, hDefault,
    hDescription, List.append_assoc]
  rfl

/-- A modifier that is read as it is printed. -/
def Printable (type : TypeExpr) : Modifier → Prop
  | .reference r => isName r.struct ∧ isName r.field
  | .defaultValue value => isQuoted type value = false → ¬ ['/', '/'] <:+: value.toList
  | _ => True

section

variable {cs : List Char} {ts : List Token} {type : TypeExpr} {x : Modifier}

/-- The characters of a value that needs no quotes stand for themselves. -/
theorem isPlain_of_needsQuotes {value : String} (h : needsQuotes value = false) :
    ∀ c ∈ value.toList, isPlain c := by
  simp only [needsQuotes, Bool.or_eq_false_iff, List.any_eq_false] at h
  intro c hc
  -- The blanks that make quotes necessary include all spaces between tokens.
  have hSpaces : ∀ c, isSpace c = true → Text.isBlank c = true := by
    intro c hc
    simp only [isSpace, Bool.or_eq_true, beq_iff_eq] at hc
    rcases hc with ((rfl | rfl) | rfl) | rfl <;> decide
  have hNot := h.2 c hc
  simp only [Bool.or_eq_true, not_or, Bool.not_eq_true, beq_iff_eq] at hNot
  obtain ⟨⟨⟨hBlank, hQuote⟩, hEscape⟩, hMark⟩ := hNot
  refine isPlain_iff.2 ⟨?_, hMark, hQuote, hEscape⟩
  rw [Bool.eq_false_iff]
  intro hs
  rw [hSpaces c hs] at hBlank
  cases hBlank

theorem isPlainWord_of_needsQuotes {value : String} (h : needsQuotes value = false)
    (hSlash : ¬ ['/', '/'] <:+: value.toList) : IsPlainWord value.toList := by
  have hPlain := isPlain_of_needsQuotes h
  simp only [needsQuotes, Bool.or_eq_false_iff] at h
  exact ⟨by simpa using h.1.1, hPlain, hSlash⟩

theorem lexes_argument {keyword text : String} {tokens : List Token} (hx : Printable type x)
    (hParts : modifierParts type x = (keyword, some (text, tokens))) (hb : Breaks cs)
    (h : Lexes cs ts) : Lexes (text.toList ++ cs) (tokens ++ ts) := by
  cases x with
  | required on => cases on <;> cases hParts
  | unique | autoIncrement | primaryKey => cases hParts
  | minItems n | maxItems n =>
    cases hParts
    exact lexes_text (isPlainWord_decimal n) hb h
  | description text =>
    cases hParts
    exact lexes_quote text h
  | reference r =>
    cases hParts
    have hText : r.render.toList ++ cs = r.struct.toList ++ '.' :: (r.field.toList ++ cs) := by
      simp [Reference.render]
    rw [hText]
    exact lexes_name hx.1 (breaks_cons (by decide))
      (lexes_mark (by decide) (lexes_name hx.2 hb h))
  | defaultValue value =>
    cases hParts
    have hText : defaultText type value =
        if isQuoted type value then quote value else value := rfl
    rw [hText]
    by_cases hq : isQuoted type value = true
    · rw [if_pos hq, hq]
      exact lexes_quote value h
    · rw [if_neg hq]
      rw [Bool.not_eq_true] at hq
      rw [hq]
      have hNeeds : needsQuotes value = false := by
        unfold isQuoted at hq
        rw [Bool.or_eq_false_iff] at hq
        exact hq.2
      exact lexes_text (isPlainWord_of_needsQuotes hNeeds (hx hq)) hb h

theorem isName_modifierKeyword (type : TypeExpr) (x : Modifier) :
    isName (modifierParts type x).1 := by
  cases x with
  | required on => cases on <;> (simp only [modifierParts]; decide)
  | _ => simp only [modifierParts]; decide

theorem lexes_modifier (hx : Printable type x) (hb : Breaks cs) (h : Lexes cs ts) :
    Lexes ((modifierText type x).toList ++ cs) (modifierTokens type x ++ ts) := by
  have hName := isName_modifierKeyword type x
  unfold modifierText modifierTokens
  split
  · rename_i keyword hParts
    rw [hParts] at hName
    exact lexes_name hName hb h
  · rename_i keyword text tokens hParts
    rw [hParts] at hName
    have hText : (keyword ++ "(" ++ text ++ ")").toList ++ cs =
        keyword.toList ++ '(' :: (text.toList ++ ')' :: cs) := by
      simp
    rw [hText, List.cons_append, List.cons_append, List.append_assoc]
    refine lexes_name hName (breaks_cons (by decide)) (lexes_mark (by decide) ?_)
    exact lexes_argument hx hParts (breaks_cons (by decide)) (lexes_mark (by decide) h)

theorem breaks_modifiers (xs : List Modifier) (hb : Breaks cs) :
    Breaks (xs.flatMap (modifierChars type) ++ cs) := by
  cases xs with
  | nil => exact hb
  | cons x xs => exact breaks_cons (by decide)

theorem lexes_modifiers {xs : List Modifier} (hxs : ∀ x ∈ xs, Printable type x) (hb : Breaks cs)
    (h : Lexes cs ts) :
    Lexes (xs.flatMap (modifierChars type) ++ cs)
      (xs.flatMap (fun x => mark ':' :: modifierTokens type x) ++ ts) := by
  induction xs with
  | nil => exact h
  | cons x xs ih =>
    rw [List.forall_mem_cons] at hxs
    rw [List.flatMap_cons, List.flatMap_cons, List.append_assoc, List.append_assoc]
    refine lexes_mark (by decide) (lexes_space rfl ?_)
    exact lexes_modifier hxs.1 (breaks_modifiers xs hb) (ih hxs.2)

/-! ## Members -/

def memberTokens (m : Member) : List Token :=
  typeTokens m.type ++ mark ':' :: bare m.name ::
    ((printedModifiers m).flatMap (fun x => mark ':' :: modifierTokens m.type x) ++ [mark ';'])

/-- A member whose names and default value are read as they are printed. -/
structure IsPrintable (m : Member) : Prop where
  type : ∀ n, m.type.innermostName? = some n → isName n
  name : isName m.name
  modifiers : ∀ x ∈ printedModifiers m, Printable m.type x

/-- Two cells of a line, with any number of spaces between them, are read as these tokens. -/
def LexesCells (left right : String) (tokens : List Token) : Prop :=
  ∀ n cs ts, Lexes cs ts →
    Lexes ((left.toList ++ (List.replicate n ' ' ++ right.toList)) ++ cs) (tokens ++ ts)

theorem lexes_member {m : Member} (hm : IsPrintable m) :
    LexesCells (m.type.render ++ ":") (memberTail m) (memberTokens m) := by
  intro n cs ts h
  have hChars : ((m.type.render ++ ":").toList ++
      (List.replicate n ' ' ++ (memberTail m).toList)) ++ cs =
      m.type.render.toList ++ ':' :: (List.replicate n ' ' ++ (m.name.toList ++
        ((printedModifiers m).flatMap (modifierChars m.type) ++ ';' :: cs))) := by
    simp [memberTail_toList]
  have hTokens : memberTokens m ++ ts =
      typeTokens m.type ++ mark ':' :: bare m.name ::
        ((printedModifiers m).flatMap (fun x => mark ':' :: modifierTokens m.type x) ++
          mark ';' :: ts) := by
    simp [memberTokens]
  have hEnd : Breaks (';' :: cs) := breaks_cons (by decide)
  rw [hChars, hTokens]
  refine lexes_type hm.type (breaks_cons (by decide)) (lexes_mark (by decide) ?_)
  refine lexes_spaces n (lexes_name hm.name (breaks_modifiers _ hEnd) ?_)
  exact lexes_modifiers hm.modifiers hEnd (lexes_mark (by decide) h)

end

/-! ## Blocks -/

section

variable {cs : List Char} {ts : List Token} {layout : Text.Layout}

theorem line_toList (layout : Text.Layout) (a b : String) (widths : List Nat) :
    ∃ n, (layout.line [a, b] widths).toList =
      List.replicate layout.indent ' ' ++ (a.toList ++ (List.replicate n ' ' ++ b.toList)) := by
  refine ⟨widths.headD 0 - layout.width a + layout.gap, ?_⟩
  simp [Text.Layout.line, Text.Layout.cells, Text.Layout.pad, Text.Layout.spaces]

/-- The lines of a block, of which each is read by itself. -/
theorem lexes_lines {α : Type} {items : List α} {left right : α → String}
    {tokens : α → List Token} (widths : List Nat)
    (hItems : ∀ a ∈ items, LexesCells (left a) (right a) (tokens a))
    (h : Lexes cs ts) :
    Lexes ((items.flatMap (fun a => (layout.line [left a, right a] widths ++ "\n").toList)) ++ cs)
      (items.flatMap tokens ++ ts) := by
  induction items with
  | nil => exact h
  | cons a items ih =>
    rw [List.forall_mem_cons] at hItems
    obtain ⟨n, hn⟩ := line_toList layout (left a) (right a) widths
    have hLine : (layout.line [left a, right a] widths ++ "\n").toList =
        List.replicate layout.indent ' ' ++
          (((left a).toList ++ (List.replicate n ' ' ++ (right a).toList)) ++ ['\n']) := by
      simp [hn]
    rw [List.flatMap_cons, List.flatMap_cons, hLine]
    have hRest := hItems.1 n _ _ (lexes_space (c := '\n') rfl (ih hItems.2))
    simp only [List.append_assoc, List.cons_append, List.nil_append] at hRest ⊢
    exact lexes_spaces _ hRest

/-- The tokens of a block with one line for each item. -/
def blockTokens {α : Type} (keyword name : String) (tokens : α → List Token) (items : List α) :
    List Token :=
  bare keyword :: bare name :: mark '\x7b' :: (items.flatMap tokens ++ [mark '\x7d'])

theorem lexes_block {α : Type} {keyword name : String} {items : List α} {left right : α → String}
    {tokens : α → List Token} (hk : isName keyword) (hn : isName name)
    (hItems : ∀ a ∈ items, LexesCells (left a) (right a) (tokens a))
    (h : Lexes cs ts) :
    Lexes ((block layout (keyword ++ " " ++ name)
      (items.map (fun a => [left a, right a]))).toList ++ cs)
      (blockTokens keyword name tokens items ++ ts) := by
  have hChars : ∀ widths, (keyword ++ " " ++ name ++ " \x7b\n" ++
      String.join ((items.map (fun a => [left a, right a])).map
        (fun row => layout.line row widths ++ "\n")) ++ "\x7d\n").toList ++ cs =
      keyword.toList ++ ' ' :: (name.toList ++ ' ' :: '\x7b' :: '\n' ::
        (items.flatMap (fun a => (layout.line [left a, right a] widths ++ "\n").toList) ++
          '\x7d' :: '\n' :: cs)) := by
    intro widths
    simp [String.toList_join, List.flatMap_map, Function.comp_def]
  have hTokens : blockTokens keyword name tokens items ++ ts =
      bare keyword :: bare name :: mark '\x7b' ::
        (items.flatMap tokens ++ mark '\x7d' :: ts) := by
    simp [blockTokens]
  unfold block
  rw [hChars, hTokens]
  -- The head, the brace and the line breaks are passed first, then the lines.
  refine lexes_name hk (breaks_cons (by decide)) (lexes_space rfl ?_)
  refine lexes_name hn (breaks_cons (by decide)) (lexes_space rfl (lexes_mark (by decide) ?_))
  refine lexes_space rfl (lexes_lines _ hItems ?_)
  exact lexes_mark (by decide) (lexes_space rfl h)

/-! ## Models -/

def valueTokens (v : EnumValue) : List Token :=
  [bare v.name, mark '=', bare (Number.signedDecimal v.value), mark ',']

def enumTokens (e : Enumeration) : List Token :=
  blockTokens "enum" e.name valueTokens e.declaredValues

def structTokens (s : Struct) : List Token :=
  blockTokens "struct" s.name memberTokens (written s)

/-- The tokens of a model as it is printed. -/
def modelTokens (model : Model) : List Token :=
  model.enums.flatMap enumTokens ++ model.structs.flatMap structTokens

theorem breaks_spaces (n : Nat) (hb : Breaks cs) : Breaks (List.replicate n ' ' ++ cs) := by
  cases n with
  | zero => exact hb
  | succ n => exact breaks_cons (by decide)

theorem lexes_value {v : EnumValue} (hv : isName v.name) :
    LexesCells v.name ("= " ++ Number.signedDecimal v.value ++ ",") (valueTokens v) := by
  intro n cs ts h
  have hChars : (v.name.toList ++ (List.replicate n ' ' ++
      ("= " ++ Number.signedDecimal v.value ++ ",").toList)) ++ cs =
      v.name.toList ++ (List.replicate n ' ' ++
        '=' :: ' ' :: ((Number.signedDecimal v.value).toList ++ ',' :: cs)) := by
    simp
  rw [hChars]
  refine lexes_name hv (breaks_spaces n (breaks_cons (by decide))) (lexes_spaces n ?_)
  refine lexes_mark (by decide) (lexes_space rfl ?_)
  exact lexes_text (isPlainWord_signedDecimal v.value) (breaks_cons (by decide))
    (lexes_mark (by decide) h)

theorem lexes_enum {e : Enumeration} (he : isName e.name)
    (hvs : ∀ v ∈ e.declaredValues, isName v.name) (h : Lexes cs ts) :
    Lexes ((enumeration layout e).toList ++ cs) (enumTokens e ++ ts) := by
  have hHead : "enum " ++ e.name = "enum" ++ " " ++ e.name := by
    rw [show "enum " = "enum" ++ " " from by decide]
  unfold enumeration enumTokens
  rw [hHead]
  exact lexes_block (by decide) he (fun v hv => lexes_value (hvs v hv)) h

theorem lexes_struct {s : Struct} (hs : isName s.name) (hms : ∀ m ∈ written s, IsPrintable m)
    (h : Lexes cs ts) : Lexes ((struct layout s).toList ++ cs) (structTokens s ++ ts) := by
  have hHead : "struct " ++ s.name = "struct" ++ " " ++ s.name := by
    rw [show "struct " = "struct" ++ " " from by decide]
  unfold Printer.struct structTokens
  rw [hHead]
  exact lexes_block (by decide) hs (fun m hm => lexes_member (hms m hm)) h

/-- Texts with line breaks between them, of which each is read by itself. -/
theorem lexes_intercalate {blocks : List (List Char × List Token)}
    (hBlocks : ∀ b ∈ blocks, ∀ cs ts, Lexes cs ts → Lexes (b.1 ++ cs) (b.2 ++ ts)) :
    Lexes (['\n'].intercalate (blocks.map Prod.fst)) (blocks.flatMap Prod.snd) := by
  induction blocks with
  | nil => exact lexes_nil
  | cons b blocks ih =>
    rw [List.forall_mem_cons] at hBlocks
    cases blocks with
    | nil => simpa using hBlocks.1 [] [] lexes_nil
    | cons b' blocks =>
      have hRest := hBlocks.1 _ _ (lexes_space (c := '\n') rfl (ih hBlocks.2))
      simpa [List.intercalate] using hRest

/-- The text of a model is read as its tokens. -/
theorem lexes_model {model : Model} (layout : Text.Layout)
    (hEnums : ∀ e ∈ model.enums, isName e.name ∧ ∀ v ∈ e.declaredValues, isName v.name)
    (hStructs : ∀ s ∈ model.structs, isName s.name ∧ ∀ m ∈ written s, IsPrintable m) :
    Lexes (model.renderWith layout).toList (modelTokens model) := by
  have hBlocks : ∀ b ∈ model.enums.map (fun e => ((enumeration layout e).toList, enumTokens e)) ++
      model.structs.map (fun s => ((Printer.struct layout s).toList, structTokens s)),
      ∀ cs ts, Lexes cs ts → Lexes (b.1 ++ cs) (b.2 ++ ts) := by
    intro b hb cs ts h
    rcases List.mem_append.1 hb with hb | hb
    · obtain ⟨e, he, rfl⟩ := List.mem_map.1 hb
      exact lexes_enum (hEnums e he).1 (hEnums e he).2 h
    · obtain ⟨s, hs, rfl⟩ := List.mem_map.1 hb
      exact lexes_struct (hStructs s hs).1 (hStructs s hs).2 h
  simpa [Model.renderWith, modelTokens, String.toList_intercalate, List.map_append,
    List.flatMap_append, List.flatMap_map, Function.comp_def] using lexes_intercalate hBlocks

end

end Printer

end EntitySchema
