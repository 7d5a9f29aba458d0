import EntitySchema.Proofs.PrintedTokens
import EntitySchema.Proofs.Spelling

/-!
Default values as they are printed. A value is put in quotes if its type is textual or if one of its
characters calls for it, and stands bare otherwise. The main result says which values come back as
one token when the text is read: all that are quoted, and of the bare ones those without two slashes
in a row, which start a comment anywhere in a word.
-/

namespace EntitySchema

namespace Lexer

variable {file : String} {k : Cursor} {c : Char} {w cs ds rest : List Char}
  {items more : List (String × Bool)}

/-! ## Characters in front of others -/

/-- Wherever they stand in front of `rest`, the characters are read as tokens with these texts, each
quoted or not, and reading goes on with `rest` as if nothing stood before it. -/
def Passes (cs : List Char) (items : List (String × Bool)) (rest : List Char) : Prop :=
  ∀ file k, ∃ us : List Token, us.map (fun t => (t.text, t.quoted)) = items ∧
    tokensFrom file k (cs ++ rest) = (tokensFrom file (k.past cs) rest).map (us ++ ·)

theorem Passes.append (h : Passes cs items (ds ++ rest)) (h' : Passes ds more rest) :
    Passes (cs ++ ds) (items ++ more) rest := by
  intro file k
  obtain ⟨us, hItems, hFirst⟩ := h file k
  obtain ⟨vs, hMore, hSecond⟩ := h' file (k.past cs)
  refine ⟨us ++ vs, by rw [List.map_append, hItems, hMore], ?_⟩
  rw [List.append_assoc, hFirst, hSecond, Cursor.past_append]
  cases tokensFrom file ((k.past cs).past ds) rest <;> simp [Except.map]

theorem passes_mark (hp : Token.isPunctuationChar c) :
    Passes [c] [(String.singleton c, false)] rest := by
  intro file k
  exact ⟨[⟨String.singleton c, k.inFile file, false⟩], rfl, tokensFrom_punctuation hp⟩

theorem passes_space (hc : isSpace c) : Passes [c] [] rest := by
  intro file k
  refine ⟨[], rfl, ?_⟩
  rw [List.singleton_append, tokensFrom_space hc, Cursor.past_cons, Cursor.past_nil]
  cases tokensFrom file (k.next c) rest <;> rfl

theorem passes_plainWord (hw : IsPlainWord w) (hb : Breaks rest) (hRest : rest ≠ []) :
    Passes w [(String.ofList w, false)] rest := by
  intro file k
  refine ⟨[⟨String.ofList w, k.inFile file, false⟩], rfl, ?_⟩
  cases w with
  | nil => exact absurd rfl hw.nonempty
  | cons c w =>
    obtain ⟨hc, hPlain⟩ := List.forall_mem_cons.1 hw.plain
    have hSlash : ¬ ['/', '/'] <:+: w :=
      fun h => hw.noComment (h.trans (List.infix_cons List.infix_rfl))
    obtain ⟨k', hWord⟩ := word_plain (k.next c) hPlain hSlash hb
    -- The word ends where its characters end, so that is where the next token starts.
    have hCursor : k' = (k.next c).past w := by
      obtain ⟨used, _, ⟨hSplit, hPast⟩ | ⟨_, hEmpty⟩⟩ := isWordAt_word (k.next c) (w ++ rest)
      · rw [hWord] at hSplit hPast
        rw [List.append_cancel_right hSplit]
        exact hPast
      · rw [hWord] at hEmpty
        exact absurd hEmpty hRest
    rw [List.cons_append, tokensFrom_word hc (startsComment_append hb hw.noComment), hWord, hCursor]
    rfl

theorem passes_quote (text : String) : Passes (Printer.quote text).toList [(text, true)] rest := by
  intro file k
  refine ⟨[⟨text, k.inFile file, true⟩], rfl, ?_⟩
  have hQuote : (Printer.quote text).toList =
      '"' :: (text.toList.flatMap Printer.quote.escape ++ ['"']) := by
    simp [Printer.quote]
  obtain ⟨k', hText⟩ := quotedText_escaped (k.next '"') text.toList rest
  obtain ⟨used, _, hSplit, hCursor⟩ := spells_quotedText hText
  have hCursor : k' = k.past (Printer.quote text).toList := by
    rw [hQuote, List.append_cancel_right hSplit]
    simpa using hCursor
  have hChars : (Printer.quote text).toList ++ rest =
      '"' :: (text.toList.flatMap Printer.quote.escape ++ '"' :: rest) := by
    simp [hQuote]
  rw [hChars, tokensFrom_quote hText, hCursor, String.ofList_toList]
  rfl

/-! ## Comments inside words -/

theorem startsComment_iff : startsComment cs = true ↔ ['/', '/'] <+: cs := by
  unfold startsComment
  split
  · simp
  · rename_i hOther
    constructor
    · nofun
    · rintro ⟨more, rfl⟩
      exact absurd rfl (hOther more)

/-- Without backslashes, the text of a word never has two slashes in a row: they would start a
comment. -/
theorem not_slashes_word (hcs : '\\' ∉ cs) (hc : startsComment (c :: cs) = false) :
    ¬ ['/', '/'] <:+: c :: (word k cs).text := by
  fun_induction word k cs generalizing c with
  | case1 | case4 => simp [List.infix_cons_iff]
  | case2 | case3 => simp at hcs
  | case5 k d rest _ _ hEnd ih =>
    have hNext : startsComment (d :: rest) = false := by
      simp only [endsWord, Bool.or_eq_true, not_or, Bool.not_eq_true] at hEnd
      exact hEnd.1.1.2
    have hRest := ih (fun h => hcs (List.mem_cons_of_mem d h)) hNext
    simp only [Piece.cons]
    rw [List.infix_cons_iff, not_or]
    refine ⟨?_, hRest⟩
    intro hFront
    obtain ⟨rfl, hSecond⟩ := List.cons_prefix_cons.1 hFront
    obtain ⟨rfl, -⟩ := List.cons_prefix_cons.1 hSecond
    cases hc

end Lexer

namespace Printer

open Lexer EntitySchema.Derivation

/-! ## The modifier in the text of a member -/

/-- What is printed before the default value: the name and the modifiers that come first. -/
def beforeDefault (m : Member) : String :=
  m.name ++
    flag m.required "required" ++
    flag m.unique "unique" ++
    flag m.autoIncrement "auto_increment" ++
    flag m.primaryKey "primary_key" ++
    argument "reference" (m.reference.map Reference.render) ++
    argument "min_items" (m.minItems.map Number.decimal) ++
    argument "max_items" (m.maxItems.map Number.decimal)

/-- What is printed after the default value: the description, and the semicolon. -/
def afterDefault (m : Member) : String :=
  argument "description" (m.description.map quote) ++ ";"

/-- The default value as a modifier. -/
def defaultModifier (type : TypeExpr) (value : String) : String :=
  ": default(" ++ defaultText type value ++ ")"

theorem memberTail_eq {m : Member} {value : String} (h : m.defaultValue = some value) :
    memberTail m = beforeDefault m ++ defaultModifier m.type value ++ afterDefault m := by
  have hArgument : argument "default" (m.defaultValue.map (defaultText m.type)) =
      defaultModifier m.type value := by
    rw [h]
    rfl
  unfold memberTail beforeDefault afterDefault
  rw [hArgument, String.append_assoc, String.append_assoc]

/-! ## Reading it back -/

variable {type : TypeExpr} {value : String}

/-- The tokens of the modifier: the value is one token, between the parentheses. -/
def defaultItems (type : TypeExpr) (value : String) : List (String × Bool) :=
  [(":", false), ("default", false), ("(", false), (value, isQuoted type value), (")", false)]

theorem passes_defaultText (h : isQuoted type value = true ∨ ¬ ['/', '/'] <:+: value.toList)
    (rest : List Char) :
    Passes (defaultText type value).toList [(value, isQuoted type value)] (')' :: rest) := by
  have hText : defaultText type value = if isQuoted type value then quote value else value := rfl
  cases hQuoted : isQuoted type value with
  | true =>
    rw [hText, hQuoted, if_pos rfl]
    exact passes_quote value
  | false =>
    have hNeeds : needsQuotes value = false := (Bool.or_eq_false_iff.1 hQuoted).2
    have hSlash : ¬ ['/', '/'] <:+: value.toList := h.resolve_left (by simp [hQuoted])
    have hBreaks : Breaks (')' :: rest) := breaks_cons rfl
    have hWord := passes_plainWord (isPlainWord_of_needsQuotes hNeeds hSlash) hBreaks (by simp)
    rw [hText, hQuoted, if_neg Bool.false_ne_true]
    rwa [String.ofList_toList] at hWord

theorem defaultModifier_toList (type : TypeExpr) (value : String) :
    (defaultModifier type value).toList =
      ": default(".toList ++ ((defaultText type value).toList ++ [')']) := by
  simp [defaultModifier]

theorem passes_keyword (rest : List Char) :
    Passes ": default(".toList [(":", false), ("default", false), ("(", false)] rest := by
  have hWord : IsPlainWord "default".toList := isPlainWord_of_isName (by decide)
  have hOpen : Passes ['('] [("(", false)] rest := passes_mark (by decide)
  have hDefault := (passes_plainWord hWord (breaks_cons (by decide)) (by simp)).append hOpen
  exact (passes_mark (c := ':') (by decide)).append ((passes_space (c := ' ') (by decide)).append
    hDefault)

theorem passes_defaultModifier (h : isQuoted type value = true ∨ ¬ ['/', '/'] <:+: value.toList)
    (rest : List Char) :
    Passes (defaultModifier type value).toList (defaultItems type value) rest := by
  have hClose : Passes [')'] [(")", false)] rest := passes_mark (by decide)
  rw [defaultModifier_toList]
  exact (passes_keyword _).append ((passes_defaultText h rest).append hClose)

/-- If the modifier is read as its tokens, the first token after the parenthesis is the value. -/
theorem exists_token_of_passes
    (h : Passes (defaultModifier type value).toList (defaultItems type value) []) :
    ∃ k t ts, tokensFrom "" k ((defaultText type value).toList ++ [')']) = .ok (t :: ts) ∧
      t.text = value := by
  obtain ⟨us, hItems, hTokens⟩ := h "" .start
  obtain ⟨front, hFront, hAfter⟩ :=
    passes_keyword ((defaultText type value).toList ++ [')']) "" .start
  rw [List.append_nil, defaultModifier_toList, hAfter, tokensFrom_nil] at hTokens
  obtain ⟨ts, hts, hus⟩ := map_eq_ok_iff.1 hTokens
  have hus : front ++ ts = us := hus.trans (List.append_nil us)
  have hRest : ts.map (fun t => (t.text, t.quoted)) =
      [(value, isQuoted type value), (")", false)] := by
    rw [← hus, List.map_append, hFront] at hItems
    exact List.append_cancel_left hItems
  cases ts with
  | nil => cases hRest
  | cons t ts => exact ⟨_, t, ts, hts, congrArg Prod.fst (List.cons.inj hRest).1⟩

/-- A bare value with two slashes in a row breaks off at the first of them. -/
theorem text_ne_of_slashes (hQuotes : needsQuotes value = false)
    (hSlash : ['/', '/'] <:+: value.toList) {file : String} {k : Cursor} {t : Token}
    {ts : List Token} (h : tokensFrom file k (value.toList ++ [')']) = .ok (t :: ts)) :
    t.text ≠ value := by
  have hPlain := isPlain_of_needsQuotes hQuotes
  cases hChars : value.toList with
  | nil => simp [hChars] at hSlash
  | cons c cs =>
    rw [hChars, List.forall_mem_cons] at hPlain
    have hComment : startsComment (c :: (cs ++ [')'])) = false := by
      rw [Bool.eq_false_iff, ne_eq, startsComment_iff, ← List.cons_append, List.prefix_concat_iff,
        not_or]
      constructor
      · intro hAll
        have hLast := congrArg List.getLast? hAll
        rw [List.getLast?_concat] at hLast
        exact absurd hLast (by decide)
      · simp only [needsQuotes, hChars, Bool.or_eq_false_iff] at hQuotes
        rw [← List.isPrefixOf_iff_prefix, hQuotes.1.2]
        exact Bool.false_ne_true
    have hBackslash : '\\' ∉ cs ++ [')'] := by
      intro hMem
      rcases List.mem_append.1 hMem with hMem | hMem
      · exact absurd (hPlain.2 _ hMem) (by decide)
      · simp at hMem
    rw [hChars, List.cons_append, tokensFrom_word hPlain.1 hComment, map_eq_ok_iff] at h
    obtain ⟨us, _, hTokens⟩ := h
    obtain ⟨rfl, -⟩ := List.cons.inj hTokens
    rintro rfl
    rw [String.toList_ofList] at hSlash
    exact not_slashes_word hBackslash hComment hSlash

/-- Between its parentheses, the default value of a member is printed so that it comes back as one
token, whatever stands around it and after it, exactly if it is quoted or has no two slashes in a
row. -/
theorem default_comes_back_iff {m : Member} {value : String} (h : m.defaultValue = some value) :
    memberTail m = beforeDefault m ++ defaultModifier m.type value ++ afterDefault m ∧
    ((∀ rest, Passes (defaultModifier m.type value).toList (defaultItems m.type value) rest) ↔
      isQuoted m.type value = true ∨ ¬ ['/', '/'] <:+: value.toList) := by
  refine ⟨memberTail_eq h, ?_, fun hValue => passes_defaultModifier hValue⟩
  intro hPasses
  cases hQuoted : isQuoted m.type value with
  | true => exact .inl rfl
  | false =>
    refine .inr (fun hSlash => ?_)
    have hBare : defaultText m.type value = value := if_neg (by simpa [isQuoted] using hQuoted)
    obtain ⟨k, t, ts, hts, hText⟩ := exists_token_of_passes (hPasses [])
    rw [hBare] at hts
    exact text_ne_of_slashes (Bool.or_eq_false_iff.1 hQuoted).2 hSlash hts hText

/-- A member with a bare value in which slashes stand apart, and slashes and quotes behind it. -/
def ratioMember : Member where
  owner := .schema
  type := .named "Ratio"
  name := "ratio"
  unique := true
  defaultValue := some "1/2/"
  description := some "see // \"x\""

/-- A member with slashes in a value that is not textual. -/
def slashedMember (value : String) : Member where
  owner := .schema
  type := .scalar .int64
  name := "x"
  defaultValue := some value

/-- The bare value comes back, and so does one with two slashes that is quoted. -/
theorem ratio_comes_back :
    memberTail ratioMember =
      "ratio: unique: default(1/2/): description(\"see // \\\"x\\\"\");" ∧
    (∀ rest, Passes ": default(1/2/)".toList [(":", false), ("default", false), ("(", false),
      ("1/2/", false), (")", false)] rest) ∧
    ∀ rest, Passes ": default(\"a; //b\")".toList [(":", false), ("default", false), ("(", false),
      ("a; //b", true), (")", false)] rest := by
  have hBare := default_comes_back_iff (m := ratioMember) rfl
  have hQuoted := default_comes_back_iff (m := slashedMember "a; //b") rfl
  exact ⟨hBare.1.trans (by decide), hBare.2.2 (.inr (by decide)), hQuoted.2.2 (.inl (by decide))⟩

/-- A bare value with two slashes in a row is cut off there, and the rest of the line with it. -/
theorem slashes_cut_default :
    memberTail (slashedMember "a//b") = "x: default(a//b);" ∧
    (tokenize "<input>" (memberTail (slashedMember "a//b"))).toOption.map
        (fun ts => ts.map Token.text) =
      some ["x", ":", "default", "(", "a"] := by
  decide +kernel

end Printer

end EntitySchema
