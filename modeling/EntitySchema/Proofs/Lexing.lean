import EntitySchema.Proofs.Position
import EntitySchema.Schema.Printer

/-!
The tokens of characters that are put together from pieces. Where characters stand makes no
difference to the text of their tokens; a word is read whole if what follows breaks it off, and a
quoted text is read as it was before it was quoted.
-/

namespace EntitySchema.Lexer

open EntitySchema.Derivation

/-! ## Tokens of a source -/

theorem word_congr (k k' : Cursor) (cs : List Char) :
    (word k' cs).text = (word k cs).text ∧ (word k' cs).rest = (word k cs).rest := by
  fun_induction word k cs generalizing k' with
  | case1 | case2 => exact ⟨rfl, rfl⟩
  | case3 k c rest ih =>
    obtain ⟨hText, hRest⟩ := ih ((k'.next '\\').next c)
    exact ⟨congrArg (c :: ·) hText, hRest⟩
  | case4 k c rest h1 h2 hEnd =>
    unfold word
    split <;> simp_all
  | case5 k c rest h1 h2 hEnd ih =>
    obtain ⟨hText, hRest⟩ := ih (k'.next c)
    rw [word]
    · simp only [hEnd, if_false, Bool.false_eq_true, Piece.cons]
      exact ⟨congrArg (c :: ·) hText, hRest⟩
    · exact h1
    · exact h2

theorem quotedText_congr {k : Cursor} (k' : Cursor) {cs : List Char} {p : Piece}
    (h : quotedText k cs = some p) : ∃ k'', quotedText k' cs = some { p with cursor := k'' } := by
  fun_induction quotedText k cs generalizing k' p with
  | case1 | case2 => cases h
  | case3 k c rest ih =>
    obtain ⟨q, hq, rfl⟩ := Option.map_eq_some_iff.1 h
    obtain ⟨k'', hq'⟩ := ih ((k'.next '\\').next c) hq
    exact ⟨k'', by simp [quotedText, hq', Piece.cons]⟩
  | case4 k rest =>
    obtain rfl := Option.some.inj h
    exact ⟨k'.next '"', rfl⟩
  | case5 k c rest h1 h2 h3 ih =>
    obtain ⟨q, hq, rfl⟩ := Option.map_eq_some_iff.1 h
    obtain ⟨k'', hq'⟩ := ih (k'.next c) hq
    refine ⟨k'', ?_⟩
    rw [quotedText]
    · simp [hq', Piece.cons]
    · exact h1
    · exact h2
    · exact h3

/-! ## Single steps -/

section

variable {file : String} {k : Cursor} {c : Char} {rest : List Char}

theorem tokensFrom_nil (file : String) (k : Cursor) : tokensFrom file k [] = .ok [] := by
  unfold tokensFrom
  rfl

theorem tokensFrom_space (hc : isSpace c) :
    tokensFrom file k (c :: rest) = tokensFrom file (k.next c) rest := by
  conv => lhs; unfold tokensFrom
  simp [hc]

theorem tokensFrom_comment (hc : isSpace c = false) (hComment : startsComment (c :: rest)) :
    tokensFrom file k (c :: rest) =
      tokensFrom file ((k.next c).past (rest.takeWhile (· ≠ '\n')))
        (rest.dropWhile (· ≠ '\n')) := by
  conv => lhs; unfold tokensFrom
  simp [hc, hComment]

theorem tokensFrom_punctuation (hp : Token.isPunctuationChar c) :
    tokensFrom file k (c :: rest) =
      (tokensFrom file (k.next c) rest).map
        (⟨String.singleton c, k.inFile file, false⟩ :: ·) := by
  have hMarks : Token.punctuation.all (fun c => !isSpace c && c != '/') = true := by decide
  have hMark := List.all_eq_true.1 hMarks c (by simpa [Token.isPunctuationChar] using hp)
  obtain ⟨hc, hSlash⟩ : isSpace c = false ∧ c ≠ '/' := by simpa using hMark
  have hComment : startsComment (c :: rest) = false := by
    unfold startsComment
    split <;> simp_all
  conv => lhs; unfold tokensFrom
  simp [hc, hComment, hp]

theorem tokensFrom_quote {p : Piece} (hq : quotedText (k.next '"') rest = some p) :
    tokensFrom file k ('"' :: rest) =
      (tokensFrom file p.cursor p.rest).map
        (⟨String.ofList p.text, k.inFile file, true⟩ :: ·) := by
  have hMark : isSpace '"' = false ∧ Token.isPunctuationChar '"' = false := by decide
  have hComment : startsComment ('"' :: rest) = false := rfl
  conv => lhs; unfold tokensFrom
  simp only [hMark.1, hMark.2, hComment, Bool.false_eq_true, if_false, if_true]
  split <;> simp_all

theorem tokensFrom_escape {e : Char} :
    tokensFrom file k ('\\' :: e :: rest) =
      (tokensFrom file (word ((k.next '\\').next e) rest).cursor
          (word ((k.next '\\').next e) rest).rest).map
        (⟨String.ofList (e :: (word ((k.next '\\').next e) rest).text), k.inFile file, false⟩
          :: ·) := by
  have hMark : isSpace '\\' = false ∧ Token.isPunctuationChar '\\' = false := by decide
  have hComment : startsComment ('\\' :: e :: rest) = false := rfl
  conv => lhs; unfold tokensFrom
  simp [hMark.1, hMark.2, hComment]

/-- A character that stands for itself in a word. -/
def isPlain (c : Char) : Bool :=
  !(isSpace c || Token.isPunctuationChar c || c == '"' || c == '\\')

theorem isPlain_iff :
    isPlain c = true ↔
      isSpace c = false ∧ Token.isPunctuationChar c = false ∧ c ≠ '"' ∧ c ≠ '\\' := by
  simp [isPlain, and_assoc]

theorem tokensFrom_word (hc : isPlain c) (hComment : startsComment (c :: rest) = false) :
    tokensFrom file k (c :: rest) =
      (tokensFrom file (word (k.next c) rest).cursor (word (k.next c) rest).rest).map
        (⟨String.ofList (c :: (word (k.next c) rest).text), k.inFile file, false⟩ :: ·) := by
  obtain ⟨hSpace, hp, hQuote, hEscape⟩ := isPlain_iff.1 hc
  conv => lhs; unfold tokensFrom
  simp [hSpace, hComment, hp, hQuote, hEscape]

end

/-- Where the characters stand makes no difference to the text of their tokens. -/
theorem tokensFrom_congr {file : String} {k : Cursor} (file' : String) (k' : Cursor)
    {cs : List Char} {ts : List Token} (h : tokensFrom file k cs = .ok ts) :
    ∃ us, tokensFrom file' k' cs = .ok us ∧ SameText ts us := by
  fun_induction tokensFrom file k cs generalizing k' ts with
  | case1 k =>
    obtain rfl := Except.ok.inj h
    exact ⟨[], tokensFrom_nil file' k', SameText.nil⟩
  | case2 k c rest hc ih =>
    rw [tokensFrom_space hc]
    exact ih (k'.next c) h
  | case3 k c rest hc hComment ih =>
    rw [tokensFrom_comment (by simpa using hc) hComment]
    exact ih _ h
  | case4 k c rest hc hComment hp ih =>
    obtain ⟨ts, hts, rfl⟩ := map_eq_ok_iff.1 h
    obtain ⟨us, hus, hs⟩ := ih (k'.next c) hts
    rw [tokensFrom_punctuation hp, hus]
    exact ⟨_, rfl, SameText.cons _ hs⟩
  | case5 => cases h
  | case6 k rest _ _ _ p hp ih =>
    obtain ⟨ts, hts, rfl⟩ := map_eq_ok_iff.1 h
    -- The text between the quotes ends at the same character, though at another place.
    obtain ⟨k'', hp'⟩ := quotedText_congr (k'.next '"') hp
    obtain ⟨us, hus, hs⟩ := ih k'' hts
    rw [tokensFrom_quote hp', hus]
    exact ⟨_, rfl, SameText.cons _ hs⟩
  | case7 k _ _ _ _ =>
    -- A backslash at the very end is dropped.
    obtain rfl := Except.ok.inj h
    refine ⟨[], ?_, SameText.nil⟩
    unfold tokensFrom
    rfl
  | case8 k e more _ _ _ p _ ih =>
    obtain ⟨ts, hts, rfl⟩ := map_eq_ok_iff.1 h
    obtain ⟨hText, hRest⟩ := word_congr ((k.next '\\').next e) ((k'.next '\\').next e) more
    obtain ⟨us, hus, hs⟩ := ih (word ((k'.next '\\').next e) more).cursor hts
    rw [tokensFrom_escape, hText, hRest, hus]
    exact ⟨_, rfl, SameText.cons _ hs⟩
  | case9 k c rest hSpace hComment hp hQuote hEscape p ih =>
    obtain ⟨ts, hts, rfl⟩ := map_eq_ok_iff.1 h
    obtain ⟨hText, hRest⟩ := word_congr (k.next c) (k'.next c) rest
    obtain ⟨us, hus, hs⟩ := ih (word (k'.next c) rest).cursor hts
    have hPlain : isPlain c = true :=
      isPlain_iff.2 ⟨by simpa using hSpace, by simpa using hp, hQuote, hEscape⟩
    rw [tokensFrom_word hPlain (by simpa using hComment), hText, hRest, hus]
    exact ⟨_, rfl, SameText.cons _ hs⟩

theorem ofList_cons_ne_empty (c : Char) (cs : List Char) : String.ofList (c :: cs) ≠ "" := by
  intro h
  have := congrArg String.toList h
  simp at this

theorem wordsNonempty_cons {t : Token} {ts : List Token} (ht : t.quoted = false → t.text ≠ "")
    (hts : WordsNonempty ts) : WordsNonempty (t :: ts) :=
  List.forall_mem_cons.2 ⟨ht, hts⟩

/-- No word of a source is empty. -/
theorem tokensFrom_wordsNonempty {file : String} {k : Cursor} {cs : List Char} {ts : List Token}
    (h : tokensFrom file k cs = .ok ts) : WordsNonempty ts := by
  fun_induction tokensFrom file k cs generalizing ts with
  | case1 | case7 =>
    obtain rfl := Except.ok.inj h
    exact fun t ht => by simp at ht
  | case2 k c rest _ ih => exact ih h
  | case3 k c rest _ _ ih => exact ih h
  | case5 => cases h
  | case4 k c rest _ _ _ ih =>
    obtain ⟨ts, hts, rfl⟩ := map_eq_ok_iff.1 h
    exact wordsNonempty_cons (fun _ => by simp) (ih hts)
  | case6 k rest _ _ _ p _ ih =>
    obtain ⟨ts, hts, rfl⟩ := map_eq_ok_iff.1 h
    exact wordsNonempty_cons (fun hq => absurd hq (by simp)) (ih hts)
  | case8 k e more =>
    rename_i ih
    obtain ⟨ts, hts, rfl⟩ := map_eq_ok_iff.1 h
    exact wordsNonempty_cons (fun _ => ofList_cons_ne_empty e _) (ih hts)
  | case9 k c rest =>
    rename_i ih
    obtain ⟨ts, hts, rfl⟩ := map_eq_ok_iff.1 h
    exact wordsNonempty_cons (fun _ => ofList_cons_ne_empty c _) (ih hts)

/-! ## Characters put together -/

/-- A token at no particular place. -/
def bare (text : String) (quoted : Bool := false) : Token :=
  ⟨text, default, quoted⟩

/-- The characters are read as these tokens, wherever they stand. -/
def Lexes (cs : List Char) (ts : List Token) : Prop :=
  ∀ file k, ∃ us, tokensFrom file k cs = .ok us ∧ SameText ts us

/-- A word is over where these characters start. -/
def Breaks (rest : List Char) : Prop :=
  ∀ c ∈ rest.head?, isSpace c || Token.isPunctuationChar c

/-- The characters of a word that is read as it stands. -/
structure IsPlainWord (w : List Char) : Prop where
  nonempty : w ≠ []
  plain : ∀ c ∈ w, isPlain c
  noComment : ¬ ['/', '/'] <:+: w

section

variable {w rest cs : List Char} {ts : List Token} {c : Char}

theorem breaks_cons (hc : isSpace c || Token.isPunctuationChar c) : Breaks (c :: rest) := by
  intro d hd
  obtain rfl : c = d := by simpa using hd
  exact hc

theorem word_cons {k : Cursor} (hc : c ≠ '\\') :
    word k (c :: rest) =
      if endsWord (c :: rest) then ⟨[], c :: rest, k⟩ else (word (k.next c) rest).cons c := by
  rw [word]
  · exact fun h => absurd h hc
  · exact fun _ _ h => absurd h hc

theorem startsComment_append (hb : Breaks rest) (hSlash : ¬ ['/', '/'] <:+: c :: w) :
    startsComment (c :: (w ++ rest)) = false := by
  rw [Bool.eq_false_iff]
  intro h
  unfold startsComment at h
  split at h
  · rename_i more hEq
    obtain ⟨rfl, hMore⟩ := List.cons.inj hEq
    -- The second slash is in the word as well, since a word does not break off at a slash.
    cases w with
    | nil =>
      have hBreak := hb '/' (by simpa using congrArg List.head? hMore)
      exact absurd hBreak (by decide)
    | cons d w =>
      obtain ⟨rfl, _⟩ := List.cons.inj hMore
      exact hSlash ⟨[], w, rfl⟩
  · cases h

theorem word_plain (k : Cursor) (hw : ∀ c ∈ w, isPlain c) (hSlash : ¬ ['/', '/'] <:+: w)
    (hb : Breaks rest) : ∃ k', word k (w ++ rest) = ⟨w, rest, k'⟩ := by
  induction w generalizing k with
  | nil =>
    cases rest with
    | nil => exact ⟨k, by simp [word]⟩
    | cons c rest =>
      have hc := hb c rfl
      have hEscape : c ≠ '\\' := by
        rintro rfl
        exact absurd hc (by decide)
      refine ⟨k, ?_⟩
      rw [List.nil_append, word_cons hEscape, if_pos]
      simp only [Bool.or_eq_true] at hc
      simp only [endsWord, Bool.or_eq_true]
      rcases hc with hc | hc
      · exact Or.inl (Or.inl (Or.inl hc))
      · exact Or.inl (Or.inr hc)
  | cons c w ih =>
    rw [List.forall_mem_cons] at hw
    have hShorter : ¬ ['/', '/'] <:+: w :=
      fun h => hSlash (h.trans (List.infix_cons List.infix_rfl))
    obtain ⟨k', hk'⟩ := ih (k.next c) hw.2 hShorter
    have hComment := startsComment_append hb hSlash
    obtain ⟨hSpace, hp, hQuote, hEscape⟩ := isPlain_iff.1 hw.1
    refine ⟨k', ?_⟩
    rw [List.cons_append, word_cons hEscape, if_neg, hk']
    · rfl
    · simp [endsWord, hSpace, hComment, hp, hQuote]

theorem lexes_nil : Lexes [] [] :=
  fun file k => ⟨[], tokensFrom_nil file k, SameText.nil⟩

theorem lexes_space (hc : isSpace c) (h : Lexes cs ts) : Lexes (c :: cs) ts := by
  intro file k
  rw [tokensFrom_space hc]
  exact h file (k.next c)

theorem lexes_mark (hp : Token.isPunctuationChar c) (h : Lexes cs ts) :
    Lexes (c :: cs) (bare (String.singleton c) :: ts) := by
  intro file k
  obtain ⟨us, hus, hs⟩ := h file (k.next c)
  rw [tokensFrom_punctuation hp, hus]
  exact ⟨_, rfl, SameText.cons _ hs⟩

theorem lexes_word (hw : IsPlainWord w) (hb : Breaks cs) (h : Lexes cs ts) :
    Lexes (w ++ cs) (bare (String.ofList w) :: ts) := by
  intro file k
  cases w with
  | nil => exact absurd rfl hw.nonempty
  | cons c w =>
    have hPlain := hw.plain
    rw [List.forall_mem_cons] at hPlain
    have hSlash : ¬ ['/', '/'] <:+: w :=
      fun h => hw.noComment (h.trans (List.infix_cons List.infix_rfl))
    obtain ⟨k', hk'⟩ := word_plain (k.next c) hPlain.2 hSlash hb
    obtain ⟨us, hus, hs⟩ := h file k'
    rw [List.cons_append, tokensFrom_word hPlain.1 (startsComment_append hb hw.noComment), hk', hus]
    exact ⟨_, rfl, SameText.cons _ hs⟩

theorem quotedText_escaped (k : Cursor) (text rest : List Char) :
    ∃ k', quotedText k (text.flatMap Printer.quote.escape ++ '"' :: rest) =
      some ⟨text, rest, k'⟩ := by
  induction text generalizing k with
  | nil => exact ⟨k.next '"', rfl⟩
  | cons c text ih =>
    -- Only quotes and backslashes are escaped, and those are read without their backslash.
    by_cases hc : c = '"' ∨ c = '\\'
    · obtain ⟨k', hk'⟩ := ih ((k.next '\\').next c)
      exact ⟨k', by simp [Printer.quote.escape, hc, quotedText, hk', Piece.cons]⟩
    · obtain ⟨k', hk'⟩ := ih (k.next c)
      rw [not_or] at hc
      refine ⟨k', ?_⟩
      simp only [List.flatMap_cons, Printer.quote.escape, hc, or_self, if_false, List.cons_append,
        List.nil_append]
      rw [quotedText, hk']
      · rfl
      · exact fun h => absurd h hc.2
      · exact fun _ _ h => absurd h hc.2
      · exact hc.1

theorem lexes_quote (text : String) (h : Lexes cs ts) :
    Lexes ((Printer.quote text).toList ++ cs) (bare text true :: ts) := by
  intro file k
  have hChars : (Printer.quote text).toList ++ cs =
      '"' :: (text.toList.flatMap Printer.quote.escape ++ '"' :: cs) := by
    simp [Printer.quote]
  obtain ⟨k', hk'⟩ := quotedText_escaped (k.next '"') text.toList cs
  obtain ⟨us, hus, hs⟩ := h file k'
  rw [hChars, tokensFrom_quote hk', hus]
  refine ⟨_, rfl, ?_⟩
  rw [String.ofList_toList]
  exact SameText.cons _ hs

end

end EntitySchema.Lexer
