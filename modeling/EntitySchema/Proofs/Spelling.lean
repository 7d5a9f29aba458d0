import EntitySchema.Proofs.Lexing

/-!
How tokens are spelled in a source. Every character of a source belongs to the spelling of a token
or to a gap between tokens, up to the end of the source or to a quote that is never closed. The
other way round, tokens that are written with all their characters escaped, or quoted, are read back
as they were, whatever blanks and comments stand between them.
-/

namespace EntitySchema

namespace Lexer

open EntitySchema.Derivation

/-! ## Spellings -/

/-- The characters of a text as they stand in a source: one that is `bare` may stand for itself, and
any one may stand after a backslash. -/
inductive Spells (bare : Char → Prop) : List Char → List Char → Prop
  | nil : Spells bare [] []
  | bare {c : Char} {text used : List Char} :
      bare c → Spells bare text used → Spells bare (c :: text) (c :: used)
  | escaped {c : Char} {text used : List Char} :
      Spells bare text used → Spells bare (c :: text) ('\\' :: c :: used)

/-- A character that stands for itself between quotes. -/
def IsQuotable (c : Char) : Prop :=
  c ≠ '"' ∧ c ≠ '\\'

/-- The characters of one token. -/
inductive SpellsToken : Token → List Char → Prop
  | mark {c : Char} (p : Position) :
      Token.isPunctuationChar c → SpellsToken ⟨String.singleton c, p, false⟩ [c]
  | word {text used : List Char} (p : Position) :
      text ≠ [] → Spells (fun c => isPlain c) text used →
      SpellsToken ⟨String.ofList text, p, false⟩ used
  | quoted {text used : List Char} (p : Position) :
      Spells IsQuotable text used →
      SpellsToken ⟨String.ofList text, p, true⟩ ('"' :: (used ++ ['"']))

/-- The characters of tokens, with the blanks and the comments between them. Each token stands at
the place where its characters start. -/
inductive SpellsTokens (file : String) : Cursor → List Token → List Char → Prop
  | nil {k : Cursor} : SpellsTokens file k [] []
  | space {k : Cursor} {ts : List Token} {c : Char} {rest : List Char} :
      isSpace c → SpellsTokens file (k.next c) ts rest → SpellsTokens file k ts (c :: rest)
  | comment {k : Cursor} {ts : List Token} {line rest : List Char} :
      '\n' ∉ line → SpellsTokens file (k.past ('/' :: '/' :: line)) ts ('\n' :: rest) →
      SpellsTokens file k ts ('/' :: '/' :: (line ++ '\n' :: rest))
  | token {k : Cursor} {t : Token} {ts : List Token} {used rest : List Char} :
      SpellsToken t used → t.position = k.inFile file →
      SpellsTokens file (k.past used) ts rest → SpellsTokens file k (t :: ts) (used ++ rest)

/-- What the end of a source cuts short: nothing, a backslash with no character after it, or a
comment on the last line. -/
inductive IsRemnant : List Char → Prop
  | nothing : IsRemnant []
  | backslash : IsRemnant ['\\']
  | comment {line : List Char} : '\n' ∉ line → IsRemnant ('/' :: '/' :: line)

/-- A quoted text that is not closed before the end of the source. -/
def IsUnclosed (cs : List Char) : Prop :=
  ∃ text used, Spells IsQuotable text used ∧ (cs = used ∨ cs = used ++ ['\\'])

section

variable {k : Cursor} {c : Char} {cs used : List Char}

@[simp] theorem Cursor.past_nil : k.past [] = k := rfl

@[simp] theorem Cursor.past_cons : k.past (c :: cs) = (k.next c).past cs := rfl

@[simp] theorem Cursor.past_append : k.past (used ++ cs) = (k.past used).past cs :=
  List.foldl_append

/-- The piece is a word that stands in front of these characters, or that the end of the source cuts
short. -/
def IsWordAt (k : Cursor) (cs : List Char) (p : Piece) : Prop :=
  ∃ used, Spells (fun c => isPlain c) p.text used ∧
    (cs = used ++ p.rest ∧ p.cursor = k.past used ∨ cs = used ++ ['\\'] ∧ p.rest = [])

/-- A backslash is taken care of before all other characters, whether one follows it or none. -/
theorem ne_backslash (hLast : c = '\\' → cs = [] → False)
    (hEscape : ∀ e rest, c = '\\' → cs = e :: rest → False) : c ≠ '\\' := by
  intro hc
  cases hMore : cs with
  | nil => exact hLast hc hMore
  | cons e rest => exact hEscape e rest hc hMore

theorem isWordAt_word (k : Cursor) (cs : List Char) : IsWordAt k cs (word k cs) := by
  fun_induction word k cs with
  | case1 k => exact ⟨[], .nil, .inl ⟨rfl, rfl⟩⟩
  | case2 k => exact ⟨[], .nil, .inr ⟨rfl, rfl⟩⟩
  | case3 k c rest ih =>
    obtain ⟨used, hUsed, hEnd⟩ := ih
    refine ⟨'\\' :: c :: used, .escaped hUsed, ?_⟩
    rcases hEnd with ⟨hSplit, hCursor⟩ | ⟨hSplit, hRest⟩
    · exact .inl ⟨congrArg (fun cs => '\\' :: c :: cs) hSplit, hCursor⟩
    · exact .inr ⟨congrArg (fun cs => '\\' :: c :: cs) hSplit, hRest⟩
  | case4 k c rest => exact ⟨[], .nil, .inl ⟨rfl, rfl⟩⟩
  | case5 k c rest hLast hEscape hEnd ih =>
    obtain ⟨used, hUsed, hCases⟩ := ih
    have hBackslash := ne_backslash hLast hEscape
    have hPlain : isPlain c = true := by
      simp only [endsWord, Bool.or_eq_true, not_or, Bool.not_eq_true, beq_iff_eq] at hEnd
      exact isPlain_iff.2 ⟨hEnd.1.1.1, hEnd.1.2, hEnd.2, hBackslash⟩
    refine ⟨c :: used, .bare hPlain hUsed, ?_⟩
    rcases hCases with ⟨hSplit, hCursor⟩ | ⟨hSplit, hRest⟩
    · exact .inl ⟨congrArg (c :: ·) hSplit, hCursor⟩
    · exact .inr ⟨congrArg (c :: ·) hSplit, hRest⟩

theorem spells_quotedText {p : Piece} (h : quotedText k cs = some p) :
    ∃ used, Spells IsQuotable p.text used ∧ cs = used ++ '"' :: p.rest ∧
      p.cursor = (k.past used).next '"' := by
  fun_induction quotedText k cs generalizing p with
  | case1 | case2 => cases h
  | case3 k c rest ih =>
    obtain ⟨q, hq, rfl⟩ := Option.map_eq_some_iff.1 h
    obtain ⟨used, hUsed, rfl, hCursor⟩ := ih hq
    exact ⟨'\\' :: c :: used, .escaped hUsed, rfl, hCursor⟩
  | case4 k rest =>
    obtain rfl := Option.some.inj h
    exact ⟨[], .nil, rfl, rfl⟩
  | case5 k c rest hLast hEscape hQuote ih =>
    obtain ⟨q, hq, rfl⟩ := Option.map_eq_some_iff.1 h
    obtain ⟨used, hUsed, rfl, hCursor⟩ := ih hq
    have hBackslash := ne_backslash hLast hEscape
    exact ⟨c :: used, .bare ⟨hQuote, hBackslash⟩ hUsed, rfl, hCursor⟩

theorem isUnclosed_of_quotedText (h : quotedText k cs = none) : IsUnclosed cs := by
  fun_induction quotedText k cs with
  | case1 => exact ⟨[], [], .nil, .inl rfl⟩
  | case2 => exact ⟨[], [], .nil, .inr rfl⟩
  | case3 k c rest ih =>
    obtain ⟨text, used, hUsed, hEnd⟩ := ih (Option.map_eq_none_iff.1 h)
    refine ⟨c :: text, '\\' :: c :: used, .escaped hUsed, ?_⟩
    exact hEnd.imp (congrArg (fun cs => '\\' :: c :: cs)) (congrArg (fun cs => '\\' :: c :: cs))
  | case4 => cases h
  | case5 k c rest hLast hEscape hQuote ih =>
    obtain ⟨text, used, hUsed, hEnd⟩ := ih (Option.map_eq_none_iff.1 h)
    have hBackslash := ne_backslash hLast hEscape
    refine ⟨c :: text, c :: used, .bare ⟨hQuote, hBackslash⟩ hUsed, ?_⟩
    exact hEnd.imp (congrArg (c :: ·)) (congrArg (c :: ·))

end

/-! ## Reading takes up the whole source -/

/-- What reading gives accounts for all characters: they spell the tokens, up to what the end of the
source cuts short, or up to a quote that is never closed, which is then reported. -/
def Accounts (file : String) (k : Cursor) (cs : List Char) : Except LexError (List Token) → Prop
  | .ok ts => ∃ used rest, cs = used ++ rest ∧ SpellsTokens file k ts used ∧ IsRemnant rest
  | .error e => ∃ ts used body, cs = used ++ '"' :: body ∧ SpellsTokens file k ts used ∧
      IsUnclosed body ∧ e = .unterminatedText ((k.past used).inFile file)

section

variable {file : String} {k : Cursor} {c : Char} {cs used : List Char} {t : Token}
  {result : Except LexError (List Token)}

theorem Accounts.space (hc : isSpace c) (h : Accounts file (k.next c) cs result) :
    Accounts file k (c :: cs) result := by
  cases result with
  | ok ts =>
    obtain ⟨used, rest, rfl, hUsed, hRest⟩ := h
    exact ⟨c :: used, rest, rfl, .space hc hUsed, hRest⟩
  | error e =>
    obtain ⟨ts, used, body, rfl, hUsed, hBody, hPlace⟩ := h
    exact ⟨ts, c :: used, body, rfl, .space hc hUsed, hBody, hPlace⟩

theorem Accounts.token (ht : SpellsToken t used) (hPlace : t.position = k.inFile file)
    (h : Accounts file (k.past used) cs result) :
    Accounts file k (used ++ cs) (result.map (t :: ·)) := by
  cases result with
  | ok ts =>
    obtain ⟨more, rest, rfl, hMore, hRest⟩ := h
    exact ⟨used ++ more, rest, by simp, .token ht hPlace hMore, hRest⟩
  | error e =>
    obtain ⟨ts, more, body, rfl, hMore, hBody, rfl⟩ := h
    exact ⟨t :: ts, used ++ more, body, by simp, .token ht hPlace hMore, hBody, by simp⟩

/-- The end of the line is not part of the comment, but a blank after it. -/
theorem Accounts.comment {line : List Char} (hLine : '\n' ∉ line)
    (h : Accounts file (k.past ('/' :: '/' :: line)) ('\n' :: cs) result) :
    Accounts file k ('/' :: '/' :: (line ++ '\n' :: cs)) result := by
  cases result with
  | ok ts =>
    obtain ⟨used, rest, hSplit, hUsed, hRest⟩ := h
    cases used with
    | nil =>
      obtain rfl : '\n' :: cs = rest := hSplit
      cases hRest
    | cons d used =>
      obtain ⟨rfl, rfl⟩ := List.cons.inj hSplit
      exact ⟨'/' :: '/' :: (line ++ '\n' :: used), rest, by simp, .comment hLine hUsed, hRest⟩
  | error e =>
    obtain ⟨ts, used, body, hSplit, hUsed, hBody, rfl⟩ := h
    cases used with
    | nil => cases (List.cons.inj hSplit).1
    | cons d used =>
      obtain ⟨rfl, rfl⟩ := List.cons.inj hSplit
      exact ⟨ts, '/' :: '/' :: (line ++ '\n' :: used), body, by simp, .comment hLine hUsed, hBody,
        by simp⟩

/-- A word whose first character has been read, with a backslash before it or without. -/
theorem Accounts.word (first : List Char) {p : Piece} (hp : IsWordAt (k.past first) cs p)
    (hFirst : ∀ {text used}, Spells (fun c => isPlain c) text used →
      Spells (fun c => isPlain c) (c :: text) (first ++ used))
    (h : Accounts file p.cursor p.rest (tokensFrom file p.cursor p.rest)) :
    Accounts file k (first ++ cs) ((tokensFrom file p.cursor p.rest).map
      (⟨String.ofList (c :: p.text), k.inFile file, false⟩ :: ·)) := by
  obtain ⟨used, hUsed, hEnd⟩ := hp
  have hToken := SpellsToken.word (k.inFile file) (List.cons_ne_nil c p.text) (hFirst hUsed)
  rcases hEnd with ⟨rfl, hCursor⟩ | ⟨rfl, hRest⟩
  · rw [← List.append_assoc]
    refine .token hToken rfl ?_
    rwa [Cursor.past_append, ← hCursor]
  · rw [hRest, tokensFrom_nil]
    exact ⟨first ++ used, ['\\'], by simp, by simpa using SpellsTokens.token hToken rfl .nil,
      .backslash⟩

end

/-- The first line of some characters, and what comes after it. -/
theorem exists_line (cs : List Char) :
    ∃ line next, cs = line ++ next ∧ '\n' ∉ line ∧ cs.takeWhile (· ≠ '\n') = line ∧
      (next = [] ∧ cs.dropWhile (· ≠ '\n') = [] ∨
        ∃ rest, next = '\n' :: rest ∧ cs.dropWhile (· ≠ '\n') = '\n' :: rest) := by
  induction cs with
  | nil => exact ⟨[], [], rfl, by simp, rfl, .inl ⟨rfl, rfl⟩⟩
  | cons c cs ih =>
    by_cases hc : c = '\n'
    · subst hc
      exact ⟨[], '\n' :: cs, rfl, by simp, by simp, .inr ⟨cs, rfl, by simp⟩⟩
    · obtain ⟨line, next, rfl, hLine, hTake, hDrop⟩ := ih
      refine ⟨c :: line, next, rfl, by simp [Ne.symm hc, hLine],
        by simpa [hc] using hTake, ?_⟩
      simpa [hc] using hDrop

/-- Reading goes on to the end of the source, or to a quote that is never closed. -/
theorem accounts_tokensFrom (file : String) (k : Cursor) (cs : List Char) :
    Accounts file k cs (tokensFrom file k cs) := by
  fun_induction tokensFrom file k cs with
  | case1 k => exact ⟨[], [], rfl, .nil, .nothing⟩
  | case2 k c rest hc ih => exact .space hc ih
  | case3 k c rest hc hComment ih =>
    obtain ⟨more, rfl, rfl⟩ : ∃ more, c = '/' ∧ rest = '/' :: more := by
      unfold startsComment at hComment
      split at hComment
      · rename_i more hEq
        exact ⟨more, List.cons.inj hEq⟩
      · cases hComment
    -- The comment goes up to the next line break or to the end of the source.
    obtain ⟨line, next, rfl, hLine, hTake, hDrop⟩ := exists_line more
    have hSlash : ('/' ≠ '\n') := by decide
    simp only [List.takeWhile_cons, List.dropWhile_cons, hSlash, ne_eq, not_false_eq_true,
      decide_true, if_true, hTake] at ih ⊢
    rcases hDrop with ⟨rfl, hDrop⟩ | ⟨rest, rfl, hDrop⟩
    · rw [hDrop, tokensFrom_nil, List.append_nil]
      exact ⟨[], '/' :: '/' :: line, rfl, .nil, .comment hLine⟩
    · rw [hDrop] at ih ⊢
      exact .comment hLine ih
  | case4 k c rest hc hComment hp ih => exact Accounts.token (.mark _ hp) rfl ih
  | case5 k rest _ _ _ hNone =>
    exact ⟨[], [], rest, rfl, .nil, isUnclosed_of_quotedText hNone, rfl⟩
  | case6 k rest p _ _ _ hp ih =>
    obtain ⟨used, hUsed, rfl, hCursor⟩ := spells_quotedText hp
    have hAll : '"' :: (used ++ '"' :: p.rest) = '"' :: (used ++ ['"']) ++ p.rest := by simp
    rw [hAll]
    refine .token (.quoted (k.inFile file) hUsed) rfl ?_
    simpa [← hCursor] using ih
  | case7 k => exact ⟨[], ['\\'], rfl, .nil, .backslash⟩
  | case8 k e more _ _ _ p _ ih =>
    exact Accounts.word ['\\', e] (isWordAt_word _ more) .escaped ih
  | case9 k c rest hSpace hComment hp hQuote hEscape p ih =>
    have hPlain : isPlain c = true :=
      isPlain_iff.2 ⟨by simpa using hSpace, by simpa using hp, hQuote, hEscape⟩
    exact Accounts.word [c] (isWordAt_word _ rest) (.bare hPlain) ih

/-! ## Writing and reading back -/

/-- Blanks and comments, each comment with the end of its line. -/
inductive IsGap : List Char → Prop
  | nil : IsGap []
  | space {c : Char} {rest : List Char} : isSpace c → IsGap rest → IsGap (c :: rest)
  | comment {line rest : List Char} :
      '\n' ∉ line → IsGap rest → IsGap ('/' :: '/' :: (line ++ '\n' :: rest))

/-- A token is written in quotes, or with all its characters escaped. -/
def written (text : String) (quoted : Bool) : List Char :=
  if quoted then (Printer.quote text).toList else text.toList.flatMap (fun c => ['\\', c])

/-- Tokens, each a text that is quoted or not, are written one after the other with a gap between
each two. -/
inductive Writes : List (String × Bool) → List Char → Prop
  | nil : Writes [] []
  | single {text : String} {quoted : Bool} : Writes [(text, quoted)] (written text quoted)
  | cons {text : String} {quoted : Bool} {next : String × Bool} {items : List (String × Bool)}
      {gap rest : List Char} :
      IsGap gap → gap ≠ [] → Writes (next :: items) rest →
      Writes ((text, quoted) :: next :: items) (written text quoted ++ (gap ++ rest))

section

variable {items : List (String × Bool)} {ts : List Token} {gap rest cs : List Char}

theorem endsWord_gap (hGap : IsGap gap) (hRest : gap = [] → endsWord rest = true) :
    endsWord (gap ++ rest) = true := by
  cases hGap with
  | nil => exact hRest rfl
  | space hc => simp [endsWord, hc]
  | comment => simp [endsWord, startsComment]

/-- The characters of a comment are dropped, up to the end of its line. -/
theorem dropWhile_comment {line : List Char} (hLine : '\n' ∉ line) (rest : List Char) :
    ('/' :: (line ++ rest)).dropWhile (· ≠ '\n') = rest.dropWhile (· ≠ '\n') := by
  rw [← List.cons_append, List.dropWhile_append_of_pos]
  intro c hc
  rcases List.mem_cons.1 hc with rfl | hc
  · decide
  · exact decide_eq_true (fun hEq => hLine (hEq ▸ hc))

theorem lexes_gap (hGap : IsGap gap) (h : Lexes cs ts) : Lexes (gap ++ cs) ts := by
  induction hGap with
  | nil => exact h
  | space hc _ ih => exact lexes_space hc ih
  | @comment line rest hLine _ ih =>
    intro file k
    have hAll : ('/' :: '/' :: (line ++ '\n' :: rest)) ++ cs =
        '/' :: '/' :: (line ++ '\n' :: (rest ++ cs)) := by simp
    rw [hAll, tokensFrom_comment (by decide) rfl, dropWhile_comment hLine,
      List.dropWhile_cons_of_neg (by simp), tokensFrom_space (by decide)]
    exact ih file _

theorem lexes_lastComment {line : List Char} (hLine : '\n' ∉ line) :
    Lexes ('/' :: '/' :: line) [] := by
  intro file k
  have hDrop := dropWhile_comment hLine []
  rw [List.append_nil, List.dropWhile_nil] at hDrop
  rw [tokensFrom_comment (by decide) rfl, hDrop, tokensFrom_nil]
  exact ⟨[], rfl, SameText.nil⟩

theorem word_escaped (k : Cursor) (text : List Char) (hEnd : endsWord rest = true) :
    ∃ k', word k (text.flatMap (fun c => ['\\', c]) ++ rest) = ⟨text, rest, k'⟩ := by
  induction text generalizing k with
  | nil =>
    cases rest with
    | nil => exact ⟨k, by simp [word]⟩
    | cons c rest =>
      have hEscape : c ≠ '\\' := by
        rintro rfl
        exact absurd hEnd (by simp [endsWord, isSpace, startsComment, Token.isPunctuationChar,
          Token.punctuation])
      exact ⟨k, by rw [List.flatMap_nil, List.nil_append, word_cons hEscape, if_pos hEnd]⟩
  | cons c text ih =>
    obtain ⟨k', hk'⟩ := ih ((k.next '\\').next c)
    exact ⟨k', by simp [word, hk', Piece.cons]⟩

/-- A token is read back, and what follows it is read as if it stood alone. -/
theorem lexes_written {text : String} {quoted : Bool} (hText : quoted = false → text ≠ "")
    (hEnd : endsWord rest = true) (h : Lexes rest ts) :
    Lexes (written text quoted ++ rest) (bare text quoted :: ts) := by
  cases quoted with
  | true => exact lexes_quote text h
  | false =>
    intro file k
    cases hChars : text.toList with
    | nil => exact absurd (String.toList_eq_nil_iff.1 hChars) (hText rfl)
    | cons c cs =>
      obtain ⟨k', hk'⟩ := word_escaped ((k.next '\\').next c) cs hEnd
      obtain ⟨us, hus, hs⟩ := h file k'
      have hAll : written text false ++ rest =
          '\\' :: c :: (cs.flatMap (fun c => ['\\', c]) ++ rest) := by
        simp [written, hChars]
      rw [hAll, tokensFrom_escape, hk', hus]
      refine ⟨_, rfl, ?_⟩
      rw [← hChars, String.ofList_toList]
      exact SameText.cons _ hs

theorem lexes_writes (hWords : ∀ item ∈ items, item.2 = false → item.1 ≠ "")
    (hWrites : Writes items cs) (hEnd : endsWord rest = true) (h : Lexes rest []) :
    Lexes (cs ++ rest) (items.map (fun item => bare item.1 item.2)) := by
  induction hWrites with
  | nil => exact h
  | single => exact lexes_written (hWords _ List.mem_cons_self) hEnd h
  | @cons text quoted next items gap cs hGap hne _ ih =>
    obtain ⟨hFirst, hRest⟩ := List.forall_mem_cons.1 hWords
    have hNext := lexes_gap hGap (ih hRest)
    rw [List.append_assoc, List.append_assoc]
    exact lexes_written hFirst (endsWord_gap hGap (fun h => absurd h hne)) hNext

theorem map_of_sameText (h : SameText (items.map (fun item => bare item.1 item.2)) ts) :
    ts.map (fun t => (t.text, t.quoted)) = items := by
  induction items generalizing ts with
  | nil =>
    cases h
    rfl
  | cons item items ih =>
    cases h with
    | cons p h => exact congrArg (item :: ·) (ih h)

end

/-- The end of a source: a gap, and possibly a comment on the last line. -/
inductive IsEnding : List Char → Prop
  | gap {cs : List Char} : IsGap cs → IsEnding cs
  | comment {cs line : List Char} : IsGap cs → '\n' ∉ line → IsEnding (cs ++ '/' :: '/' :: line)

theorem lexes_ending {cs : List Char} (h : IsEnding cs) : endsWord cs = true ∧ Lexes cs [] := by
  cases h with
  | gap hGap =>
    rw [← List.append_nil cs]
    exact ⟨endsWord_gap hGap (fun _ => rfl), lexes_gap hGap lexes_nil⟩
  | comment hGap hLine =>
    exact ⟨endsWord_gap hGap (fun _ => rfl), lexes_gap hGap (lexes_lastComment hLine)⟩

end Lexer

open Lexer

/-- Tokens that are written in quotes or with their characters escaped, with any blanks and comments
between them and around them, are read back as they were. Of every source, whatever it is, each
token that is read is quoted or not empty, and reading stops only at the end of the source or at a
quote that is never closed. -/
theorem tokenize_undoes_writing (file : String) :
    (∀ items before cs after, (∀ item ∈ items, item.2 = false → item.1 ≠ "") →
      IsGap before → Writes items cs → IsEnding after →
      ∃ ts, tokenize file (String.ofList (before ++ (cs ++ after))) = .ok ts ∧
        ts.map (fun t => (t.text, t.quoted)) = items) ∧
    ∀ source, Accounts file .start source.toList (tokenize file source) ∧
      ∀ ts, tokenize file source = .ok ts → ∀ t ∈ ts, t.quoted = true ∨ t.text ≠ "" := by
  refine ⟨?_, ?_⟩
  · intro items before cs after hWords hBefore hWrites hAfter
    obtain ⟨hEnd, hNothing⟩ := lexes_ending hAfter
    have hLexes := lexes_gap hBefore (lexes_writes hWords hWrites hEnd hNothing)
    obtain ⟨ts, hts, hSame⟩ := hLexes file .start
    exact ⟨ts, by rw [tokenize, String.toList_ofList, hts], map_of_sameText hSame⟩
  · intro source
    refine ⟨accounts_tokensFrom file .start source.toList, ?_⟩
    intro ts hts t ht
    cases hQuoted : t.quoted with
    | true => exact .inl rfl
    | false => exact .inr (tokensFrom_wordsNonempty hts t ht hQuoted)

/-- A mark, a blank and slashes as words, an empty text, and comments right after a word. -/
theorem tokenize_hostile_texts :
    ∃ ts, tokenize "<input>" "//\n\\;//;\n\\ \\\"\t\"\" // x\n\r\"\\\"//\"\n\\/\\///" = .ok ts ∧
      ts.map (fun t => (t.text, t.quoted)) =
        [(";", false), (" \"", false), ("", true), ("\"//", true), ("//", false)] := by
  have hBefore : IsGap ('/' :: '/' :: ([] ++ '\n' :: [])) := .comment (by simp) .nil
  have hNear : IsGap ('/' :: '/' :: ([';'] ++ '\n' :: [])) := .comment (by simp) .nil
  have hTab : IsGap ['\t'] := .space rfl .nil
  have hWide : IsGap (' ' :: '/' :: '/' :: ([' ', 'x'] ++ '\n' :: ['\r'])) :=
    .space rfl (.comment (by simp) (.space rfl .nil))
  have hBreak : IsGap ['\n'] := .space rfl .nil
  have hAfter : IsEnding ([] ++ '/' :: '/' :: []) := .comment .nil (by simp)
  have hWrites : Writes
      [(";", false), (" \"", false), ("", true), ("\"//", true), ("//", false)] _ :=
    .cons hNear (by simp) (.cons hTab (by simp) (.cons hWide (by simp) (.cons hBreak (by simp)
      .single)))
  obtain ⟨ts, hts, hItems⟩ :=
    (tokenize_undoes_writing "<input>").1 _ _ _ _ (by decide) hBefore hWrites hAfter
  refine ⟨ts, Eq.trans (congrArg _ ?_) hts, hItems⟩
  decide

end EntitySchema
