import EntitySchema.Proofs.Spelling
import Mathlib.Data.List.Induction

/-!
The places of tokens. The line and the column of a token are carried along while the source is read;
here they are compared with a count over the characters in front of the token. The main result is
that every place that is reported, of a token or of a quote that is never closed, is the place where
it stands, and that the places of the tokens ascend.
-/

namespace EntitySchema

/-- The place comes earlier in its file. -/
def Position.Before (p q : Position) : Prop :=
  p.line < q.line ∨ p.line = q.line ∧ p.column < q.column

theorem Position.Before.trans {p q r : Position} (h : p.Before q) (h' : q.Before r) :
    p.Before r := by
  unfold Position.Before at *
  omega

namespace Lexer

/-! ## Places as counts -/

/-- The place that follows the characters at the start of a file: each line break before it counts
for its line, and each character after the last line break for its column. -/
def placeAfter (file : String) (before : List Char) : Position where
  file := file
  line := 1 + before.count '\n'
  column := 1 + (before.reverse.takeWhile (· ≠ '\n')).length

theorem inFile_past_start (file : String) (before : List Char) :
    (Cursor.start.past before).inFile file = placeAfter file before := by
  induction before using List.reverseRecOn with
  | nil => rfl
  | append_singleton before c ih =>
    rw [Cursor.past_append, Cursor.past_cons, Cursor.past_nil]
    obtain ⟨-, hLine, hColumn⟩ := Position.mk.inj ih
    by_cases hc : c = '\n'
    · subst hc
      simp [Cursor.next, Cursor.inFile, placeAfter, hLine, Nat.add_assoc]
    · simp [Cursor.next, Cursor.inFile, placeAfter, hc, hLine, hColumn, Nat.add_assoc]

variable {file : String} {k : Cursor} {c : Char} {cs used : List Char} {t : Token}
  {ts : List Token}

theorem before_next (file : String) (k : Cursor) (c : Char) :
    (k.inFile file).Before ((k.next c).inFile file) := by
  unfold Cursor.next
  split
  · exact .inl (Nat.lt_succ_self k.line)
  · exact .inr ⟨rfl, Nat.lt_succ_self k.column⟩

/-- Each character moves the place on. -/
theorem before_past (h : cs ≠ []) : (k.inFile file).Before ((k.past cs).inFile file) := by
  induction cs generalizing k with
  | nil => exact absurd rfl h
  | cons c cs ih =>
    have hNext := before_next file k c
    by_cases hMore : cs = []
    · rw [hMore]
      exact hNext
    · exact hNext.trans (ih hMore)

/-! ## Tokens -/

/-- The characters open the token: with its quote, with its first character, or with a backslash
before that. -/
def Opens (t : Token) (cs : List Char) : Prop :=
  t.quoted = true ∧ ['"'] <+: cs ∨
    t.quoted = false ∧ ∃ c, [c] <+: t.text.toList ∧ ([c] <+: cs ∨ ['\\', c] <+: cs)

theorem Opens.append (h : Opens t cs) (rest : List Char) : Opens t (cs ++ rest) := by
  have hMore : ∀ {front : List Char}, front <+: cs → front <+: cs ++ rest :=
    fun h => h.trans (List.prefix_append cs rest)
  rcases h with ⟨hQuoted, hFront⟩ | ⟨hWord, c, hc, hFront⟩
  · exact .inl ⟨hQuoted, hMore hFront⟩
  · exact .inr ⟨hWord, c, hc, hFront.imp hMore hMore⟩

theorem SpellsToken.opens (h : SpellsToken t used) : Opens t used := by
  cases h with
  | @mark c p _ => exact .inr ⟨rfl, c, by simp, .inl List.prefix_rfl⟩
  | @word text used p hText hUsed =>
    cases hUsed with
    | nil => exact absurd rfl hText
    | @bare c text used _ _ => exact .inr ⟨rfl, c, by simp, .inl (List.prefix_append [c] used)⟩
    | @escaped c text used _ =>
      exact .inr ⟨rfl, c, by simp, .inr (List.prefix_append ['\\', c] used)⟩
  | quoted => exact .inl ⟨rfl, List.prefix_append ['"'] _⟩

theorem SpellsToken.ne_nil (h : SpellsToken t used) : used ≠ [] := by
  rintro rfl
  simpa [Opens] using h.opens

/-- The token stands somewhere in these characters, of which the first is at `k`. -/
def StandsIn (file : String) (k : Cursor) (cs : List Char) (t : Token) : Prop :=
  ∃ before rest, cs = before ++ rest ∧ t.position = (k.past before).inFile file ∧ Opens t rest

theorem StandsIn.prepend (lead : List Char) (h : StandsIn file (k.past lead) cs t) :
    StandsIn file k (lead ++ cs) t := by
  obtain ⟨before, rest, rfl, hPlace, hOpens⟩ := h
  exact ⟨lead ++ before, rest, by simp, by simpa using hPlace, hOpens⟩

theorem StandsIn.append (h : StandsIn file k cs t) (more : List Char) :
    StandsIn file k (cs ++ more) t := by
  obtain ⟨before, rest, rfl, hPlace, hOpens⟩ := h
  exact ⟨before, rest ++ more, by simp, hPlace, hOpens.append more⟩

theorem SpellsTokens.standsIn (h : SpellsTokens file k ts used) :
    ∀ t ∈ ts, StandsIn file k used t := by
  induction h with
  | nil => simp
  | @space k ts c rest _ _ ih =>
    intro t ht
    exact StandsIn.prepend [c] (ih t ht)
  | @comment k ts line rest _ _ ih =>
    intro t ht
    exact StandsIn.prepend ('/' :: '/' :: line) (ih t ht)
  | @token k t ts used rest hToken hPlace _ ih =>
    rw [List.forall_mem_cons]
    refine ⟨⟨[], used ++ rest, rfl, hPlace, hToken.opens.append rest⟩, ?_⟩
    intro u hu
    exact (ih u hu).prepend _

/-- A token comes before all that stand in the characters after it. -/
theorem SpellsTokens.ascending (h : SpellsTokens file k ts used) :
    ts.Pairwise (fun t u => t.position.Before u.position) := by
  induction h with
  | nil => exact .nil
  | space _ _ ih => exact ih
  | comment _ _ ih => exact ih
  | @token k t ts used rest hToken hPlace hRest ih =>
    refine .cons ?_ ih
    intro u hu
    obtain ⟨before, _, _, hNext, _⟩ := hRest.standsIn u hu
    rw [hPlace, hNext, ← Cursor.past_append]
    exact before_past (by simp [hToken.ne_nil])

/-! ## Quotes that are never closed -/

/-- A character after these ones is escaped: an odd number of backslashes stands right before it. -/
def Escapes (before : List Char) : Prop :=
  (before.reverse.takeWhile (· = '\\')).length % 2 = 1

theorem Escapes.cons (hc : c ≠ '\\') (h : Escapes cs) : Escapes (c :: cs) := by
  unfold Escapes at *
  rw [List.reverse_cons, List.takeWhile_append]
  split
  · rename_i hAll
    simpa [hc, hAll] using h
  · exact h

/-- A pair of a backslash and the character that it escapes changes nothing for what follows. -/
theorem Escapes.pair (c : Char) (h : Escapes cs) : Escapes ('\\' :: c :: cs) := by
  unfold Escapes at *
  rw [List.reverse_cons, List.reverse_cons, List.append_assoc, List.takeWhile_append]
  split
  · rename_i hAll
    by_cases hc : c = '\\'
    · have hTwo : ([c] ++ ['\\']).takeWhile (· = '\\') = ['\\', '\\'] := by simp [hc]
      rw [hTwo, List.length_append, ← hAll]
      show (_ + 2) % 2 = 1
      omega
    · simpa [hc, hAll] using h
  · exact h

theorem escapes_of_spells {text inner after : List Char} (h : Spells IsQuotable text used)
    (hSplit : used = inner ++ '"' :: after) : Escapes inner := by
  induction h generalizing inner with
  | nil => simp at hSplit
  | @bare c text used hc _ ih =>
    cases inner with
    | nil => exact absurd (List.cons.inj hSplit).1 hc.1
    | cons d inner =>
      obtain ⟨rfl, hInner⟩ := List.cons.inj hSplit
      exact (ih hInner).cons hc.2
  | @escaped c text used _ ih =>
    cases inner with
    | nil => exact absurd (List.cons.inj hSplit).1 (by decide)
    | cons d inner =>
      obtain ⟨rfl, hNext⟩ := List.cons.inj hSplit
      cases inner with
      | nil => rfl
      | cons e inner =>
        obtain ⟨rfl, hInner⟩ := List.cons.inj hNext
        exact (ih hInner).pair c

/-- In a quoted text that is not closed every quote is escaped. -/
theorem escapes_of_isUnclosed {body inner after : List Char} (h : IsUnclosed body)
    (hSplit : body = inner ++ '"' :: after) : Escapes inner := by
  obtain ⟨text, used, hUsed, rfl | rfl⟩ := h
  · exact escapes_of_spells hUsed hSplit
  · -- A backslash at the very end comes after the quote.
    rcases List.eq_nil_or_concat after with rfl | ⟨after, last, rfl⟩
    · have hLast := congrArg List.getLast? hSplit
      simp at hLast
    · rw [List.concat_eq_append, ← List.cons_append, ← List.append_assoc] at hSplit
      exact escapes_of_spells hUsed (List.append_inj_left' hSplit rfl)

/-! ## What is reported -/

/-- The places in the result of reading a source are real. A token stands where its characters
start, and further on in the source than the tokens before it. A quote that is reported as not
closed is one: all quotes after it are escaped. -/
def ReportsRealPlaces (file : String) (source : List Char) : Except LexError (List Token) → Prop
  | .ok ts =>
    (∀ t ∈ ts, ∃ before rest, source = before ++ rest ∧ t.position = placeAfter file before ∧
      Opens t rest) ∧
    ts.Pairwise (fun t u => t.position.Before u.position)
  | .error (.unterminatedText p) =>
    ∃ before body, source = before ++ '"' :: body ∧ p = placeAfter file before ∧
      ∀ inner after, body = inner ++ '"' :: after → Escapes inner

/-- Every place that reading a source reports, for a token or for an error, is real. -/
theorem tokenize_reportsRealPlaces (file source : String) :
    ReportsRealPlaces file source.toList (tokenize file source) := by
  have hAccounts := accounts_tokensFrom file .start source.toList
  unfold tokenize
  cases hResult : tokensFrom file .start source.toList with
  | ok ts =>
    rw [hResult] at hAccounts
    obtain ⟨used, remnant, hSplit, hUsed, _⟩ := hAccounts
    refine ⟨?_, hUsed.ascending⟩
    intro t ht
    obtain ⟨before, rest, hBefore, hPlace, hOpens⟩ := (hUsed.standsIn t ht).append remnant
    exact ⟨before, rest, hSplit.trans hBefore, by rw [hPlace, inFile_past_start], hOpens⟩
  | error e =>
    rw [hResult] at hAccounts
    obtain ⟨_, before, body, hSplit, _, hBody, rfl⟩ := hAccounts
    refine ⟨before, body, hSplit, inFile_past_start file before, ?_⟩
    intro inner after
    exact escapes_of_isUnclosed hBody

end Lexer

end EntitySchema
