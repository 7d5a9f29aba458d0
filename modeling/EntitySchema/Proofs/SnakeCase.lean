import EntitySchema.Text.SnakeCase

/-!
What a name in snake case is made of. Its words are not empty, and a letter or number in lowercase
is never a character that separates words, so that a name in snake case does not end with an
underscore and holds no other punctuation.
-/

namespace EntitySchema.Text

/-! ## Tables -/

/-- An entry that is found stands in the table and starts at or before `c`, sorted or not. -/
theorem lastAtOrBelowFrom_eq_some {α : Type} {first : α → Nat} {table : Array α} {c lo hi : Nat}
    {a : α} (hLow : ∀ x, 0 < lo → table[lo - 1]? = some x → first x ≤ c)
    (h : lastAtOrBelowFrom first table c lo hi = some a) : a ∈ table ∧ first a ≤ c := by
  fun_induction lastAtOrBelowFrom first table c lo hi with
  | case1 lo hi hBounds mid hFirst ih =>
    refine ih ?_ h
    intro x _ hx
    rw [Nat.add_sub_cancel] at hx
    obtain ⟨_, rfl⟩ := Array.getElem?_eq_some_iff.1 hx
    exact hFirst
  | case2 lo hi hBounds mid hFirst ih => exact ih hLow h
  | case3 => cases h
  | case4 lo hi hBounds hZero => exact ⟨Array.mem_of_getElem? h, hLow a (by omega) h⟩

theorem lastAtOrBelow_eq_some {α : Type} {first : α → Nat} {table : Array α} {c : Nat} {a : α}
    (h : lastAtOrBelow first table c = some a) : a ∈ table ∧ first a ≤ c :=
  lastAtOrBelowFrom_eq_some (fun _ hZero _ => absurd hZero (by omega)) h

/-! ## Characters -/

/-- A digit, or what comes after the underscore: no punctuation that means something in a path or in
a name. -/
def isWordChar (c : Char) : Bool :=
  c.isDigit || 0x5F < c.toNat

theorem isWordChar_of_ascii (c : Char) (hAscii : c.toNat < 128) (hc : isAlphanumeric c = true) :
    isWordChar c.toLower = true := by
  have hAll : ∀ n < 128, isAlphanumeric (Char.ofNat n) = true →
      isWordChar (Char.ofNat n).toLower = true := by
    decide +kernel
  have hChar := hAll c.toNat hAscii
  rw [Char.ofNat_toNat] at hChar
  exact hChar hc

/-- The lowercase forms of a run of letters are characters, and all after the underscore. -/
def isLetterShift : Nat × Nat × Nat × Int → Bool
  | (first, last, _, shift) => 0x5F < first + shift &&
    (last + shift < 0xD800 || (0xDFFF < first + shift && last + shift < 0x110000))

theorem isLetterShift_of_mem : ∀ run ∈ lowercaseShifts, isLetterShift run = true := by
  have hAll : lowercaseShifts.all isLetterShift = true := by decide +kernel
  exact Array.all_eq_true'.1 hAll

theorem isWordChar_shift {c first last step : Nat} {shift : Int}
    (h : isLetterShift (first, last, step, shift) = true) (hFirst : first ≤ c) (hLast : c ≤ last) :
    isWordChar (Char.ofNat (c + shift).toNat) = true := by
  simp only [isLetterShift, Bool.and_eq_true, Bool.or_eq_true, decide_eq_true_eq] at h
  have hValid : (c + shift).toNat.isValidChar := by
    unfold Nat.isValidChar
    omega
  have hChar : (Char.ofNat (c + shift).toNat).toNat = (c + shift).toNat := by
    rw [Char.ofNat, dif_pos hValid]
    rfl
  rw [isWordChar, hChar, Bool.or_eq_true, decide_eq_true_eq]
  right
  omega

theorem lowercaseChar_ne_nil (c : Char) : lowercaseChar c ≠ [] := by
  unfold lowercaseChar
  split
  · simp
  · split
    · simp
    · split
      · split <;> simp
      · simp

theorem isWordChar_lowercaseChar {c d : Char} (hc : isAlphanumeric c = true)
    (hd : d ∈ lowercaseChar c) : isWordChar d = true := by
  unfold lowercaseChar at hd
  by_cases hAscii : c.toNat < 128
  · rw [if_pos hAscii, List.mem_singleton] at hd
    exact hd ▸ isWordChar_of_ascii c hAscii hc
  · -- Letters without a lowercase form are left as they are, far above the underscore.
    have hOther : isWordChar c = true := by
      simp only [isWordChar, Bool.or_eq_true, decide_eq_true_eq]
      omega
    rw [if_neg hAscii] at hd
    split at hd
    · rcases List.mem_cons.1 hd with rfl | hd
      · rfl
      · rw [List.mem_singleton.1 hd]
        rfl
    · split at hd
      · rename_i hFound
        obtain ⟨hMem, hFirst⟩ := lastAtOrBelow_eq_some hFound
        split at hd
        · rename_i hRun
          rw [List.mem_singleton.1 hd]
          exact isWordChar_shift (isLetterShift_of_mem _ hMem) hFirst hRun.1
        · exact List.mem_singleton.1 hd ▸ hOther
      · exact List.mem_singleton.1 hd ▸ hOther

/-! ## Words -/

/-- A word as it is cut out of a name. -/
def IsWord (word : List Char) : Prop :=
  word ≠ [] ∧ ∀ c ∈ word, isAlphanumeric c = true

theorem isWord_reverse {word : List Char} (h : IsWord word) : IsWord word.reverse := by
  simpa [IsWord] using h

/-- The word being read is not empty once its case is known. -/
theorem isWord_of_mem_wordsOfPiece {case : WordCase} {word cs w : List Char}
    (hWord : ∀ c ∈ word, isAlphanumeric c = true) (hCase : case = .upper → word ≠ [])
    (hne : cs ≠ []) (hcs : ∀ c ∈ cs, isAlphanumeric c = true) (hw : w ∈ wordsOfPiece case word cs) :
    IsWord w := by
  fun_induction wordsOfPiece case word cs with
  | case1 => exact absurd rfl hne
  | case2 case word c =>
    rw [List.mem_singleton.1 hw]
    exact isWord_reverse ⟨by simp, List.forall_mem_cons.2 ⟨hcs c List.mem_cons_self, hWord⟩⟩
  | case3 case word c n rest next hSplit ih =>
    obtain ⟨hc, hRest⟩ := List.forall_mem_cons.1 hcs
    rcases List.mem_cons.1 hw with rfl | hw
    · exact isWord_reverse ⟨by simp, List.forall_mem_cons.2 ⟨hc, hWord⟩⟩
    · exact ih (by simp) (by simp) (by simp) hRest hw
  | case4 case word c n rest next hJoin hSplit ih =>
    obtain ⟨hc, hRest⟩ := List.forall_mem_cons.1 hcs
    rcases List.mem_cons.1 hw with rfl | hw
    · -- The word ends before `c`; it has a letter, since its case is known.
      exact isWord_reverse ⟨hCase hSplit.1, hWord⟩
    · exact ih (by simpa using hc) (by simp) (by simp) hRest hw
  | case5 case word c n rest next hJoin hSplit ih =>
    obtain ⟨hc, hRest⟩ := List.forall_mem_cons.1 hcs
    exact ih (List.forall_mem_cons.2 ⟨hc, hWord⟩) (by simp) (by simp) hRest hw

theorem isAlphanumeric_of_mem_piecesOf {cs piece : List Char} (h : piece ∈ piecesOf cs) :
    ∀ c ∈ piece, isAlphanumeric c = true := by
  induction cs generalizing piece with
  | nil =>
    rw [List.mem_singleton.1 h]
    simp
  | cons c cs ih =>
    unfold piecesOf at h
    split at h
    · rw [List.mem_singleton.1 h]
      simp
    · rename_i first pieces hPieces
      rw [hPieces] at ih
      split at h
      · rename_i hc
        rcases List.mem_cons.1 h with rfl | h
        · exact List.forall_mem_cons.2 ⟨hc, ih List.mem_cons_self⟩
        · exact ih (List.mem_cons_of_mem _ h)
      · rcases List.mem_cons.1 h with rfl | h
        · simp
        · exact ih h

theorem isWord_of_mem_wordsOf {cs w : List Char} (h : w ∈ wordsOf cs) : IsWord w := by
  obtain ⟨piece, hPiece, hw⟩ := List.mem_flatMap.1 h
  obtain ⟨hMem, hne⟩ := List.mem_filter.1 hPiece
  refine isWord_of_mem_wordsOfPiece (by simp) (by simp) ?_
    (isAlphanumeric_of_mem_piecesOf hMem) hw
  simpa using hne

theorem lowercaseWord_of_isWord {w : List Char} (h : IsWord w) :
    lowercaseWord w ≠ [] ∧ ∀ d ∈ lowercaseWord w, isWordChar d = true := by
  obtain ⟨hne, hw⟩ := h
  fun_induction lowercaseWord w with
  | case1 => exact absurd rfl hne
  | case2 =>
    refine ⟨by simp, ?_⟩
    intro d hd
    rw [List.mem_singleton.1 hd]
    decide
  | case3 c hc =>
    exact ⟨lowercaseChar_ne_nil c, fun d => isWordChar_lowercaseChar (hw c List.mem_cons_self)⟩
  | case4 c rest hRest ih =>
    obtain ⟨hc, hw⟩ := List.forall_mem_cons.1 hw
    have hWord := ih (fun h => hRest h) hw
    refine ⟨by simp [hWord.1], ?_⟩
    intro d hd
    rcases List.mem_append.1 hd with hd | hd
    · exact isWordChar_lowercaseChar hc hd
    · exact hWord.2 d hd

/-! ## Snake case -/

/-- What words joined by underscores are made of. -/
theorem intercalate_words {ws : List (List Char)}
    (h : ∀ w ∈ ws, w ≠ [] ∧ ∀ d ∈ w, isWordChar d = true) :
    (∀ d ∈ ['_'].intercalate ws, d = '_' ∨ isWordChar d = true) ∧
      (['_'].intercalate ws).getLast? ≠ some '_' := by
  induction ws with
  | nil => simp
  | cons w ws ih =>
    obtain ⟨⟨hne, hw⟩, hws⟩ := List.forall_mem_cons.1 h
    cases ws with
    | nil =>
      rw [List.intercalate_singleton]
      refine ⟨fun d hd => .inr (hw d hd), ?_⟩
      intro hLast
      exact absurd (hw '_' (List.mem_of_getLast? hLast)) (by decide)
    | cons w' ws =>
      obtain ⟨hChars, hLast⟩ := ih hws
      rw [List.intercalate_cons_cons]
      refine ⟨?_, ?_⟩
      · intro d hd
        rw [List.append_assoc, List.mem_append, List.singleton_append, List.mem_cons] at hd
        rcases hd with hd | rfl | hd
        · exact .inr (hw d hd)
        · exact .inl rfl
        · exact hChars d hd
      · have hMore : ['_'].intercalate (w' :: ws) ≠ [] := by
          obtain ⟨hne', _⟩ := hws w' List.mem_cons_self
          cases ws <;> simp [hne']
        obtain ⟨d, hd⟩ := Option.isSome_iff_exists.1 (List.getLast?_isSome.2 hMore)
        rw [List.getLast?_append, hd]
        rwa [hd] at hLast

theorem snakeCase_toList (s : String) :
    (snakeCase s).toList = ['_'].intercalate ((wordsOf s.toList).map lowercaseWord) := by
  simp [snakeCase, String.toList_intercalate, Function.comp_def]

theorem snakeCase_chars (s : String) :
    (∀ d ∈ (snakeCase s).toList, d = '_' ∨ isWordChar d = true) ∧
      (snakeCase s).toList.getLast? ≠ some '_' := by
  rw [snakeCase_toList]
  apply intercalate_words
  intro w hw
  obtain ⟨word, hWord, rfl⟩ := List.mem_map.1 hw
  exact lowercaseWord_of_isWord (isWord_of_mem_wordsOf hWord)

theorem not_mem_snakeCase {c : Char} (hc : isWordChar c = false) (hOther : c ≠ '_') (s : String) :
    c ∉ (snakeCase s).toList := by
  intro hMem
  rcases (snakeCase_chars s).1 c hMem with rfl | hWord
  · exact hOther rfl
  · rw [hc] at hWord
    cases hWord

theorem snakeCase_append_ne (a b : String) : snakeCase a ++ "_" ≠ snakeCase b := by
  intro h
  apply (snakeCase_chars b).2
  rw [← h]
  simp

end EntitySchema.Text
