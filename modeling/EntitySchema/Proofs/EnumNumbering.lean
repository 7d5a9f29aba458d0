import EntitySchema.Proofs.Lexing
import EntitySchema.Proofs.ReaderInvariant
import EntitySchema.Proofs.Uniformity
import Mathlib.Tactic.MkIffOfInductiveProp

/-!
The numbers of the values of an enum. An enum is written as a list of entries, of which some have a
number of their own; the others count on from the entry before them. Main statement: which lists of
entries make an enum, and the values that it then has.
-/

namespace EntitySchema

open EntitySchema.Derivation Grammar Lexer

/-! ## Whole numbers of 64 bits -/

namespace Number

/-- A sign and the digits after it; without a sign, all characters. -/
def splitSign : List Char → Option Char × List Char
  | [] => (none, [])
  | c :: cs => if c = '+' ∨ c = '-' then (some c, cs) else (none, c :: cs)

/-- The number with this sign. -/
def signed (sign : Option Char) (n : Nat) : Int :=
  if sign = some '-' then -(n : Int) else n

/-- The number that digits with an optional sign stand for. -/
def integer (text : String) : Int :=
  signed (splitSign text.toList).1 (ofDigits (splitSign text.toList).2)

/-- An optional sign and one or more digits, whose number fits 64 bits. -/
@[mk_iff]
structure IsInt64 (text : String) : Prop where
  nonempty : (splitSign text.toList).2 ≠ []
  digits : (splitSign text.toList).2.all Char.isDigit
  least : minSigned ≤ integer text
  greatest : integer text ≤ maxSigned

instance (text : String) : Decidable (IsInt64 text) :=
  decidable_of_iff _ (isInt64_iff text).symm

theorem ofDigits?_eq_some {cs : List Char} {n : Nat} :
    ofDigits? cs = some n ↔ cs ≠ [] ∧ cs.all Char.isDigit ∧ n = ofDigits cs := by
  unfold ofDigits?
  split <;> grind

/-- The sign is set aside, the digits are read, and the number has to fit. -/
theorem readSigned_eq (text : String) :
    readSigned text =
      ((ofDigits? (splitSign text.toList).2).map (signed (splitSign text.toList).1)).bind
        fun i => if minSigned ≤ i ∧ i ≤ maxSigned then some i else none := by
  unfold readSigned
  split
  · rename_i digits h
    have hSplit : splitSign text.toList = (some '+', digits) := by simp [h, splitSign]
    rw [hSplit]
    cases ofDigits? digits <;> simp [signed]
  · rename_i digits h
    have hSplit : splitSign text.toList = (some '-', digits) := by simp [h, splitSign]
    rw [hSplit]
    cases ofDigits? digits <;> simp [signed]
  · rename_i hPlus hMinus
    have hSplit : splitSign text.toList = (none, text.toList) := by
      cases h : text.toList with
      | nil => rfl
      | cons c cs =>
        refine if_neg ?_
        rintro (rfl | rfl)
        · exact hPlus cs h
        · exact hMinus cs h
    rw [hSplit]
    cases ofDigits? text.toList <;> simp [signed]

theorem readSigned_eq_some {text : String} {i : Int} :
    readSigned text = some i ↔ IsInt64 text ∧ i = integer text := by
  rw [readSigned_eq]
  constructor
  · intro h
    obtain ⟨j, hj, hRange⟩ := Option.bind_eq_some_iff.1 h
    obtain ⟨n, hn, rfl⟩ := Option.map_eq_some_iff.1 hj
    obtain ⟨hNonempty, hDigits, rfl⟩ := ofDigits?_eq_some.1 hn
    split at hRange
    · rename_i hBounds
      exact ⟨⟨hNonempty, hDigits, hBounds.1, hBounds.2⟩, (Option.some.inj hRange).symm⟩
    · cases hRange
  · rintro ⟨h, rfl⟩
    have hDigits := ofDigits?_eq_some.2 ⟨h.nonempty, h.digits, rfl⟩
    rw [hDigits]
    exact if_pos ⟨h.least, h.greatest⟩

end Number

/-! ## Enums as they are written -/

/-- A text that names something. -/
abbrev Identifier := { text : String // isName text }

/-- An entry of an enum: its name and the text of its number, if it has one. -/
structure EnumEntry where
  name : Identifier
  number : Option String

namespace EnumEntry

/-- The tokens of an entry. -/
def tokens (e : EnumEntry) : List Token :=
  match e.number with
  | none => [bare e.name]
  | some text => [bare e.name, bare "=", bare text]

/-- The number of an entry: its own, or else one more than the number before it, and zero where
there is none before it. -/
def numberAfter (last : Option Int) (e : EnumEntry) : Int :=
  match e.number, last with
  | some text, _ => Number.integer text
  | none, some previous => previous + 1
  | none, none => 0

/-- The entry has a number: its own one fits 64 bits, or it can count on. -/
def Fits (last : Option Int) (e : EnumEntry) : Prop :=
  match e.number with
  | some text => Number.IsInt64 text
  | none => last ≠ some Number.maxSigned

/-- The entry as a value of the enum. -/
def valueAfter (last : Option Int) (e : EnumEntry) : EnumValue :=
  ⟨e.name, e.numberAfter last⟩

end EnumEntry

/-- The entries of an enum, each followed by a comma; after the last one it may be left out. Without
entries there is none. -/
def entriesTokens (comma : Bool) : List EnumEntry → List Token
  | [] => []
  | e :: rest =>
    e.tokens ++ if rest.isEmpty && !comma then [] else bare "," :: entriesTokens comma rest

/-- An enum with or without a comma after its last entry and a semicolon at its end. -/
def enumBlock (name : Identifier) (entries : List EnumEntry) (comma semicolon : Bool) :
    List Token :=
  bare "enum" :: bare name :: bare "\x7b" ::
    (entriesTokens comma entries ++ bare "\x7d" :: if semicolon then [bare ";"] else [])

/-- The values of the entries, in their order. -/
def numbered : Option Int → List EnumEntry → List EnumValue
  | _, [] => []
  | last, e :: rest => e.valueAfter last :: numbered (some (e.numberAfter last)) rest

/-- Every entry has a number, in the course of counting on from `last`. -/
def Fit : Option Int → List EnumEntry → Prop
  | _, [] => True
  | last, e :: rest => e.Fits last ∧ Fit (some (e.numberAfter last)) rest

/-- The entries make an enum of this name in view of the model. -/
@[mk_iff]
structure MakesEnum (model : Model) (name : Identifier) (entries : List EnumEntry) : Prop where
  fresh : name.1 ∉ model.structs.map Struct.name ++ model.enums.map Enumeration.name
  notScalar : name.1 ∉ Scalar.all.map Scalar.keyword
  notKeyword : name.1 ∉ ["struct", "enum", "include", "config", "array"]
  distinct : (entries.map EnumEntry.name).Nodup
  notUnknown : ∀ e ∈ entries, e.name.1 ≠ "Unknown"
  /-- Every number that is written is one of 64 bits. -/
  integers : ∀ e ∈ entries, ∀ text ∈ e.number, Number.IsInt64 text
  /-- An entry right after one with the largest number has a number of its own. -/
  room : ∀ p ∈ (numbered none entries).zip entries.tail,
    p.1.value = Number.maxSigned → p.2.number ≠ none

instance (model : Model) (name : Identifier) (entries : List EnumEntry) :
    Decidable (MakesEnum model name entries) :=
  decidable_of_iff _ (makesEnum_iff model name entries).symm

/-! ## Reading entries -/

namespace Grammar

variable {e : EnumEntry} {entries : List EnumEntry} {last : Option Int} {used rest : List Token}
  {after : Token} {target : Enumeration}

/-- An entry gets its number from the text after its equals sign or from the number before it. -/
theorem valueNumber_entry {name : Token} {more : List Token} {x : Int × List Token}
    (hs : SameText e.tokens (name :: more)) (hLast : ∀ p ∈ last, p ≤ Number.maxSigned)
    (hAfter : after.is "=" = false) :
    valueNumber name last (more ++ after :: rest) = .ok x ↔
      e.Fits last ∧ x = (e.numberAfter last, after :: rest) := by
  obtain ⟨label, number⟩ := e
  obtain ⟨i, left⟩ := x
  cases number with
  | none =>
    obtain _ | ⟨p, _ | _⟩ := hs
    have hImplicit : valueNumber { bare label with position := p } last (after :: rest) =
        .ok (i, left) ↔ implicitValue last = some i ∧ left = after :: rest := by
      simp only [valueNumber, hAfter, Bool.false_eq_true, if_false, valueNumber.implicit]
      split <;> grind
    rw [List.nil_append, hImplicit, implicitValue_eq_some]
    cases last with
    | none => simp [EnumEntry.Fits, EnumEntry.numberAfter]
    | some previous =>
      have hLe : previous ≤ Number.maxSigned := hLast previous rfl
      have hLt : previous < Number.maxSigned ↔ previous ≠ Number.maxSigned := by omega
      simp [EnumEntry.Fits, EnumEntry.numberAfter, hLt, and_assoc]
  | some text =>
    obtain _ | ⟨p, _ | ⟨q, _ | ⟨r, _ | _⟩⟩⟩ := hs
    have hEquals : Token.is { bare "=" with position := q } "=" := rfl
    simp only [List.cons_append, List.nil_append, valueNumber]
    rw [if_pos hEquals, number_eq_ok]
    simp only [List.cons.injEq, EnumEntry.Fits, EnumEntry.numberAfter, Number.readSigned_eq_some,
      bare, Prod.mk.injEq]
    grind

theorem entry_head (hs : SameText e.tokens used) :
    ∃ name more, used = name :: more ∧ isIdentifier name ∧ name.text = e.name := by
  obtain ⟨label, number⟩ := e
  have hLabel : ∀ p, isIdentifier { bare label with position := p } := by
    intro p
    simpa [isIdentifier, bare] using label.2
  cases number with
  | none =>
    obtain _ | ⟨p, _⟩ := hs
    exact ⟨_, _, rfl, hLabel p, rfl⟩
  | some text =>
    obtain _ | ⟨p, _⟩ := hs
    exact ⟨_, _, rfl, hLabel p, rfl⟩

theorem valueAfter_eq_ok {name : Token} {i : Int} {ts : List Token}
    {x : Enumeration × List Token} :
    valueAfter target name (i, ts) = .ok x ↔
      name.text ∉ target.values.map EnumValue.name ∧
        valuesAfter { target with values := target.values ++ [⟨name.text, i⟩] } i ts = .ok x := by
  unfold valueAfter
  split
  · rename_i hNone
    have hTaken : name.text ∈ target.values.map EnumValue.name := by
      by_contra hNew
      exact absurd (hNone.symm.trans (addValue?_eq_some.2 ⟨hNew, rfl⟩)) (by simp)
    simp only [hTaken, not_true_eq_false, false_and, reduceCtorEq]
  · rename_i target' hSome
    obtain ⟨hNew, rfl⟩ := addValue?_eq_some.1 hSome
    exact (and_iff_right hNew).symm

/-- An entry becomes a value unless its name is reserved or taken or it has no number. -/
theorem values_entry {x : Enumeration × List Token} (hs : SameText e.tokens used)
    (hLast : ∀ p ∈ last, p ≤ Number.maxSigned) (hAfter : after.is "=" = false) :
    values target last (used ++ after :: rest) = .ok x ↔
      e.name.1 ≠ unknownName ∧ e.Fits last ∧ e.name.1 ∉ target.values.map EnumValue.name ∧
        valuesAfter { target with values := target.values ++ [e.valueAfter last] }
          (e.numberAfter last) (after :: rest) = .ok x := by
  obtain ⟨name, more, rfl, hName, hText⟩ := entry_head hs
  have hOpen : name.is "\x7d" = false := not_is_of_isIdentifier hName (by decide)
  rw [List.cons_append, values_cons, if_neg (by simp [hOpen]), if_neg (by simp [hName]), hText]
  split
  · rename_i hUnknown
    simp [hUnknown]
  · rename_i hUnknown
    simp only [bind_eq_ok_iff, valueNumber_entry hs hLast hAfter, and_assoc, exists_and_left,
      exists_eq_left, valueAfter_eq_ok, hText, hUnknown, ne_eq, not_false_eq_true, true_and,
      EnumEntry.valueAfter]

theorem valuesAfter_comma {i : Int} (h : after.is ",") :
    valuesAfter target i (after :: rest) = values target (some i) rest :=
  if_pos h

theorem valuesAfter_close {i : Int} (h : after.is "\x7d") :
    valuesAfter target i (after :: rest) = .ok (target, rest) := by
  simp [valuesAfter, h, Token.is_ne h (by decide : "\x7d" ≠ ",")]

/-- The number of an entry that fits is at most the largest one, so the next entry can start from
it. -/
theorem numberAfter_le (h : e.Fits last) (hLast : ∀ p ∈ last, p ≤ Number.maxSigned) :
    e.numberAfter last ≤ Number.maxSigned := by
  obtain ⟨label, number⟩ := e
  cases number with
  | some text => exact Number.IsInt64.greatest h
  | none =>
    cases last with
    | none => exact (by decide : (0 : Int) ≤ Number.maxSigned)
    | some previous =>
      have hLe : previous ≤ Number.maxSigned := hLast previous rfl
      have hNe : previous ≠ Number.maxSigned := fun hEq => h (hEq ▸ rfl)
      simp only [EnumEntry.numberAfter]
      omega

/-- Entries up to the closing brace become values in their order. They are refused only for their
names and for numbers that do not fit. -/
theorem values_entries {body : List Token} {right : Token} {x : Enumeration × List Token}
    (comma : Bool) (hs : SameText (entriesTokens comma entries) body)
    (hLast : ∀ p ∈ last, p ≤ Number.maxSigned) (hr : right.is "\x7d") :
    values target last (body ++ right :: rest) = .ok x ↔
      (∀ e ∈ entries, e.name.1 ≠ unknownName) ∧ Fit last entries ∧
        (entries.map EnumEntry.name).Nodup ∧
        (∀ e ∈ entries, e.name.1 ∉ target.values.map EnumValue.name) ∧
        x = ({ target with values := target.values ++ numbered last entries }, rest) := by
  -- Each entry moves on what the next one starts from: the values so far and the last number.
  induction entries generalizing target last body with
  | nil =>
    cases hs
    rw [List.nil_append, values_cons, if_pos hr]
    simp [numbered, Fit, eq_comm]
  | cons e entries ih =>
    obtain ⟨used, more, rfl, hUsed, hMore⟩ := hs.append_left
    split at hMore
    · -- The last entry, with the closing brace right after it.
      rename_i hEnd
      obtain rfl : entries = [] := by simp_all
      cases hMore
      rw [List.append_nil, values_entry hUsed hLast (Token.is_ne hr (by decide)),
        valuesAfter_close hr]
      simp [numbered, Fit, eq_comm]
    · obtain _ | ⟨p, hOthers⟩ := hMore
      rename_i others
      rw [List.append_assoc, List.cons_append, values_entry hUsed hLast rfl, valuesAfter_comma rfl]
      -- The bound on the last number is known only of an entry that fits.
      by_cases hFits : e.Fits last
      · rw [ih hOthers (by simpa using numberAfter_le hFits hLast)]
        have hNames : ({ target with values := target.values ++ [e.valueAfter last] } :
            Enumeration).values.map EnumValue.name =
              target.values.map EnumValue.name ++ [e.name.1] := by
          simp [EnumEntry.valueAfter]
        simp only [hNames, Fit, numbered, List.map_cons, List.nodup_cons, List.forall_mem_cons,
          List.mem_append, List.mem_singleton, not_or, forall_and, hFits, true_and,
          List.append_assoc, List.cons_append, List.nil_append]
        have hOther : e.name ∉ entries.map EnumEntry.name ↔ ∀ o ∈ entries, o.name.1 ≠ e.name.1 := by
          simp [Subtype.ext_iff]
        rw [hOther]
        grind
      · simp [Fit, hFits]

/-- Every entry has a number exactly if those that are written fit 64 bits and no entry counts on
from the largest. -/
theorem fit_iff : Fit last entries ↔
    (∀ e ∈ entries, ∀ text ∈ e.number, Number.IsInt64 text) ∧
      (∀ e ∈ entries.head?, last = some Number.maxSigned → e.number ≠ none) ∧
      ∀ p ∈ (numbered last entries).zip entries.tail,
        p.1.value = Number.maxSigned → p.2.number ≠ none := by
  induction entries generalizing last with
  | nil => simp [Fit, numbered]
  | cons e entries ih =>
    have hFits : e.Fits last ↔ (∀ text ∈ e.number, Number.IsInt64 text) ∧
        (last = some Number.maxSigned → e.number ≠ none) := by
      obtain ⟨label, number⟩ := e
      cases number <;> simp [EnumEntry.Fits]
    -- The second entry counts on from the first, and the pairs after it are those of the rest.
    have hPairs : (∀ p ∈ (numbered last (e :: entries)).zip entries,
          p.1.value = Number.maxSigned → p.2.number ≠ none) ↔
        (∀ o ∈ entries.head?, e.numberAfter last = Number.maxSigned → o.number ≠ none) ∧
          ∀ p ∈ (numbered (some (e.numberAfter last)) entries).zip entries.tail,
            p.1.value = Number.maxSigned → p.2.number ≠ none := by
      cases entries with
      | nil => simp [numbered]
      | cons o entries => simp [numbered, EnumEntry.valueAfter]
    simp only [Fit, hFits, ih, List.forall_mem_cons, List.head?_cons, List.tail_cons, hPairs,
      Option.some.injEq, Option.mem_def, forall_eq']
    grind

theorem makesEnum_iff_fit {model : Model} {name : Identifier} (label : Token)
    (hText : label.text = name) (hQuoted : label.quoted = false) :
    MakesEnum model name entries ↔ IsNewName model label ∧
      (∀ e ∈ entries, e.name.1 ≠ unknownName) ∧ Fit none entries ∧
        (entries.map EnumEntry.name).Nodup := by
  have hNew : IsNewName model label ↔ name.1 ∉ model.names ∧
      name.1 ∉ Scalar.all.map Scalar.keyword ∧
        name.1 ∉ ["struct", "enum", "include", "config", "array"] := by
    rw [← Reader.notReserved_iff, ← Model.isDeclared_iff, Bool.not_eq_true, ← hText]
    have hName : isIdentifier label := by simp [isIdentifier, hQuoted, hText, name.2]
    exact ⟨fun h => ⟨h.notDeclared, h.notReserved⟩, fun h => ⟨hName, h.2, h.1⟩⟩
  rw [makesEnum_iff, hNew, fit_iff]
  simp only [Model.names, unknownName]
  grind

theorem declaration_eq_enumeration (model : Model) {keyword : Token} (hk : keyword.is "enum")
    (ts : List Token) : declaration model keyword ts =
      enumeration model ts >>= fun x => .ok (.enumeration x.1, x.2) := by
  simp only [declaration, Token.is_ne hk (by decide : "enum" ≠ "include"),
    Token.is_ne hk (by decide : "enum" ≠ "struct"), hk, Bool.false_eq_true, if_false, if_true]

theorem numbered_names (last : Option Int) (entries : List EnumEntry) :
    (numbered last entries).map EnumValue.name = entries.map fun e => e.name.1 := by
  induction entries generalizing last with
  | nil => rfl
  | cons e entries ih => simp [numbered, EnumEntry.valueAfter, ih]

/-- `Unknown` is appended to entries of other names. -/
theorem close_numbered (name : String) (position : Position)
    (h : ∀ e ∈ entries, e.name.1 ≠ unknownName) :
    ({ name, position, values := numbered last entries } : Enumeration).close =
      { name, position, values := numbered last entries ++ [⟨"Unknown", -1⟩] } := by
  refine enum_close_eq ?_
  intro v hv
  have hName : v.name ∈ entries.map fun e => e.name.1 :=
    numbered_names last entries ▸ List.mem_map_of_mem hv
  obtain ⟨e, he, hEq⟩ := List.mem_map.1 hName
  exact hEq ▸ h e he

theorem optionalSemicolon_finish {semicolon : Bool} {finish : List Token}
    (h : SameText (if semicolon then [bare ";"] else []) finish) :
    optionalSemicolon (finish ++ rest) = if semicolon then rest else optionalSemicolon rest := by
  cases semicolon with
  | false =>
    cases h
    rfl
  | true =>
    obtain _ | ⟨p, _ | _⟩ := h
    rfl

/-- An enum block is read exactly if its entries make an enum. Its values are then the entries in
their order, each with its own number or with one more than the number before it, and `Unknown`. -/
theorem declaration_enumBlock (model : Model) (name : Identifier) (entries : List EnumEntry)
    (comma semicolon : Bool) {keyword label : Token} {ts : List Token}
    (hs : SameText (enumBlock name entries comma semicolon) (keyword :: label :: ts))
    (rest : List Token) (d : Declaration) (left : List Token) :
    declaration model keyword (label :: ts ++ rest) = .ok (d, left) ↔
      MakesEnum model name entries ∧
        d = .enumeration { name := name.1, position := label.position,
                           values := numbered none entries ++ [⟨"Unknown", -1⟩] } ∧
        left = if semicolon then rest else optionalSemicolon rest := by
  obtain _ | ⟨p, _ | ⟨q, _ | ⟨r, hs⟩⟩⟩ := hs
  obtain ⟨body, _, rfl, hBody, _ | ⟨u, hFinish⟩⟩ := hs.append_left
  rename_i finish
  have hValues : ∀ x, values { name := name.1, position := q } none
      (body ++ { bare "\x7d" with position := u } :: (finish ++ rest)) = .ok x ↔
        (∀ e ∈ entries, e.name.1 ≠ unknownName) ∧ Fit none entries ∧
          (entries.map EnumEntry.name).Nodup ∧
          x = ({ name := name.1, position := q, values := numbered none entries },
            finish ++ rest) := by
    intro x
    rw [values_entries comma hBody (by simp) rfl]
    simp
  rw [declaration_eq_enumeration model rfl,
    makesEnum_iff_fit { bare name with position := q } rfl rfl]
  simp only [enumeration, bind_eq_ok_iff, Prod.exists, newName_eq_ok, expect_eq_ok,
    List.cons_append, List.append_assoc]
  constructor
  · rintro ⟨e, after, ⟨label, _, ⟨hLabel, hNew⟩, _, ⟨brace, hBrace, _⟩, e', _, hRead, hEnd⟩, hd⟩
    cases hLabel
    cases hBrace
    obtain ⟨hUnknown, hFit, hDistinct, hRead⟩ := (hValues _).1 hRead
    cases hRead
    rw [close_numbered _ _ hUnknown, optionalSemicolon_finish hFinish] at hEnd
    cases hEnd
    cases hd
    exact ⟨⟨hNew, hUnknown, hFit, hDistinct⟩, rfl, rfl⟩
  · rintro ⟨⟨hNew, hUnknown, hFit, hDistinct⟩, rfl, rfl⟩
    refine ⟨_, _, ⟨_, _, ⟨rfl, hNew⟩, _, ⟨_, rfl, rfl⟩, _, _,
      (hValues _).2 ⟨hUnknown, hFit, hDistinct, rfl⟩, rfl⟩, ?_⟩
    rw [close_numbered _ _ hUnknown, optionalSemicolon_finish hFinish]

/-- Numbers of either sign, the largest one and one that comes twice, with entries that count on. -/
def levels : List EnumEntry :=
  [⟨⟨"Low", by decide⟩, none⟩, ⟨⟨"Deep", by decide⟩, some "-9"⟩, ⟨⟨"Deeper", by decide⟩, none⟩,
    ⟨⟨"Top", by decide⟩, some "9223372036854775807"⟩, ⟨⟨"Mid", by decide⟩, some "+0"⟩,
    ⟨⟨"High", by decide⟩, none⟩]

theorem levels_numbered :
    MakesEnum {} ⟨"Level", by decide⟩ levels ∧
      declaration {} (bare "enum") (bare "Level" :: bare "\x7b" ::
          (entriesTokens true levels ++ [bare "\x7d"]) ++ [bare "struct"]) =
        .ok (.enumeration { name := "Level", position := some default, values :=
          [⟨"Low", 0⟩, ⟨"Deep", -9⟩, ⟨"Deeper", -8⟩, ⟨"Top", 9223372036854775807⟩, ⟨"Mid", 0⟩,
            ⟨"High", 1⟩, ⟨"Unknown", -1⟩] }, [bare "struct"]) := by
  have hLevels : MakesEnum {} ⟨"Level", by decide⟩ levels := by decide +kernel
  exact ⟨hLevels, (declaration_enumBlock {} ⟨"Level", by decide⟩ levels true false
    (SameText.refl _) [bare "struct"] _ _).2 ⟨hLevels, by decide +kernel, by decide +kernel⟩⟩

end Grammar

end EntitySchema
