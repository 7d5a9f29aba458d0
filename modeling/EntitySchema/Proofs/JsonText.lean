import EntitySchema.Json.Reader
import EntitySchema.Json.Writer
import EntitySchema.Proofs.Lists
import Mathlib.Data.List.TakeDrop
import Mathlib.Data.List.TakeWhile

/-!
JSON values written and read back. The main result is that reading undoes writing, with two
exceptions that lie in the values: the fields of an object come back in the order of their keys, and
a number comes back as whatever its numeral is read as.
-/

namespace EntitySchema

open Number Text

namespace JsonValue

/-! ## Numerals as text -/

namespace Numeral

def IsDigits (cs : List Char) : Prop :=
  cs ≠ [] ∧ ∀ c ∈ cs, c.isDigit = true

/-- There are digits wherever a point or a power asks for them, and a zero in front stands alone. -/
structure WellFormed (n : Numeral) : Prop where
  whole : n.whole = ['0'] ∨ IsDigits n.whole ∧ n.whole.head? ≠ some '0'
  fraction : ∀ digits ∈ n.fraction, IsDigits digits
  power : ∀ p ∈ n.power, IsDigits p.2

def fractionText : Option (List Char) → List Char
  | some digits => '.' :: digits
  | none => []

/-- A power of ten is written with its sign. -/
def powerText : Option (Bool × List Char) → List Char
  | some (negative, digits) => 'e' :: (if negative then '-' else '+') :: digits
  | none => []

def text (n : Numeral) : List Char :=
  (if n.negative then ['-'] else []) ++
    (n.whole ++ (fractionText n.fraction ++ powerText n.power))

/-- No numeral goes on with these characters. -/
def Ends (cs : List Char) : Prop :=
  ∀ c ∈ cs.head?, c.isDigit = false ∧ c ≠ '.' ∧ c ≠ 'e' ∧ c ≠ 'E'

variable {digits rest : List Char} {n : Numeral}

theorem digits?_append (h : IsDigits digits) (hRest : ∀ c ∈ rest.head?, c.isDigit = false) :
    digits? (digits ++ rest) = some (digits, rest) := by
  have hSpan : (digits ++ rest).span Char.isDigit = (digits, rest) := by
    rw [List.span_eq_takeWhile_dropWhile, List.takeWhile_append_of_pos h.2,
      List.dropWhile_append_of_pos h.2]
    cases rest with
    | nil => simp
    | cons c rest => simp [hRest c rfl]
  unfold digits?
  rw [hSpan]
  cases digits with
  | nil => exact absurd rfl h.1
  | cons c digits => rfl

theorem whole?_append (h : digits = ['0'] ∨ IsDigits digits ∧ digits.head? ≠ some '0')
    (hRest : ∀ c ∈ rest.head?, c.isDigit = false) :
    whole? (digits ++ rest) = some (digits, rest) := by
  rcases h with rfl | ⟨hDigits, hZero⟩
  · cases rest with
    | nil => rfl
    | cons c rest => simp [whole?, hRest c rfl]
  · rw [← digits?_append hDigits hRest]
    cases digits with
    | nil => exact absurd rfl hDigits.1
    | cons c digits =>
      have hc : c ≠ '0' := fun h => hZero (congrArg some h)
      simp [whole?, hc]

theorem fraction?_append {fraction : Option (List Char)} (h : ∀ digits ∈ fraction, IsDigits digits)
    (hRest : ∀ c ∈ rest.head?, c.isDigit = false ∧ c ≠ '.') :
    fraction? (fractionText fraction ++ rest) = some (fraction, rest) := by
  cases fraction with
  | none =>
    cases rest with
    | nil => rfl
    | cons c rest => simp [fractionText, fraction?, (hRest c rfl).2]
  | some digits =>
    have hDigits := digits?_append (h digits rfl) (fun c hc => (hRest c hc).1)
    simp [fractionText, fraction?, hDigits]

theorem power?_append {power : Option (Bool × List Char)} (h : ∀ p ∈ power, IsDigits p.2)
    (hRest : Ends rest) : power? (powerText power ++ rest) = some (power, rest) := by
  cases power with
  | none =>
    cases rest with
    | nil => rfl
    | cons c rest => simp [powerText, power?, (hRest c rfl).2.2.1, (hRest c rfl).2.2.2]
  | some p =>
    obtain ⟨negative, digits⟩ := p
    have hDigits := digits?_append (h _ rfl) (fun c hc => (hRest c hc).1)
    cases negative <;> simp [powerText, power?, hDigits]

theorem ends_powerText (power : Option (Bool × List Char)) (hRest : Ends rest) :
    ∀ c ∈ (powerText power ++ rest).head?, c.isDigit = false ∧ c ≠ '.' := by
  cases power with
  | none => exact fun c hc => ⟨(hRest c hc).1, (hRest c hc).2.1⟩
  | some p => simp [powerText]

theorem ends_fractionText (fraction : Option (List Char))
    (hRest : ∀ c ∈ rest.head?, c.isDigit = false) :
    ∀ c ∈ (fractionText fraction ++ rest).head?, c.isDigit = false := by
  cases fraction with
  | none => exact hRest
  | some digits => simp [fractionText]

theorem WellFormed.isDigits_whole (h : n.WellFormed) : IsDigits n.whole := by
  rcases h.whole with hZero | ⟨hDigits, _⟩
  · simp [hZero, IsDigits]
  · exact hDigits

/-- A numeral begins with a digit or a minus sign, so with none of the other characters. -/
theorem WellFormed.exists_first (h : n.WellFormed) :
    ∃ c cs, n.text = c :: cs ∧ ∀ d : Char, d.isDigit = false → d ≠ '-' → c ≠ d := by
  obtain ⟨hNonempty, hDigits⟩ := h.isDigits_whole
  obtain ⟨c, cs, hWhole⟩ := List.exists_cons_of_ne_nil hNonempty
  unfold text
  rw [hWhole] at hDigits ⊢
  cases n.negative with
  | true => exact ⟨'-', _, rfl, fun d _ hd => hd.symm⟩
  | false =>
    refine ⟨c, _, rfl, ?_⟩
    rintro d hd - rfl
    rw [hDigits c List.mem_cons_self] at hd
    cases hd

theorem read?_text (h : n.WellFormed) (hRest : Ends rest) :
    read? (n.text ++ rest) = some (n, rest) := by
  obtain ⟨negative, whole, fraction, power⟩ := n
  have hPower := power?_append h.power hRest
  have hFraction := fraction?_append h.fraction (ends_powerText power hRest)
  have hWhole := whole?_append h.whole
    (ends_fractionText fraction (fun c hc => (ends_powerText power hRest c hc).1))
  have hSign : ∀ c ∈ whole.head?, c ≠ '-' := by
    intro c hc hMinus
    have hDigit := h.isDigits_whole.2 c (List.mem_of_mem_head? hc)
    rw [hMinus] at hDigit
    cases hDigit
  have hText : text ⟨negative, whole, fraction, power⟩ ++ rest =
      (if negative then ['-'] else []) ++
        (whole ++ (fractionText fraction ++ (powerText power ++ rest))) := by
    simp [text]
  rw [hText]
  cases negative with
  | true => simp [read?, hWhole, hFraction, hPower]
  | false =>
    obtain ⟨c, cs, rfl⟩ := List.exists_cons_of_ne_nil h.isDigits_whole.1
    have hMinus := hSign c rfl
    simp only [List.cons_append] at hWhole
    simp [read?, hMinus, hWhole, hFraction, hPower]

/-! ## The numerals of numbers -/

theorem head_toDigits {n : Nat} (h : n ≠ 0) : (Nat.toDigits 10 n).head? ≠ some '0' := by
  induction n using Nat.strongRecOn with
  | _ n ih =>
    by_cases hn : n < 10
    · rw [Nat.toDigits_of_lt_base hn]
      simpa using h
    · have hFront := ih (n / 10) (by omega) (by omega)
      obtain ⟨c, cs, hDigits⟩ := List.exists_cons_of_ne_nil
        (Nat.toDigits_ne_nil : Nat.toDigits 10 (n / 10) ≠ [])
      rw [Nat.toDigits_of_base_le (by decide) (by omega)]
      rw [hDigits] at hFront ⊢
      exact hFront

theorem isDigits_toDigits (n : Nat) : IsDigits (Nat.toDigits 10 n) :=
  ⟨Nat.toDigits_ne_nil, fun _ hc => Nat.isDigit_of_mem_toDigits (by decide) (by decide) hc⟩

/-- The numeral of a whole number. -/
def ofInt (n : Int) : Numeral :=
  ⟨n < 0, Nat.toDigits 10 n.natAbs, none, none⟩

theorem wellFormed_ofInt (n : Int) : (ofInt n).WellFormed where
  whole := by
    by_cases h : n.natAbs = 0
    · exact .inl (by simp [ofInt, h])
    · exact .inr ⟨isDigits_toDigits _, head_toDigits h⟩
  fraction := by simp [ofInt]
  power := by simp [ofInt]

theorem text_ofInt (n : Int) : (ofInt n).text = (signedDecimal n).toList := by
  cases n with
  | ofNat n => simp [ofInt, text, fractionText, powerText, signedDecimal, decimal]
  | negSucc n => simp [ofInt, text, fractionText, powerText, signedDecimal, decimal]

/-- Digits as the shortest ones are: those of zero, or without a zero in front. -/
def IsNormal (d : DecimalDigits) : Prop :=
  d = ⟨['0'], 0⟩ ∨ IsDigits d.digits ∧ d.digits.head? ≠ some '0'

theorem isNormal_ofNat (n : Nat) (exponent : Int) : IsNormal (.ofNat n exponent) := by
  unfold DecimalDigits.ofNat
  split
  · exact .inl rfl
  · rename_i hn
    right
    have hDigits := isDigits_toDigits n
    have hHead := head_toDigits hn
    have hText : (decimal n).toList = Nat.toDigits 10 n := by simp [decimal]
    simp only [hText]
    generalize Nat.toDigits 10 n = digits at hDigits hHead
    -- The first digit is not zero, so it is not among the zeros that are dropped.
    have hZeros : (digits.reverse.takeWhile (· == '0')).length < digits.length := by
      refine Nat.lt_of_not_le (fun hAll => hHead ?_)
      obtain ⟨c, cs, rfl⟩ := List.exists_cons_of_ne_nil hDigits.1
      have hSame := (List.takeWhile_prefix (l := (c :: cs).reverse) (· == '0')).eq_of_length_le
        (by simpa using hAll)
      have hc : c ∈ (c :: cs).reverse.takeWhile (· == '0') := by
        rw [hSame]
        simp
      exact congrArg some (beq_iff_eq.1 (List.all_eq_true.1 List.all_takeWhile c hc))
    refine ⟨⟨?_, fun d hd => hDigits.2 d (List.mem_of_mem_take hd)⟩, ?_⟩
    · rw [ne_eq, List.take_eq_nil_iff, not_or]
      exact ⟨by omega, hDigits.1⟩
    · rwa [List.head?_take, if_neg (by omega)]

theorem isNormal_shortest (x : Binary64) : IsNormal x.shortest := by
  unfold Binary64.shortest
  split
  · exact isNormal_ofNat 0 0
  · simp only
    generalize hFound : (List.range 17).findSome? _ = found
    cases found with
    | none => exact isNormal_ofNat _ _
    | some d =>
      obtain ⟨n, _, hd⟩ := List.exists_of_findSome?_eq_some hFound
      obtain ⟨digits, _, rfl⟩ := Option.map_eq_some_iff.1 hd
      exact isNormal_ofNat _ _

theorem IsNormal.isDigits {d : DecimalDigits} (h : IsNormal d) : IsDigits d.digits := by
  rcases h with rfl | ⟨hDigits, _⟩
  · simp [IsDigits]
  · exact hDigits

theorem isDigit_of_mem_zeros {n : Nat} {c : Char} (h : c ∈ DecimalDigits.zeros n) :
    c.isDigit = true := by
  rw [List.eq_of_mem_replicate h]
  rfl

/-- The numeral with a point at its place, and with a digit on both sides of it. -/
def positional (negative : Bool) (d : DecimalDigits) : Numeral :=
  if 0 ≤ d.exponent then
    ⟨negative, d.digits ++ DecimalDigits.zeros d.exponent.toNat, some ['0'], none⟩
  else if 0 ≤ d.leading then
    let whole := (d.leading + 1).toNat
    ⟨negative, d.digits.take whole, some (d.digits.drop whole), none⟩
  else ⟨negative, ['0'], some (DecimalDigits.zeros (-d.leading - 1).toNat ++ d.digits), none⟩

theorem wellFormed_positional (negative : Bool) {d : DecimalDigits} (h : IsNormal d) :
    (positional negative d).WellFormed := by
  have hDigits := h.isDigits
  unfold positional
  split
  · refine ⟨?_, by simp [IsDigits], by simp⟩
    rcases h with rfl | ⟨_, hHead⟩
    · exact .inl rfl
    · obtain ⟨c, cs, hc⟩ := List.exists_cons_of_ne_nil hDigits.1
      refine .inr ⟨⟨by simp [hc], fun c hc => ?_⟩, ?_⟩
      · exact (List.mem_append.1 hc).elim (hDigits.2 c) isDigit_of_mem_zeros
      · rw [hc] at hHead ⊢
        exact hHead
  · rename_i hExponent
    -- Zero has no digits behind the point, so the first digit is another one.
    have hHead : d.digits.head? ≠ some '0' := by
      rcases h with rfl | ⟨_, hHead⟩
      · exact absurd (Int.le_refl 0) hExponent
      · exact hHead
    split
    · rename_i hLeading
      unfold DecimalDigits.leading at hLeading ⊢
      refine ⟨.inr ⟨⟨?_, fun c hc => hDigits.2 c (List.mem_of_mem_take hc)⟩, ?_⟩, ?_, by simp⟩
      · rw [ne_eq, List.take_eq_nil_iff, not_or]
        exact ⟨by omega, hDigits.1⟩
      · rwa [List.head?_take, if_neg (by omega)]
      · intro digits hd
        obtain rfl := Option.mem_some.1 hd
        refine ⟨?_, fun c hc => hDigits.2 c (List.mem_of_mem_drop hc)⟩
        rw [ne_eq, List.drop_eq_nil_iff]
        omega
    · refine ⟨.inl rfl, ?_, by simp⟩
      intro digits hd
      obtain rfl := Option.mem_some.1 hd
      refine ⟨by simp [hDigits.1], fun c hc => ?_⟩
      exact (List.mem_append.1 hc).elim isDigit_of_mem_zeros (hDigits.2 c)

theorem text_positional (negative : Bool) (d : DecimalDigits) :
    (positional negative d).text = (if negative then ['-'] else []) ++
      (d.positional ++ if 0 ≤ d.exponent then ['.', '0'] else []) := by
  unfold positional DecimalDigits.positional
  split
  · simp [text, fractionText, powerText]
  · split <;> simp [text, fractionText, powerText]

/-- The numeral with one digit before the point and a power of ten. -/
def scientific (negative : Bool) (d : DecimalDigits) : Numeral :=
  ⟨negative, d.digits.take 1, if d.digits.tail = [] then none else some d.digits.tail,
    some (d.leading < 0, Nat.toDigits 10 d.leading.natAbs)⟩

theorem wellFormed_scientific (negative : Bool) {d : DecimalDigits} (h : IsNormal d) :
    (scientific negative d).WellFormed := by
  have hDigits := h.isDigits
  refine ⟨?_, ?_, ?_⟩
  · rcases h with rfl | ⟨_, hHead⟩
    · exact .inl rfl
    · refine .inr ⟨⟨?_, fun c hc => hDigits.2 c (List.mem_of_mem_take hc)⟩, ?_⟩
      · simpa [scientific] using hDigits.1
      · simpa [scientific, List.head?_take] using hHead
  · intro digits hd
    simp only [scientific] at hd
    split at hd
    · cases hd
    · rename_i hTail
      obtain rfl := Option.mem_some.1 hd
      exact ⟨hTail, fun c hc => hDigits.2 c (List.mem_of_mem_tail hc)⟩
  · intro p hp
    obtain rfl := Option.mem_some.1 hp
    exact isDigits_toDigits _

/-- The numeral of a number of the double format: with a point at its place, or with a power of ten
if its first digit is too far from the point. -/
def ofDouble (x : Binary64) : Numeral :=
  if -5 ≤ x.shortest.leading ∧ x.shortest.leading < 16 then positional x.negative x.shortest
  else scientific x.negative x.shortest

theorem wellFormed_ofDouble (x : Binary64) : (ofDouble x).WellFormed := by
  unfold ofDouble
  split
  · exact wellFormed_positional _ (isNormal_shortest x)
  · exact wellFormed_scientific _ (isNormal_shortest x)

theorem text_ofDouble (x : Binary64) : (ofDouble x).text = (renderDouble x).toList := by
  have hSign : (if x.negative then "-" else "").toList = if x.negative then ['-'] else [] := by
    cases x.negative <;> rfl
  unfold ofDouble renderDouble
  simp only [String.toList_append, hSign, String.toList_ofList]
  split
  · rw [text_positional]
  · have hDigits := (isNormal_shortest x).isDigits
    generalize x.shortest = d at hDigits ⊢
    obtain ⟨c, cs, hc⟩ := List.exists_cons_of_ne_nil hDigits.1
    have hPower : powerText (some (decide (d.leading < 0), Nat.toDigits 10 d.leading.natAbs)) =
        'e' :: if 0 ≤ d.leading then '+' :: (decimal d.leading.toNat).toList
          else '-' :: (decimal (-d.leading).toNat).toList := by
      by_cases hSign : 0 ≤ d.leading
      · have hAbs : d.leading.natAbs = d.leading.toNat := by omega
        simp [powerText, hSign, Int.not_lt.2 hSign, hAbs, decimal]
      · have hAbs : d.leading.natAbs = (-d.leading).toNat := by omega
        simp [powerText, hSign, Int.not_le.1 hSign, hAbs, decimal]
    simp only [scientific, text, hPower, hc]
    cases cs <;> simp [fractionText]

end Numeral

/-! ## Strings -/

theorem hexValue?_hexDigit : ∀ n < 16, hexValue? (hexDigit n) = some n := by
  decide

theorem unicodeEscape?_control {c : Char} (h : c.toNat < 32) (rest : List Char) :
    unicodeEscape? ('0' :: '0' :: hexDigit (c.toNat / 16) :: hexDigit (c.toNat % 16) :: rest) =
      some (c, rest) := by
  have hHigh := hexValue?_hexDigit (c.toNat / 16) (by omega)
  have hLow := hexValue?_hexDigit (c.toNat % 16) (by omega)
  have hZero : hexValue? '0' = some 0 := rfl
  have hCode : c.toNat / 16 * 16 + c.toNat % 16 = c.toNat := by omega
  have hUnit : ¬ (0xD800 ≤ c.toNat ∧ c.toNat < 0xDC00) := by omega
  have hHalf : ¬ (0xDC00 ≤ c.toNat ∧ c.toNat < 0xE000) := by omega
  simp [unicodeEscape?, hexUnit?, hHigh, hLow, hZero, hCode, hUnit, hHalf, Char.ofNat_toNat]

theorem stringBody?_escape {cs rest : List Char} {c : Char} (h : escape? cs = some (c, rest))
    (fuel : Nat) : stringBody? (fuel + 1) ('\\' :: cs) =
      (stringBody? fuel rest).map (fun (body, cs) => (c :: body, cs)) := by
  rw [stringBody?, if_neg (by decide), if_pos (by decide), h]
  cases hBody : stringBody? fuel rest <;> simp [hBody]

/-- A character is read back, whether it is escaped or not. -/
theorem stringBody?_escapeChar (fuel : Nat) (c : Char) (rest : List Char) :
    stringBody? (fuel + 1) (escapeChar c ++ rest) =
      (stringBody? fuel rest).map (fun (body, cs) => (c :: body, cs)) := by
  unfold escapeChar
  split
  case h_8 =>
    rename_i hQuote hBackslash _ _ _ _ _
    split
    · rename_i hControl
      have hEscape : escape? ('u' :: '0' :: '0' :: hexDigit (c.toNat / 16) ::
          hexDigit (c.toNat % 16) :: rest) = some (c, rest) := unicodeEscape?_control hControl rest
      exact stringBody?_escape hEscape fuel
    · rename_i hControl
      rw [List.singleton_append, stringBody?, if_neg (by simpa using hQuote),
        if_neg (by simpa using hBackslash), if_neg hControl]
      cases stringBody? fuel rest <;> rfl
  all_goals exact stringBody?_escape rfl fuel

theorem stringBody?_escaped {fuel : Nat} {text : List Char} (hFuel : text.length < fuel)
    (rest : List Char) :
    stringBody? fuel (text.flatMap escapeChar ++ '"' :: rest) = some (text, rest) := by
  induction text generalizing fuel with
  | nil =>
    obtain ⟨fuel, rfl⟩ := Nat.exists_eq_add_of_lt hFuel
    simp [stringBody?]
  | cons c text ih =>
    obtain ⟨fuel, rfl⟩ := Nat.exists_eq_add_of_lt hFuel
    rw [List.flatMap_cons, List.append_assoc, stringBody?_escapeChar, ih (by simp; omega)]
    rfl

theorem length_escapeChar (c : Char) : 1 ≤ (escapeChar c).length := by
  unfold escapeChar
  split
  case h_8 => split <;> simp
  all_goals simp

theorem string?_renderString (s : String) (rest : List Char) :
    ∃ cs, (renderString s).toList ++ rest = '"' :: cs ∧ string? cs = some (s, rest) := by
  refine ⟨s.toList.flatMap escapeChar ++ '"' :: rest, by simp [renderString], ?_⟩
  have hLength := length_le_length_flatMap length_escapeChar s.toList
  unfold string?
  rw [stringBody?_escaped (by simp only [List.length_append, List.length_cons]; omega)]
  simp

/-! ## Values -/

mutual

/-- How many arrays and objects stand within one another. -/
def nesting : JsonValue → Nat
  | array items => nestingItems items + 1
  | object fields => nestingFields fields + 1
  | _ => 0

def nestingItems : List JsonValue → Nat
  | [] => 0
  | v :: rest => max v.nesting (nestingItems rest)

def nestingFields : List (String × JsonValue) → Nat
  | [] => 0
  | (_, v) :: rest => max v.nesting (nestingFields rest)

end

mutual

/-- What the text of a value is read as: the value with sorted fields, in which each number is what
`number` makes of its numeral. -/
def asRead (number : Numeral → Option JsonValue) : JsonValue → Option JsonValue
  | null => some null
  | bool b => some (bool b)
  | integer n => number (.ofInt n)
  | double x => number (.ofDouble x)
  | string s => some (string s)
  | array items => (itemsAsRead number items).map array
  | object fields => (fieldsAsRead number fields).map (fun read => object (sortFields read))

def itemsAsRead (number : Numeral → Option JsonValue) : List JsonValue → Option (List JsonValue)
  | [] => some []
  | v :: rest => (asRead number v).bind (fun v => (itemsAsRead number rest).map (v :: ·))

def fieldsAsRead (number : Numeral → Option JsonValue) :
    List (String × JsonValue) → Option (List (String × JsonValue))
  | [] => some []
  | (key, v) :: rest =>
    (asRead number v).bind (fun v => (fieldsAsRead number rest).map ((key, v) :: ·))

end

theorem itemsAsRead_cons (number : Numeral → Option JsonValue) (v : JsonValue)
    (items : List JsonValue) : itemsAsRead number (v :: items) =
      (v.asRead number).bind (fun v => (itemsAsRead number items).map (v :: ·)) := by
  rw [itemsAsRead]

theorem fieldsAsRead_cons (number : Numeral → Option JsonValue) (f : String × JsonValue)
    (fields : List (String × JsonValue)) : fieldsAsRead number (f :: fields) =
      (f.2.asRead number).bind (fun v => (fieldsAsRead number fields).map ((f.1, v) :: ·)) := by
  rw [fieldsAsRead]

/-- A value is a leaf, or is made of values. -/
theorem inductionOn {P : JsonValue → Prop} (v : JsonValue) (null : P null)
    (bool : ∀ b, P (bool b)) (integer : ∀ n, P (integer n)) (double : ∀ x, P (double x))
    (string : ∀ s, P (string s)) (array : ∀ items, (∀ v ∈ items, P v) → P (array items))
    (object : ∀ fields, (∀ f ∈ fields, P f.2) → P (object fields)) : P v :=
  JsonValue.rec (motive_1 := P) (motive_2 := fun items => ∀ v ∈ items, P v)
    (motive_3 := fun fields => ∀ f ∈ fields, P f.2) (motive_4 := fun f => P f.2)
    null bool integer double string array object (by simp)
    (fun v items hv hItems => List.forall_mem_cons.2 ⟨hv, hItems⟩) (by simp)
    (fun f fields hf hFields => List.forall_mem_cons.2 ⟨hf, hFields⟩) (fun _ _ h => h) v

theorem nesting_le_of_mem {items : List JsonValue} {v : JsonValue} (h : v ∈ items) :
    v.nesting ≤ nestingItems items := by
  induction items with
  | nil => cases h
  | cons w items ih =>
    rw [nestingItems]
    rcases List.mem_cons.1 h with rfl | h
    · omega
    · have := ih h
      omega

theorem nesting_le_of_mem_fields {fields : List (String × JsonValue)} {f : String × JsonValue}
    (h : f ∈ fields) : f.2.nesting ≤ nestingFields fields := by
  induction fields with
  | nil => cases h
  | cons g fields ih =>
    rw [nestingFields]
    rcases List.mem_cons.1 h with rfl | h
    · omega
    · have := ih h
      omega

/-! ## Blanks between values -/

theorem skipSpace_newLine (depth : Nat) (cs : List Char) :
    skipSpace ((newLine depth).toList ++ cs) = skipSpace cs := by
  unfold skipSpace newLine
  rw [String.toList_ofList, List.dropWhile_append_of_pos]
  intro c hc
  rcases List.mem_cons.1 hc with rfl | hc
  · rfl
  · rw [List.eq_of_mem_replicate hc]
    rfl

theorem skipSpace_cons {c : Char} (h : isSpace c = false) (cs : List Char) :
    skipSpace (c :: cs) = c :: cs := by
  simp [skipSpace, h]

theorem isSpace_of_first {c : Char} (h : ∀ d : Char, d.isDigit = false → d ≠ '-' → c ≠ d) :
    isSpace c = false := by
  simp [isSpace, h ' ' rfl (by decide), h '\n' rfl (by decide), h '\t' rfl (by decide),
    h '\r' rfl (by decide)]

variable {number : Numeral → Option JsonValue} {depth : Nat} {cs rest : List Char}

theorem value?_skipSpace (h : skipSpace cs = skipSpace rest) :
    value? number depth cs = value? number depth rest := by
  cases depth with
  | zero => rfl
  | succ depth => rw [value?, value?, h]

theorem items?_newLine (fuel k : Nat) (cs : List Char) :
    items? (value? number depth) fuel ((newLine k).toList ++ cs) =
      items? (value? number depth) fuel cs := by
  cases fuel with
  | zero => rfl
  | succ fuel => rw [items?, items?, value?_skipSpace (skipSpace_newLine k cs)]

theorem fields?_newLine (fuel k : Nat) (cs : List Char) :
    fields? (value? number depth) fuel ((newLine k).toList ++ cs) =
      fields? (value? number depth) fuel cs := by
  cases fuel with
  | zero => rfl
  | succ fuel => rw [fields?, fields?, skipSpace_newLine k cs]

/-- Parts between brackets, the first of which is told apart. -/
theorem toList_bracket (opening closing : String) (k : Nat) (part : String) (parts : List String) :
    (bracket opening closing k (part :: parts)).toList = opening.toList ++
      ((newLine (k + 1)).toList ++ (part.toList ++
        (parts.flatMap (fun p => ',' :: ((newLine (k + 1)).toList ++ p.toList)) ++
          ((newLine k).toList ++ closing.toList)))) := by
  have hJoin : ∀ part, (",".intercalate ((part :: parts).map (newLine (k + 1) ++ ·))).toList =
      (newLine (k + 1)).toList ++ (part.toList ++
        parts.flatMap (fun p => ',' :: ((newLine (k + 1)).toList ++ p.toList))) := by
    induction parts with
    | nil => simp
    | cons next parts ih =>
      intro part
      rw [List.map_cons, List.map_cons, String.intercalate_cons_cons, ← List.map_cons,
        String.toList_append, ih next]
      simp
  have hBracket : bracket opening closing k (part :: parts) =
      opening ++ ",".intercalate ((part :: parts).map (newLine (k + 1) ++ ·)) ++ newLine k ++
        closing := rfl
  rw [hBracket, String.toList_append, String.toList_append, String.toList_append, hJoin]
  simp only [List.append_assoc]

theorem renderItems_eq_map (k : Nat) (items : List JsonValue) :
    renderItems k items = items.map (renderAt k) := by
  induction items with
  | nil => rfl
  | cons v items ih => rw [renderItems, ih, List.map_cons]

theorem renderFields_eq_map (k : Nat) (fields : List (String × JsonValue)) :
    renderFields k fields =
      fields.map (fun f => renderString f.1 ++ ": " ++ renderAt k f.2) := by
  induction fields with
  | nil => rfl
  | cons f fields ih => rw [renderFields, ih, List.map_cons]

/-! ## Reading back -/

theorem value?_numeral {n : Numeral} (h : n.WellFormed) (hRest : Numeral.Ends rest) :
    value? number (depth + 1) (n.text ++ rest) = (number n).map (·, rest) := by
  have hRead := Numeral.read?_text h hRest
  obtain ⟨c, cs, hText, hFirst⟩ := h.exists_first
  rw [hText] at hRead ⊢
  rw [List.cons_append, value?, skipSpace_cons (isSpace_of_first hFirst)]
  -- No other value begins as a numeral does.
  split
  case h_1 hNil => cases hNil
  case h_8 =>
    rw [← List.cons_append, hRead]
    cases hNumber : number n <;> simp [hNumber]
  all_goals
    rename_i hText
    obtain ⟨rfl, -⟩ := List.cons.inj hText
    exact absurd rfl (hFirst _ rfl (by decide))

theorem head_bracket {opening : String} {c : Char} (h : opening.toList.head? = some c)
    (closing : String) (k : Nat) (parts : List String) :
    (bracket opening closing k parts).toList.head? = some c := by
  cases parts with
  | nil => simp [bracket, h]
  | cons part parts => rw [toList_bracket, List.head?_append, h, Option.some_or]

/-- The text of a value begins with no blank, and closes no array. -/
theorem head_renderAt (k : Nat) (v : JsonValue) :
    ∃ c, (renderAt k v).toList.head? = some c ∧ isSpace c = false ∧ c ≠ ']' := by
  have hNumeral : ∀ {n : Numeral} {text : String}, n.WellFormed → n.text = text.toList →
      ∃ c, text.toList.head? = some c ∧ isSpace c = false ∧ c ≠ ']' := by
    intro n text hn hText
    obtain ⟨c, cs, hFirst, hc⟩ := hn.exists_first
    rw [← hText, hFirst]
    exact ⟨c, rfl, isSpace_of_first hc, hc ']' rfl (by decide)⟩
  cases v with
  | null => exact ⟨'n', by simp [renderAt], rfl, by decide⟩
  | bool b =>
    cases b with
    | true => exact ⟨'t', by simp [renderAt], rfl, by decide⟩
    | false => exact ⟨'f', by simp [renderAt], rfl, by decide⟩
  | integer n => exact hNumeral (Numeral.wellFormed_ofInt n) (Numeral.text_ofInt n)
  | double x => exact hNumeral (Numeral.wellFormed_ofDouble x) (Numeral.text_ofDouble x)
  | string s => exact ⟨'"', by simp [renderAt, renderString], rfl, by decide⟩
  | array items => exact ⟨'[', head_bracket (by simp) _ _ _, rfl, by decide⟩
  | object fields => exact ⟨'\x7b', head_bracket (by simp) _ _ _, rfl, by decide⟩

/-- The text of a value is read as it should be, whatever follows it. -/
def ReadsBack (number : Numeral → Option JsonValue) (depth k : Nat) (v : JsonValue) : Prop :=
  ∀ rest, Numeral.Ends rest →
    value? number depth ((renderAt k v).toList ++ rest) = (v.asRead number).map (·, rest)

theorem ends_newLine (k : Nat) (cs : List Char) : Numeral.Ends ((newLine k).toList ++ cs) := by
  simp [Numeral.Ends, newLine]

theorem ends_comma (cs : List Char) : Numeral.Ends (',' :: cs) := by
  simp [Numeral.Ends]

/-- The items of an array behind the first one. -/
def moreItems (k : Nat) (items : List JsonValue) : List Char :=
  items.flatMap (fun v => ',' :: ((newLine k).toList ++ (renderAt k v).toList))

theorem items?_renderItems {k fuel : Nat} {v : JsonValue} {items : List JsonValue}
    (h : ∀ w ∈ v :: items, ReadsBack number depth k w) (hFuel : items.length < fuel) (j : Nat)
    (rest : List Char) :
    items? (value? number depth) fuel ((renderAt k v).toList ++
        (moreItems k items ++ ((newLine j).toList ++ ']' :: rest))) =
      (itemsAsRead number (v :: items)).map (·, rest) := by
  induction items generalizing v fuel with
  | nil =>
    obtain ⟨fuel, rfl⟩ := Nat.exists_eq_add_one.2 hFuel
    have hFirst := h v List.mem_cons_self _ (ends_newLine j (']' :: rest))
    have hEnd : skipSpace ((newLine j).toList ++ ']' :: rest) = ']' :: rest := by
      rw [skipSpace_newLine]
      rfl
    rw [items?, itemsAsRead_cons]
    simp only [moreItems, List.flatMap_nil, List.nil_append, hFirst]
    cases v.asRead number with
    | none => rfl
    | some w => simp [hEnd, itemsAsRead]
  | cons w items ih =>
    obtain ⟨hFirst, hItems⟩ := List.forall_mem_cons.1 h
    obtain ⟨fuel, rfl⟩ := Nat.exists_eq_add_one.2 (Nat.zero_lt_of_lt hFuel)
    have hRest := ih hItems (Nat.lt_of_succ_lt_succ hFuel)
    have hMore : moreItems k (w :: items) ++ ((newLine j).toList ++ ']' :: rest) =
        ',' :: ((newLine k).toList ++ ((renderAt k w).toList ++
          (moreItems k items ++ ((newLine j).toList ++ ']' :: rest)))) := by
      simp [moreItems]
    have hComma : ∀ cs, skipSpace (',' :: cs) = ',' :: cs := skipSpace_cons rfl
    rw [hMore, items?]
    simp only [hFirst _ (ends_comma _)]
    rw [itemsAsRead_cons number v]
    cases v.asRead number with
    | none => rfl
    | some v' =>
      simp only [Option.map_some, Option.bind_eq_bind, Option.bind_some, hComma, items?_newLine,
        hRest]
      cases itemsAsRead number (w :: items) <;> rfl

/-- A field of an object. -/
def fieldText (k : Nat) (f : String × JsonValue) : List Char :=
  (renderString f.1).toList ++ (':' :: ' ' :: (renderAt k f.2).toList)

/-- The fields of an object behind the first one. -/
def moreFields (k : Nat) (fields : List (String × JsonValue)) : List Char :=
  fields.flatMap (fun f => ',' :: ((newLine k).toList ++ fieldText k f))

/-- A field begins with its key, and its value stands behind a colon and a blank. -/
theorem exists_key {k : Nat} {f : String × JsonValue} (hf : ReadsBack number depth k f.2)
    (hcs : Numeral.Ends cs) :
    ∃ text value, fieldText k f ++ cs = '"' :: text ∧ string? text = some (f.1, ':' :: value) ∧
      value? number depth value = (f.2.asRead number).map (·, cs) := by
  obtain ⟨text, hText, hKey⟩ :=
    string?_renderString f.1 (':' :: ' ' :: ((renderAt k f.2).toList ++ cs))
  refine ⟨text, _, ?_, hKey, ?_⟩
  · rw [← hText]
    simp [fieldText]
  · rw [← hf cs hcs]
    exact value?_skipSpace rfl

theorem fields?_last {k : Nat} {f : String × JsonValue} (hf : ReadsBack number depth k f.2)
    (hcs : Numeral.Ends cs) (hEnd : skipSpace cs = '\x7d' :: rest) (fuel : Nat) :
    fields? (value? number depth) (fuel + 1) (fieldText k f ++ cs) =
      (f.2.asRead number).map (fun v => ([(f.1, v)], rest)) := by
  obtain ⟨text, value, hText, hKey, hValue⟩ := exists_key hf hcs
  have hColon : skipSpace (':' :: value) = ':' :: value := skipSpace_cons rfl value
  rw [hText, fields?, skipSpace_cons rfl]
  simp only [hKey, Option.bind_eq_bind, Option.bind_some, hColon, hValue]
  cases f.2.asRead number with
  | none => rfl
  | some v => simp [hEnd]

theorem fields?_next {k : Nat} {f : String × JsonValue} (hf : ReadsBack number depth k f.2)
    (hcs : Numeral.Ends cs) (hNext : skipSpace cs = ',' :: rest) (fuel : Nat) :
    fields? (value? number depth) (fuel + 1) (fieldText k f ++ cs) =
      (f.2.asRead number).bind (fun v => (fields? (value? number depth) fuel rest).map
        (fun p => ((f.1, v) :: p.1, p.2))) := by
  obtain ⟨text, value, hText, hKey, hValue⟩ := exists_key hf hcs
  have hColon : skipSpace (':' :: value) = ':' :: value := skipSpace_cons rfl value
  rw [hText, fields?, skipSpace_cons rfl]
  simp only [hKey, Option.bind_eq_bind, Option.bind_some, hColon, hValue]
  cases f.2.asRead number with
  | none => rfl
  | some v =>
    simp only [Option.map_some, Option.bind_some, hNext]
    cases fields? (value? number depth) fuel rest <;> rfl

theorem fields?_renderFields {k fuel : Nat} {f : String × JsonValue}
    {fields : List (String × JsonValue)} (h : ∀ g ∈ f :: fields, ReadsBack number depth k g.2)
    (hFuel : fields.length < fuel) (j : Nat) (rest : List Char) :
    fields? (value? number depth) fuel (fieldText k f ++
        (moreFields k fields ++ ((newLine j).toList ++ '\x7d' :: rest))) =
      (fieldsAsRead number (f :: fields)).map (·, rest) := by
  induction fields generalizing f fuel with
  | nil =>
    obtain ⟨fuel, rfl⟩ := Nat.exists_eq_add_one.2 hFuel
    have hEnd : skipSpace ((newLine j).toList ++ '\x7d' :: rest) = '\x7d' :: rest := by
      rw [skipSpace_newLine]
      rfl
    rw [moreFields, List.flatMap_nil, List.nil_append,
      fields?_last (h f List.mem_cons_self) (ends_newLine j _) hEnd, fieldsAsRead_cons]
    cases f.2.asRead number with
    | none => rfl
    | some v => simp [fieldsAsRead]
  | cons g fields ih =>
    obtain ⟨hFirst, hFields⟩ := List.forall_mem_cons.1 h
    obtain ⟨fuel, rfl⟩ := Nat.exists_eq_add_one.2 (Nat.zero_lt_of_lt hFuel)
    have hRest := ih hFields (Nat.lt_of_succ_lt_succ hFuel)
    have hMore : moreFields k (g :: fields) ++ ((newLine j).toList ++ '\x7d' :: rest) =
        ',' :: ((newLine k).toList ++ (fieldText k g ++
          (moreFields k fields ++ ((newLine j).toList ++ '\x7d' :: rest)))) := by
      simp [moreFields]
    rw [hMore, fields?_next hFirst (ends_comma _) (skipSpace_cons rfl _), fields?_newLine, hRest,
      fieldsAsRead_cons number f]
    cases f.2.asRead number with
    | none => rfl
    | some v => cases fieldsAsRead number (g :: fields) <;> rfl

theorem readsBack_array {k : Nat} {items : List JsonValue}
    (h : ∀ v ∈ items, ReadsBack number (depth + 1) (k + 1) v) :
    ReadsBack number (depth + 2) k (array items) := by
  intro rest _
  rw [renderAt, renderItems_eq_map]
  cases items with
  | nil =>
    have hText : (bracket "[" "]" k ([].map (renderAt (k + 1)))).toList ++ rest =
        '[' :: ']' :: rest := by simp [bracket]
    have hClose : skipSpace (']' :: rest) = ']' :: rest := skipSpace_cons rfl rest
    rw [hText, value?, skipSpace_cons rfl]
    simp [hClose, asRead, itemsAsRead]
  | cons v items =>
    have hText : (bracket "[" "]" k ((v :: items).map (renderAt (k + 1)))).toList ++ rest =
        '[' :: ((newLine (k + 1)).toList ++ ((renderAt (k + 1) v).toList ++
          (moreItems (k + 1) items ++ ((newLine k).toList ++ ']' :: rest)))) := by
      rw [List.map_cons, toList_bracket]
      simp [moreItems, List.flatMap_map]
    have hFuel : items.length < ((renderAt (k + 1) v).toList ++
        (moreItems (k + 1) items ++ ((newLine k).toList ++ ']' :: rest))).length := by
      have := length_le_length_flatMap
        (f := fun v => ',' :: ((newLine (k + 1)).toList ++ (renderAt (k + 1) v).toList))
        (by simp) items
      simp only [moreItems, List.length_append, List.length_cons] at this ⊢
      omega
    have hItems := items?_renderItems h hFuel k rest
    obtain ⟨c, hHead, hSpace, hClose⟩ := head_renderAt (k + 1) v
    obtain ⟨cs, hFirst⟩ := List.head?_eq_some_iff.1 hHead
    rw [hText, value?, skipSpace_cons rfl]
    simp only [skipSpace_newLine]
    rw [hFirst, List.cons_append] at hItems ⊢
    rw [if_neg (by omega), skipSpace_cons hSpace]
    split
    · rename_i hClosed
      exact absurd (List.cons.inj hClosed).1 hClose
    · rw [hItems, asRead]
      cases itemsAsRead number (v :: items) <;> rfl

theorem readsBack_object {k : Nat} {fields : List (String × JsonValue)}
    (h : ∀ f ∈ fields, ReadsBack number (depth + 1) (k + 1) f.2) :
    ReadsBack number (depth + 2) k (object fields) := by
  intro rest _
  rw [renderAt, renderFields_eq_map]
  cases fields with
  | nil =>
    have hText : (bracket "\x7b" "\x7d" k ([].map (fun f : String × JsonValue =>
        renderString f.1 ++ ": " ++ renderAt (k + 1) f.2))).toList ++ rest =
        '\x7b' :: '\x7d' :: rest := by simp [bracket]
    have hClose : skipSpace ('\x7d' :: rest) = '\x7d' :: rest := skipSpace_cons rfl rest
    rw [hText, value?, skipSpace_cons rfl]
    simp [hClose, asRead, fieldsAsRead, sortFields]
  | cons f fields =>
    have hText : (bracket "\x7b" "\x7d" k ((f :: fields).map (fun f =>
        renderString f.1 ++ ": " ++ renderAt (k + 1) f.2))).toList ++ rest =
        '\x7b' :: ((newLine (k + 1)).toList ++ (fieldText (k + 1) f ++
          (moreFields (k + 1) fields ++ ((newLine k).toList ++ '\x7d' :: rest)))) := by
      rw [List.map_cons, toList_bracket]
      simp [moreFields, fieldText, List.flatMap_map]
    have hFuel : fields.length < (fieldText (k + 1) f ++
        (moreFields (k + 1) fields ++ ((newLine k).toList ++ '\x7d' :: rest))).length := by
      have := length_le_length_flatMap
        (f := fun f => ',' :: ((newLine (k + 1)).toList ++ fieldText (k + 1) f)) (by simp) fields
      simp only [moreFields, List.length_append, List.length_cons] at this ⊢
      omega
    have hFields := fields?_renderFields h hFuel k rest
    obtain ⟨cs, hFirst, -⟩ :=
      string?_renderString f.1 (':' :: ' ' :: (renderAt (k + 1) f.2).toList)
    rw [← fieldText] at hFirst
    rw [hText, value?, skipSpace_cons rfl]
    simp only [skipSpace_newLine]
    rw [hFirst, List.cons_append] at hFields ⊢
    rw [if_neg (by omega), skipSpace_cons rfl]
    split
    · rename_i hClosed
      exact absurd (List.cons.inj hClosed).1 (by decide)
    · rw [hFields, asRead]
      cases fieldsAsRead number (f :: fields) <;> rfl

/-- The text of a value is read as the value, if it is not nested too deeply to be read. -/
theorem readsBack (number : Numeral → Option JsonValue) {v : JsonValue} {depth : Nat}
    (h : v.nesting < depth) (k : Nat) : ReadsBack number depth k v := by
  obtain ⟨depth, rfl⟩ := Nat.exists_eq_add_one.2 (Nat.zero_lt_of_lt h)
  induction v using inductionOn generalizing depth k with
  | null =>
    intro rest _
    simp [renderAt, value?, skipSpace, isSpace, word?, asRead]
  | bool b =>
    intro rest _
    cases b <;> simp [renderAt, value?, skipSpace, isSpace, word?, asRead]
  | integer n =>
    intro rest hRest
    rw [renderAt, ← Numeral.text_ofInt, value?_numeral (Numeral.wellFormed_ofInt n) hRest, asRead]
  | double x =>
    intro rest hRest
    rw [renderAt, ← Numeral.text_ofDouble, value?_numeral (Numeral.wellFormed_ofDouble x) hRest,
      asRead]
  | string s =>
    intro rest _
    obtain ⟨cs, hText, hString⟩ := string?_renderString s rest
    rw [renderAt, hText, value?, skipSpace_cons rfl]
    simp [hString, asRead]
  | array items ih =>
    rw [nesting] at h
    obtain ⟨depth, rfl⟩ := Nat.exists_eq_add_one.2 (Nat.zero_lt_of_lt (Nat.lt_of_succ_lt_succ h))
    refine readsBack_array (fun v hv => ih v hv _ depth ?_)
    have := nesting_le_of_mem hv
    omega
  | object fields ih =>
    rw [nesting] at h
    obtain ⟨depth, rfl⟩ := Nat.exists_eq_add_one.2 (Nat.zero_lt_of_lt (Nat.lt_of_succ_lt_succ h))
    refine readsBack_object (fun f hf => ih f hf _ depth ?_)
    have := nesting_le_of_mem_fields hf
    omega

/-- Reading undoes writing, with blanks at the end of the text or without. -/
theorem readWith?_render (number : Numeral → Option JsonValue) {v : JsonValue}
    (h : v.nesting < depth) {ending : String} (hEnding : skipSpace ending.toList = []) :
    readWith? number depth (v.render ++ ending) = v.asRead number := by
  have hEnds : Numeral.Ends ending.toList := by
    intro c hc
    have hSpace := List.dropWhile_eq_nil_iff.1 hEnding c (List.mem_of_mem_head? hc)
    simp only [isSpace, Bool.or_eq_true, beq_iff_eq] at hSpace
    rcases hSpace with ((rfl | rfl) | rfl) | rfl <;> decide
  unfold readWith? render
  rw [String.toList_append, readsBack number h 0 _ hEnds]
  cases v.asRead number <;> simp [hEnding]

theorem read?_render {v : JsonValue} (h : v.nesting < maxDepth) :
    read? v.render = v.asRead Numeral.toValue? := by
  have hText : v.render ++ "" = v.render := String.append_empty
  rw [read?, ← hText, readWith?_render Numeral.toValue? h rfl]

/-- Whole numbers of 64 bits, with or without a sign, come back as they are. -/
theorem asRead_integer {n : Int} (hMin : minSigned ≤ n) (hMax : n ≤ maxUnsigned) :
    (integer n).asRead Numeral.toValue? = some (integer n) := by
  have hWhole : ofDigits (Nat.toDigits 10 n.natAbs) = n.natAbs := Nat.ofDigitChars_ten_toDigits
  rw [asRead, Numeral.ofInt, Numeral.toValue?, hWhole]
  by_cases hSign : n < 0
  · have hAbs : -(n.natAbs : Int) = n := by omega
    have hPos : 0 < n.natAbs := by omega
    simp only [hSign, hAbs, hPos, hMin, decide_true, if_true, and_self]
  · have hAbs : (n.natAbs : Int) = n := by omega
    have hSmall : n.natAbs ≤ maxUnsigned := by omega
    simp only [hSign, hSmall, hAbs, decide_false, Bool.false_eq_true, if_false, if_true]

end JsonValue

end EntitySchema
