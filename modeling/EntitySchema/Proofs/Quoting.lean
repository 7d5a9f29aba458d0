import EntitySchema.Sql.Table
import Mathlib.Logic.Function.Basic

/-!
Reading quoted text again. Inside the marks a doubled mark stands for one, and a single mark ends
the text. The main result is that this undoes the quoting of names and of textual defaults, whatever
marks they hold and whatever follows them, as long as it does not begin with a mark; and that
nothing else is read as that text.
-/

namespace EntitySchema

namespace Text.Doubled

/-- The text up to the mark that ends it, and what follows. -/
def decode (mark : Char) : List Char → Option (List Char × List Char)
  | [] => none
  | [c] => if c = mark then some ([], []) else none
  | c :: next :: rest =>
    if c = mark then
      if next = mark then (decode mark rest).map (Prod.map (mark :: ·) id)
      else some ([], next :: rest)
    else (decode mark (next :: rest)).map (Prod.map (c :: ·) id)

/-- The text between a mark and the one that ends it, and what follows. -/
def unquote (mark : Char) (text : String) : Option (String × String) :=
  if text.toList.head? = some mark then
    (decode mark text.toList.tail).map (Prod.map String.ofList String.ofList)
  else none

section Reading

variable {mark : Char} {cs text rest : List Char}

theorem decode_other {c : Char} (h : c ≠ mark) (cs : List Char) :
    decode mark (c :: cs) = (decode mark cs).map (Prod.map (c :: ·) id) := by
  cases cs <;> simp [decode, h]

/-- A mark followed by a second one belongs to the text, and any other mark ends it. -/
theorem decode_mark (cs : List Char) :
    decode mark (mark :: cs) =
      if cs.head? = some mark then (decode mark cs.tail).map (Prod.map (mark :: ·) id)
      else some ([], cs) := by
  cases cs <;> simp [decode]

theorem decode_encode (text : List Char) (hRest : rest.head? ≠ some mark) :
    decode mark (encode mark text ++ mark :: rest) = some (text, rest) := by
  induction text with
  | nil => rw [encode, List.nil_append, decode_mark, if_neg hRest]
  | cons c text ih =>
    rw [encode]
    split
    · rename_i hc
      rw [List.cons_append, List.cons_append, decode_mark, List.head?_cons, if_pos rfl,
        List.tail_cons, ih, hc]
      rfl
    · rename_i hc
      rw [List.cons_append, decode_other hc, ih]
      rfl

theorem eq_encode_of_decode (h : decode mark cs = some (text, rest)) :
    cs = encode mark text ++ mark :: rest ∧ rest.head? ≠ some mark := by
  -- The text ends in the cases 2 and 5; in the cases 4 and 6 it has one more character.
  fun_induction decode mark cs generalizing text with
  | case1 => cases h
  | case2 => simp_all [encode]
  | case3 => cases h
  | case4 cs ih =>
    obtain ⟨⟨inner, after⟩, hInner, hText⟩ := Option.map_eq_some_iff.1 h
    cases hText
    obtain ⟨hcs, hRest⟩ := ih hInner
    exact ⟨by simp [encode, hcs], hRest⟩
  | case5 c cs hNext =>
    cases h
    simp [encode, hNext]
  | case6 c next cs hc ih =>
    obtain ⟨⟨inner, after⟩, hInner, hText⟩ := Option.map_eq_some_iff.1 h
    cases hText
    obtain ⟨hcs, hRest⟩ := ih hInner
    exact ⟨by simp [encode, hc, hcs], hRest⟩

/-- What is read as a text is that text in quotes. -/
theorem unquote_eq_some_iff {source text rest : String} :
    unquote mark source = some (text, rest) ↔
      source = quote mark text ++ rest ∧ rest.toList.head? ≠ some mark := by
  have hSource : source = quote mark text ++ rest ↔
      source.toList = mark :: (encode mark text.toList ++ mark :: rest.toList) := by
    rw [← String.toList_inj]
    simp [quote]
  rw [hSource, unquote]
  constructor
  · intro h
    split at h
    · rename_i hHead
      obtain ⟨⟨inner, after⟩, hInner, hText⟩ := Option.map_eq_some_iff.1 h
      obtain ⟨hcs, hRest⟩ := eq_encode_of_decode hInner
      cases hText
      obtain ⟨cs, hcs'⟩ := List.head?_eq_some_iff.1 hHead
      simp_all
    · cases h
  · rintro ⟨hText, hRest⟩
    rw [hText, List.head?_cons, if_pos rfl, List.tail_cons, decode_encode _ hRest]
    simp

theorem quote_injective (mark : Char) : Function.Injective (quote mark) := by
  intro a b h
  have ha : unquote mark (quote mark a) = some (a, "") :=
    unquote_eq_some_iff.2 ⟨by simp, by simp⟩
  have hb : unquote mark (quote mark b) = some (b, "") :=
    unquote_eq_some_iff.2 ⟨by simp, by simp⟩
  rw [h, hb] at ha
  simpa using ha.symm

end Reading

end Text.Doubled

namespace Sql

open Text

/-- The default of a textual member is quoted. -/
theorem render_initialValue {m : Member} (model : Model)
    (h : m.type = .scalar .string ∨ m.type = .scalar .char) (text : String) :
    (initialValue model m.type text).render = Doubled.quote '\'' text := by
  rcases h with h | h <;> rw [h] <;> rfl

/-- A name in quotes is read back with nothing lost of what follows it, and so is the default of a
textual member; nothing else reads as they do. So different texts are quoted differently. -/
theorem quoted_reads_back :
    (∀ (d : Dialect) (source name rest : String),
      Doubled.unquote d.quoteMark source = some (name, rest) ↔
        source = d.quote name ++ rest ∧ rest.toList.head? ≠ some d.quoteMark) ∧
    (∀ (model : Model) (m : Member), m.type = .scalar .string ∨ m.type = .scalar .char →
      ∀ source text rest : String,
        Doubled.unquote '\'' source = some (text, rest) ↔
          source = (initialValue model m.type text).render ++ rest ∧
            rest.toList.head? ≠ some '\'') ∧
    (∀ d : Dialect, Function.Injective d.quote) ∧
    ∀ (model : Model) (m : Member), m.type = .scalar .string ∨ m.type = .scalar .char →
      Function.Injective (fun text => (initialValue model m.type text).render) := by
  refine ⟨?_, ?_, ?_, ?_⟩
  · intro d source name rest
    exact Doubled.unquote_eq_some_iff
  · intro model m hType source text rest
    rw [render_initialValue model hType]
    exact Doubled.unquote_eq_some_iff
  · exact fun d => Doubled.quote_injective d.quoteMark
  · intro model m hType
    simp only [render_initialValue model hType]
    exact Doubled.quote_injective '\''

/-- Marks at the start, inside and at the end of a default stay in it. -/
theorem marks_stay_inside :
    Doubled.unquote '\''
        ((initialValue {} (.scalar .string) "'; DROP TABLE a; --''").render ++ ",") =
      some ("'; DROP TABLE a; --''", ",") :=
  (quoted_reads_back.2.1 {} { name := "note", type := .scalar .string, owner := .schema } (.inl rfl)
    _ _ _).2 ⟨rfl, by decide⟩

end Sql

end EntitySchema
