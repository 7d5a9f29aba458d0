import EntitySchema.Proofs.EnumNumbering
import EntitySchema.Proofs.Lines
import EntitySchema.Proofs.PrintedTokens
import EntitySchema.Rust.EnumModule
import Mathlib.Data.List.Find
import Mathlib.Data.List.Nodup

/-!
The conversions that the module of an enum defines: from a name to its number, and from a number to
a name. Both are read from the text of the module, as the arms of two matches, of which the first
arm that fits decides. The main result says what the two functions are, and when one undoes the
other.
-/

namespace EntitySchema

theorem Lexer.IsPlainWord.not_mem {c : Char} {w : List Char} (h : IsPlainWord w)
    (hc : isPlain c = false) : c ∉ w := by
  intro hMem
  simpa [hc] using h.plain c hMem

namespace Rust

open Lexer Number Text

/-! ## Matches -/

/-- The lines after the first line `opening`, up to a line `closing`. -/
def between (opening closing : String) (ls : List String) : List String :=
  (ls.dropWhile (· != opening)).tail.takeWhile (· != closing)

/-- The arm on a line: a pattern, and after the arrow a value that ends with a comma. -/
def arm? (line : String) : Option (String × String) :=
  let code := line.toList.dropWhile (· == ' ')
  (" => ".toList.isPrefixOf? (code.dropWhile (· != ' '))).map (fun value =>
    (String.ofList (code.takeWhile (· != ' ')), String.ofList (value.takeWhile (· != ','))))

/-- The arms of the match on a subject. -/
def armsOf (subject text : String) : List (String × String) :=
  (between ("        match " ++ subject ++ " \x7b") "        \x7d" (lines text)).filterMap arm?

/-- The number that the module gives for a name. -/
def valueOf (text name : String) : Option Int :=
  ((armsOf "self" text).find? (fun a => a.1 == "Self::" ++ name)).bind (fun a => readSigned a.2)

/-- The name that the module gives for a number. The pattern `_` fits any. -/
def nameOf (text : String) (k : Int) : Option String :=
  ((armsOf "value" text).find? (fun a => a.1 == "_" || readSigned a.1 == some k)).bind (fun a =>
    ("Self::".toList.isPrefixOf? a.2.toList).map String.ofList)

theorem between_append {opening closing : String} {before inside after : List String}
    (hBefore : ∀ l ∈ before, l ≠ opening) (hInside : ∀ l ∈ inside, l ≠ closing) :
    between opening closing (before ++ opening :: (inside ++ closing :: after)) = inside := by
  have hSkip : ∀ l ∈ before, (l != opening) = true := by simpa using hBefore
  have hTake : ∀ l ∈ inside, (l != closing) = true := by simpa using hInside
  rw [between, List.dropWhile_append_of_pos hSkip, List.dropWhile_cons_of_neg (by simp),
    List.tail_cons, List.takeWhile_append_of_pos hTake, List.takeWhile_cons_of_neg (by simp),
    List.append_nil]

/-- The line of an arm. -/
def armLine (pattern value : String) : String :=
  "            " ++ pattern ++ " => " ++ value ++ ","

theorem armLine_eq (pattern value : String) :
    armLine pattern value = "            " ++ pattern ++ " => " ++ value ++ "," := rfl

def armLines (arms : List (String × String)) : List String :=
  arms.map (fun a => armLine a.1 a.2)

/-- A pattern and a value that can be told apart on the line of their arm. -/
structure IsArm (a : String × String) : Prop where
  nonempty : a.1.toList ≠ []
  noBlank : ' ' ∉ a.1.toList
  noComma : ',' ∉ a.2.toList
  noBreak : '\n' ∉ a.1.toList ∧ '\n' ∉ a.2.toList

section Arms

variable {a : String × String} {arms : List (String × String)}

theorem bne_of_not_mem {stop : Char} {cs : List Char} (h : stop ∉ cs) :
    ∀ c ∈ cs, (c != stop) = true := by
  intro c hc
  rw [bne_iff_ne]
  rintro rfl
  exact h hc

theorem IsArm.arm? (h : IsArm a) : arm? (armLine a.1 a.2) = some a := by
  have hBlank := bne_of_not_mem h.noBlank
  have hComma := bne_of_not_mem h.noComma
  -- Before the pattern there are only blanks, and it does not start with one itself.
  have hCode : (armLine a.1 a.2).toList.dropWhile (· == ' ') =
      a.1.toList ++ (" => ".toList ++ (a.2.toList ++ [','])) := by
    obtain ⟨c, cs, hcs⟩ := List.exists_cons_of_ne_nil h.nonempty
    have hc : c ≠ ' ' := by simpa using hBlank c (by simp [hcs])
    simp [armLine_eq, hcs, hc]
  simp only [Rust.arm?, hCode]
  rw [List.dropWhile_append_of_pos hBlank, List.takeWhile_append_of_pos hBlank]
  simp [List.isPrefixOf?_eq_some_iff_append_eq, List.takeWhile_append_of_pos hComma]

theorem filterMap_armLines (h : ∀ a ∈ arms, IsArm a) : (armLines arms).filterMap arm? = arms := by
  induction arms with
  | nil => rfl
  | cons a arms ih =>
    obtain ⟨ha, hArms⟩ := List.forall_mem_cons.1 h
    have hRest : (arms.map (fun a => armLine a.1 a.2)).filterMap arm? = arms := ih hArms
    rw [armLines, List.map_cons, List.filterMap_cons_some ha.arm?, hRest]

end Arms

/-! ## The lines of a module -/

/-- The line holds no line break and starts no match. -/
def IsOutside (l : String) : Prop :=
  '\n' ∉ l.toList ∧ ¬ "        match ".toList <+: l.toList

instance (l : String) : Decidable (IsOutside l) :=
  inferInstanceAs (Decidable (_ ∧ _))

theorem isOutside_armLines {arms : List (String × String)} (h : ∀ a ∈ arms, IsArm a) :
    ∀ l ∈ armLines arms, IsOutside l := by
  intro l hl
  obtain ⟨a, ha, rfl⟩ := List.mem_map.1 hl
  have hBreak := (h a ha).noBreak
  exact ⟨by simp [armLine_eq, hBreak.1, hBreak.2], by simp [armLine_eq]⟩

theorem armLine_ne_close (pattern value : String) : armLine pattern value ≠ "        \x7d" := by
  intro h
  have hLast : (armLine pattern value).toList.getLast? = some ',' := by
    rw [armLine_eq, String.toList_append]
    exact List.getLast?_concat
  rw [h] at hLast
  exact absurd hLast (by decide)

theorem IsOutside.ne_opening {l : String} (h : IsOutside l) (subject : String) :
    l ≠ "        match " ++ subject ++ " \x7b" := by
  rintro rfl
  exact h.2 ⟨subject.toList ++ " \x7b".toList, by simp⟩

/-- The arms between the two ends of a match are read from their lines. -/
theorem armsOf_eq {subject text : String} {before arms} (after : List String)
    (hText : lines text = before ++ ("        match " ++ subject ++ " \x7b") ::
      (armLines arms ++ "        \x7d" :: after))
    (hBefore : ∀ l ∈ before, l ≠ "        match " ++ subject ++ " \x7b")
    (hArms : ∀ a ∈ arms, IsArm a) : armsOf subject text = arms := by
  rw [armsOf, hText, between_append hBefore, filterMap_armLines hArms]
  intro l hl
  obtain ⟨a, ha, rfl⟩ := List.mem_map.1 hl
  exact armLine_ne_close a.1 a.2

def nameLines (name : String) : List String :=
  (if name == unknownName then ["    #[default]"] else []) ++ ["    " ++ name ++ ","]

theorem isOutside_nameLines {n : String} (h : Grammar.isName n) :
    ∀ l ∈ nameLines n, IsOutside l := by
  have hWord := isPlainWord_of_isName h
  have hLine : IsOutside ("    " ++ n ++ ",") := by
    constructor
    · simpa using hWord.not_mem (by decide)
    · obtain ⟨c, cs, hcs⟩ := List.exists_cons_of_ne_nil hWord.nonempty
      have hc : c ≠ ' ' := by
        rintro rfl
        exact hWord.not_mem (by decide : isPlain ' ' = false) (by simp [hcs])
      simp [hcs, hc.symm]
  unfold nameLines
  split
  · rw [List.forall_mem_append, List.forall_mem_singleton, List.forall_mem_singleton]
    exact ⟨by decide, hLine⟩
  · rwa [List.nil_append, List.forall_mem_singleton]

namespace EnumModule

variable (e : EnumModule)

/-- The arms of the match that gives the number of a name. -/
def valueArms : List (String × String) :=
  e.values.map (fun x => ("Self::" ++ x.1, signedDecimal x.2))

/-- The arms of the match that gives the name of a number. -/
def ofValueArms : List (String × String) :=
  e.ofValues.map (fun x => (signedDecimal x.1, "Self::" ++ x.2)) ++ [("_", "Self::Unknown")]

def linesBefore : List String :=
  ["// Generated by schemagen. Do not edit.", "", "#[allow(non_camel_case_types)]",
    "#[derive(Debug, Clone, Copy, Default, PartialEq, Eq, Hash, " ++
      "serde::Serialize, serde::Deserialize)]",
    "pub enum " ++ e.name ++ " \x7b"] ++ e.names.flatMap nameLines ++
  ["\x7d", "", "impl " ++ e.name ++ " \x7b", "    pub fn value(self) -> i64 \x7b"]

def linesBetween : List String :=
  ["    \x7d", "", "    pub fn from_value(value: i64) -> Self \x7b"]

/-- The lines of a module: two matches, and what stands around them. -/
def lines : List String :=
  e.linesBefore ++ "        match self \x7b" :: (armLines e.valueArms ++ "        \x7d" ::
    (linesBetween ++ "        match value \x7b" :: (armLines e.ofValueArms ++ "        \x7d" ::
      ["    \x7d", "\x7d"])))

theorem renderName_eq (name : String) : renderName name = unlines (nameLines name) := by
  have hEnd : ",\n" = "," ++ "\n" := by decide
  have hDefault : "    #[default]\n" = "    #[default]" ++ "\n" := by decide
  unfold renderName nameLines
  rw [hEnd, hDefault]
  split <;> simp only [unlines_append, unlines_cons, unlines_nil, String.append_assoc,
    String.append_empty, String.empty_append]

theorem renderArm_eq (pattern value : String) :
    renderArm pattern value = "            " ++ pattern ++ " => " ++ value ++ ",\n" := rfl

theorem join_arms {α : Type} (as : List α) (arm : α → String × String) {f : α → String}
    (hf : ∀ a, f a = renderArm (arm a).1 (arm a).2) :
    String.join (as.map f) = unlines (armLines (as.map arm)) := by
  have hEnd : ",\n" = "," ++ "\n" := by decide
  rw [unlines, armLines, List.map_map, List.map_map]
  congr 2
  funext a
  rw [hf, renderArm_eq, hEnd, ← String.append_assoc]
  rfl

/-- The text of a module is made of its lines. -/
theorem render_eq_unlines : e.render = unlines e.lines := by
  have hNames : String.join (e.names.map renderName) = unlines (e.names.flatMap nameLines) := by
    rw [unlines_flatMap]
    exact congrArg (fun f => String.join (e.names.map f)) (funext renderName_eq)
  have hArms : armLines e.ofValueArms =
      armLines (e.ofValues.map (fun x => (signedDecimal x.1, "Self::" ++ x.2))) ++
        ["            _ => Self::Unknown,"] := by
    rw [ofValueArms, armLines, List.map_append]
    rfl
  -- Each literal of the text ends with a line break, so it is some lines of its own.
  have hHeader : header = unlines ["// Generated by schemagen. Do not edit."] := by decide
  have hAllow : "\n#[allow(non_camel_case_types)]\n" =
      unlines ["", "#[allow(non_camel_case_types)]"] := by decide
  have hDerive : "serde::Serialize, serde::Deserialize)]\n" =
      unlines ["serde::Serialize, serde::Deserialize)]"] := by decide
  have hOpen : " \x7b\n" = unlines [" \x7b"] := by decide
  have hClose : "\x7d\n\n" = unlines ["\x7d", ""] := by decide
  have hValue : "    pub fn value(self) -> i64 \x7b\n        match self \x7b\n" =
      unlines ["    pub fn value(self) -> i64 \x7b", "        match self \x7b"] := by decide
  have hBetween : "        \x7d\n    \x7d\n\n" =
      unlines ["        \x7d", "    \x7d", ""] := by decide
  have hOfValue : "    pub fn from_value(value: i64) -> Self \x7b\n        match value \x7b\n" =
      unlines ["    pub fn from_value(value: i64) -> Self \x7b", "        match value \x7b"] := by
    decide
  have hEnd : "            _ => Self::Unknown,\n        \x7d\n    \x7d\n\x7d\n" =
      unlines ["            _ => Self::Unknown,", "        \x7d", "    \x7d", "\x7d"] := by decide
  unfold render
  rw [hNames, join_arms e.values (fun x => ("Self::" ++ x.1, signedDecimal x.2)) (fun x => rfl),
    join_arms e.ofValues (fun x => (signedDecimal x.1, "Self::" ++ x.2)) (fun x => rfl)]
  simp only [hHeader, hAllow, hDerive, hOpen, hClose, hValue, hBetween, hOfValue, hEnd, hArms,
    String.join_cons, String.join_nil, lines, linesBefore, linesBetween, valueArms, unlines_append,
    unlines_cons, unlines_nil, String.append_assoc, String.append_empty, String.empty_append]

/-! ## The arms of a module -/

/-- The module and its values have names. -/
structure Named : Prop where
  name : Grammar.isName e.name
  names : ∀ n ∈ e.names, Grammar.isName n
  values : ∀ x ∈ e.values, Grammar.isName x.1
  ofValues : ∀ x ∈ e.ofValues, Grammar.isName x.2

variable {e}

theorem Named.isArm_valueArms (h : e.Named) : ∀ a ∈ e.valueArms, IsArm a := by
  intro a ha
  obtain ⟨x, hx, rfl⟩ := List.mem_map.1 ha
  have hName := isPlainWord_of_isName (h.values x hx)
  have hNumber := isPlainWord_signedDecimal x.2
  exact ⟨by simp, by simpa using hName.not_mem (by decide), hNumber.not_mem (by decide),
    by simpa using hName.not_mem (by decide), hNumber.not_mem (by decide)⟩

theorem Named.isArm_ofValueArms (h : e.Named) : ∀ a ∈ e.ofValueArms, IsArm a := by
  intro a ha
  rcases List.mem_append.1 ha with ha | ha
  · obtain ⟨x, hx, rfl⟩ := List.mem_map.1 ha
    have hName := isPlainWord_of_isName (h.ofValues x hx)
    have hNumber := isPlainWord_signedDecimal x.1
    exact ⟨hNumber.nonempty, hNumber.not_mem (by decide), by simpa using hName.not_mem (by decide),
      hNumber.not_mem (by decide), by simpa using hName.not_mem (by decide)⟩
  · rw [List.mem_singleton.1 ha]
    exact ⟨by decide, by decide, by decide, by decide, by decide⟩

theorem Named.isOutside_before (h : e.Named) : ∀ l ∈ e.linesBefore, IsOutside l := by
  have hName : '\n' ∉ e.name.toList := (isPlainWord_of_isName h.name).not_mem (by decide)
  have hNames : ∀ l ∈ e.names.flatMap nameLines, IsOutside l := by
    intro l hl
    obtain ⟨n, hn, hl⟩ := List.mem_flatMap.1 hl
    exact isOutside_nameLines (h.names n hn) l hl
  have hEnum : IsOutside ("pub enum " ++ e.name ++ " \x7b") := ⟨by simpa using hName, by simp⟩
  have hImpl : IsOutside ("impl " ++ e.name ++ " \x7b") := ⟨by simpa using hName, by simp⟩
  simp only [linesBefore, List.forall_mem_append, List.forall_mem_cons]
  exact ⟨⟨⟨by decide, by decide, by decide, by decide, hEnum, by simp⟩, hNames⟩,
    by decide, by decide, hImpl, by decide, by simp⟩

theorem Named.lines_render (h : e.Named) : Text.lines e.render = e.lines ++ [""] := by
  have hBefore := h.isOutside_before
  have hValues := isOutside_armLines h.isArm_valueArms
  have hOfValues := isOutside_armLines h.isArm_ofValueArms
  rw [render_eq_unlines, lines_unlines_of_not_mem]
  simp only [lines, linesBetween, List.forall_mem_append, List.forall_mem_cons]
  exact ⟨fun l hl => (hBefore l hl).1, by decide, fun l hl => (hValues l hl).1, by decide,
    ⟨by decide, by decide, by decide, by simp⟩, by decide, fun l hl => (hOfValues l hl).1,
    by decide, by decide, by decide, by simp⟩

theorem Named.armsOf_self (h : e.Named) : armsOf "self" e.render = e.valueArms := by
  have hLines := h.lines_render
  rw [lines, List.append_assoc, List.cons_append, List.append_assoc, List.cons_append] at hLines
  exact armsOf_eq _ hLines (fun l hl => (h.isOutside_before l hl).ne_opening _) h.isArm_valueArms

theorem Named.armsOf_value (h : e.Named) : armsOf "value" e.render = e.ofValueArms := by
  -- The first match stands before the second one, and none of its lines opens a match on a value.
  have hBefore : ∀ l ∈ e.linesBefore ++ ("        match self \x7b" ::
      (armLines e.valueArms ++ "        \x7d" :: linesBetween)),
      l ≠ "        match " ++ "value" ++ " \x7b" := by
    have hArms := isOutside_armLines h.isArm_valueArms
    simp only [List.forall_mem_append, List.forall_mem_cons]
    exact ⟨fun l hl => (h.isOutside_before l hl).ne_opening _, by decide,
      fun l hl => (hArms l hl).ne_opening _, by decide, by decide⟩
  refine armsOf_eq ["    \x7d", "\x7d", ""] ?_ hBefore h.isArm_ofValueArms
  rw [h.lines_render, lines]
  simp only [List.append_assoc, List.cons_append, List.nil_append]
  rfl

end EnumModule

/-! ## Names and numbers -/

section FirstOfEach

variable {seen : List Int} {vs : List EnumValue}

theorem not_mem_of_firstOfEach {v : EnumValue} (h : v ∈ firstOfEach seen vs) : v.value ∉ seen := by
  fun_induction firstOfEach seen vs with
  | case1 => cases h
  | case2 seen w vs hSeen ih => exact ih h
  | case3 seen w vs hSeen ih =>
    rcases List.mem_cons.1 h with rfl | h
    · simpa using hSeen
    · exact fun hMem => ih h (List.mem_cons_of_mem _ hMem)

theorem nodup_firstOfEach (seen : List Int) (vs : List EnumValue) :
    ((firstOfEach seen vs).map EnumValue.value).Nodup := by
  fun_induction firstOfEach seen vs with
  | case1 => exact List.nodup_nil
  | case2 seen w vs hSeen ih => exact ih
  | case3 seen w vs hSeen ih =>
    rw [List.map_cons, List.nodup_cons]
    refine ⟨?_, ih⟩
    intro hMem
    obtain ⟨v, hv, hValue⟩ := List.mem_map.1 hMem
    exact not_mem_of_firstOfEach hv (hValue ▸ List.mem_cons_self)

theorem firstOfEach_sublist (seen : List Int) (vs : List EnumValue) :
    (firstOfEach seen vs).Sublist vs := by
  fun_induction firstOfEach seen vs with
  | case1 => exact List.Sublist.refl []
  | case2 seen w vs hSeen ih => exact ih.cons w
  | case3 seen w vs hSeen ih => exact ih.cons_cons w

/-- Of the values with a number that was not seen, the first one is kept. -/
theorem find?_firstOfEach (seen : List Int) (vs : List EnumValue) (k : Int) :
    (firstOfEach seen vs).find? (fun v => v.value == k) =
      if k ∈ seen then none else vs.find? (fun v => v.value == k) := by
  fun_induction firstOfEach seen vs with
  | case1 => simp
  | case2 seen w vs hSeen ih =>
    by_cases hw : w.value = k
    · -- The value is left out, and no later one is kept for its number either.
      have hk : k ∈ seen := by simpa [hw] using hSeen
      rw [ih, if_pos hk, if_pos hk]
    · rw [ih, List.find?_cons_of_neg (by simpa using hw)]
  | case3 seen w vs hSeen ih =>
    by_cases hw : w.value = k
    · have hk : k ∉ seen := by simpa [hw] using hSeen
      rw [if_neg hk, List.find?_cons_of_pos (by simpa using hw),
        List.find?_cons_of_pos (by simpa using hw)]
    · have hMem : k ∈ w.value :: seen ↔ k ∈ seen := by simp [Ne.symm hw]
      rw [List.find?_cons_of_neg (by simpa using hw), ih,
        List.find?_cons_of_neg (by simpa using hw)]
      simp only [hMem]

end FirstOfEach

end Rust

/-- The name that stands for a number: the first one that is declared for it, or `Unknown`. -/
def Enumeration.nameFor (e : Enumeration) (k : Int) : String :=
  ((e.declaredValues.find? (fun v => v.value == k)).map EnumValue.name).getD "Unknown"

namespace Enumeration.Declared

variable {e : Enumeration} {v w : EnumValue}

theorem isName_of_mem (h : e.Declared) (hv : v ∈ e.values) : Grammar.isName v.name := by
  obtain ⟨vs, hValues, hvs, -⟩ := h.values
  rw [hValues, List.mem_append, List.mem_singleton] at hv
  rcases hv with hv | rfl
  · exact (hvs v hv).name
  · decide

theorem readSigned_of_mem (h : e.Declared) (hv : v ∈ e.values) :
    Number.readSigned (Number.signedDecimal v.value) = some v.value := by
  obtain ⟨vs, hValues, hvs, -⟩ := h.values
  rw [hValues, List.mem_append, List.mem_singleton] at hv
  rcases hv with hv | rfl
  · exact Number.readSigned_signedDecimal (hvs v hv).least (hvs v hv).greatest
  · decide

theorem eq_of_name (h : e.Declared) (hv : v ∈ e.values) (hw : w ∈ e.values)
    (hName : v.name = w.name) : v = w :=
  List.inj_on_of_nodup_map (Reader.nodup_values h) hv hw hName

theorem value?_of_mem (h : e.Declared) (hv : v ∈ e.values) : e.value? v.name = some v.value := by
  have hFind : ∃ w, e.values.find? (fun w => w.name == v.name) = some w := by
    rw [← Option.isSome_iff_exists, List.find?_isSome]
    exact ⟨v, hv, beq_self_eq_true _⟩
  obtain ⟨w, hw⟩ := hFind
  have hName : w.name = v.name := by simpa using List.find?_some hw
  rw [Enumeration.value?, hw, Option.map_some, h.eq_of_name (List.mem_of_find?_eq_some hw) hv hName]

theorem values_eq (h : e.Declared) : e.values = e.declaredValues ++ [⟨"Unknown", -1⟩] := by
  obtain ⟨vs, hValues, hvs, -⟩ := h.values
  have hKept : vs.filter (fun v => v.name != unknownName) = vs :=
    List.filter_eq_self.2 (fun v hv => by simpa using (hvs v hv).notUnknown)
  have hDeclared : e.declaredValues = vs := by
    rw [Enumeration.declaredValues, hValues, List.filter_append, hKept]
    exact List.append_nil vs
  rw [hDeclared, hValues]
  rfl

/-- A number that a value has is the one of the value that its name stands for, which is the first
value with this number. -/
theorem exists_first (h : e.Declared) (hv : v ∈ e.values) :
    ∃ w ∈ e.values, e.values.find? (fun w => w.value == v.value) = some w ∧ w.value = v.value ∧
      e.nameFor v.value = w.name := by
  have hFind : ∃ w, e.values.find? (fun w => w.value == v.value) = some w := by
    rw [← Option.isSome_iff_exists, List.find?_isSome]
    exact ⟨v, hv, beq_self_eq_true _⟩
  obtain ⟨w, hw⟩ := hFind
  refine ⟨w, List.mem_of_find?_eq_some hw, hw, by simpa using List.find?_some hw, ?_⟩
  -- Only `Unknown` stands behind the declared values, and its name is also the one for no value.
  rw [h.values_eq, List.find?_append] at hw
  rw [Enumeration.nameFor]
  cases hDeclared : e.declaredValues.find? (fun w => w.value == v.value) with
  | some u =>
    rw [hDeclared, Option.some_or] at hw
    cases hw
    rfl
  | none =>
    rw [hDeclared, Option.none_or] at hw
    rw [List.mem_singleton.1 (List.mem_of_find?_eq_some hw)]
    rfl

theorem value?_nameFor (h : e.Declared) (hv : v ∈ e.values) :
    e.value? (e.nameFor v.value) = some v.value := by
  obtain ⟨w, hw, -, hValue, hName⟩ := h.exists_first hv
  rw [hName, h.value?_of_mem hw, hValue]

theorem nameFor_eq_name_iff (h : e.Declared) (hv : v ∈ e.values) :
    e.nameFor v.value = v.name ↔ e.values.find? (fun w => w.value == v.value) = some v := by
  obtain ⟨w, hw, hFirst, -, hName⟩ := h.exists_first hv
  rw [hFirst, hName, Option.some_inj]
  exact ⟨h.eq_of_name hw hv, congrArg EnumValue.name⟩

end Enumeration.Declared

namespace Rust

open Number

section Conversions

variable {e : Enumeration}

theorem mem_values_of_firstOfEach {v : EnumValue} (hv : v ∈ firstOfEach [] e.declaredValues) :
    v ∈ e.values :=
  List.mem_of_mem_filter ((firstOfEach_sublist [] e.declaredValues).mem hv)

theorem named_ofEnum (h : e.Declared) : (EnumModule.ofEnum e).Named where
  name := h.name
  names := by
    intro n hn
    obtain ⟨v, hv, rfl⟩ := List.mem_map.1 hn
    exact h.isName_of_mem hv
  values := by
    intro x hx
    obtain ⟨v, hv, rfl⟩ := List.mem_map.1 hx
    exact h.isName_of_mem hv
  ofValues := by
    intro x hx
    obtain ⟨v, hv, rfl⟩ := List.mem_map.1 hx
    exact h.isName_of_mem (mem_values_of_firstOfEach hv)

theorem valueOf_ofEnum (h : e.Declared) (name : String) :
    valueOf (EnumModule.ofEnum e).render name = e.value? name := by
  have hArms : (EnumModule.ofEnum e).valueArms =
      e.values.map (fun v => ("Self::" ++ v.name, signedDecimal v.value)) := by
    rw [EnumModule.valueArms, EnumModule.ofEnum, List.map_map]
    rfl
  have hNames : (fun a : String × String => a.1 == "Self::" ++ name) ∘
      (fun v : EnumValue => ("Self::" ++ v.name, signedDecimal v.value)) =
        fun v => v.name == name := by
    funext v
    exact Bool.eq_iff_iff.2 (by simp)
  rw [valueOf, (named_ofEnum h).armsOf_self, hArms, List.find?_map, hNames, Enumeration.value?]
  cases hFind : e.values.find? (fun v => v.name == name) with
  | none => rfl
  | some v => exact h.readSigned_of_mem (List.mem_of_find?_eq_some hFind)

theorem ofValueArms_ofEnum (e : Enumeration) : (EnumModule.ofEnum e).ofValueArms =
    (firstOfEach [] e.declaredValues).map (fun v => (signedDecimal v.value, "Self::" ++ v.name)) ++
      [("_", "Self::Unknown")] := by
  rw [EnumModule.ofValueArms, EnumModule.ofEnum, List.map_map]
  rfl

theorem isPrefixOf?_self_append (name : String) :
    ("Self::".toList.isPrefixOf? ("Self::" ++ name).toList).map String.ofList = some name := by
  have hRest : "Self::".toList.isPrefixOf? ("Self::" ++ name).toList = some name.toList := by
    rw [List.isPrefixOf?_eq_some_iff_append_eq, String.toList_append]
  rw [hRest, Option.map_some, String.ofList_toList]

theorem nameOf_ofEnum (h : e.Declared) (k : Int) :
    nameOf (EnumModule.ofEnum e).render k = some (e.nameFor k) := by
  have hFits : ∀ v ∈ firstOfEach [] e.declaredValues,
      (signedDecimal v.value == "_" || readSigned (signedDecimal v.value) == some k) =
        (v.value == k) := by
    intro v hv
    have hRead := h.readSigned_of_mem (mem_values_of_firstOfEach hv)
    have hNumber : signedDecimal v.value ≠ "_" := by
      intro hEq
      have hNone : readSigned "_" = none := by decide
      rw [hEq, hNone] at hRead
      cases hRead
    simp [hRead, hNumber]
  have hFirst : (firstOfEach [] e.declaredValues).find? (fun v =>
      signedDecimal v.value == "_" || readSigned (signedDecimal v.value) == some k) =
        e.declaredValues.find? (fun v => v.value == k) := by
    rw [List.find?_congr hFits, find?_firstOfEach, if_neg List.not_mem_nil]
  rw [nameOf, (named_ofEnum h).armsOf_value, ofValueArms_ofEnum, List.find?_append, List.find?_map]
  simp only [Function.comp_def, hFirst, Enumeration.nameFor]
  cases e.declaredValues.find? (fun v => v.value == k) with
  | none => exact isPrefixOf?_self_append "Unknown"
  | some v => exact isPrefixOf?_self_append v.name

/-- The last arm has no number. -/
theorem numbers_ofEnum (h : e.Declared) :
    (armsOf "value" (EnumModule.ofEnum e).render).filterMap (fun a => readSigned a.1) =
      (firstOfEach [] e.declaredValues).map EnumValue.value := by
  have hLast : [("_", "Self::Unknown")].filterMap (fun a => readSigned a.1) = [] := by decide
  rw [(named_ofEnum h).armsOf_value, ofValueArms_ofEnum, List.filterMap_append, hLast,
    List.append_nil, List.filterMap_map, ← List.filterMap_eq_map]
  exact List.filterMap_congr (fun v hv => h.readSigned_of_mem (mem_values_of_firstOfEach hv))

end Conversions

/-- The module of an enum gives each of its names its number. The arms for numbers have different
ones, and give a number the first name that is declared for it, and `Unknown` if there is none. So
the name of a number has this number, and the number of a name stands for the first of the names
that share it, where `Unknown` counts last. -/
theorem conversions_agree (tree : FileTree) (calls : List Reader.Call) {e : Enumeration}
    (he : e ∈ (Reader.session tree calls).model.enums) :
    e.values = e.declaredValues ++ [⟨"Unknown", -1⟩] ∧
    (∀ v ∈ e.values, valueOf (EnumModule.ofEnum e).render v.name = some v.value) ∧
    ((armsOf "value" (EnumModule.ofEnum e).render).filterMap (fun a => readSigned a.1)).Nodup ∧
    (∀ k, nameOf (EnumModule.ofEnum e).render k = some (e.nameFor k)) ∧
    (∀ v ∈ e.values, (nameOf (EnumModule.ofEnum e).render v.value).bind
      (valueOf (EnumModule.ofEnum e).render) = some v.value) ∧
    ∀ v ∈ e.values, (valueOf (EnumModule.ofEnum e).render v.name).bind
      (nameOf (EnumModule.ofEnum e).render) = some v.name ↔
        e.values.find? (fun w => w.value == v.value) = some v := by
  have h : e.Declared := (Reader.session_atRest tree calls).model.enums e he
  have hValue : ∀ v ∈ e.values, valueOf (EnumModule.ofEnum e).render v.name = some v.value := by
    intro v hv
    rw [valueOf_ofEnum h, h.value?_of_mem hv]
  refine ⟨h.values_eq, hValue, ?_, nameOf_ofEnum h, ?_, ?_⟩
  · rw [numbers_ofEnum h]
    exact nodup_firstOfEach [] e.declaredValues
  · intro v hv
    rw [nameOf_ofEnum h, Option.bind_some, valueOf_ofEnum h, h.value?_nameFor hv]
  · intro v hv
    rw [hValue v hv, Option.bind_some, nameOf_ofEnum h, Option.some_inj, h.nameFor_eq_name_iff hv]

/-- An enum with two names for zero, and with one for the number of `Unknown`. -/
def mood : Enumeration where
  name := "Mood"
  values := [⟨"Happy", 0⟩, ⟨"Glad", 0⟩, ⟨"Sad", -1⟩, ⟨"Unknown", -1⟩]
  position := some ⟨"<input>", 1, 6⟩

theorem mood_conversions_agree :
    mood ∈ (Reader.session {} [.source "enum Mood \x7b Happy, Glad = 0, Sad = -1 \x7d"
      inputName]).model.enums ∧
    (nameOf (EnumModule.ofEnum mood).render 0 = some "Happy" ∧
      nameOf (EnumModule.ofEnum mood).render (-1) = some "Sad" ∧
      nameOf (EnumModule.ofEnum mood).render 7 = some "Unknown") ∧
    (valueOf (EnumModule.ofEnum mood).render "Glad").bind (nameOf (EnumModule.ofEnum mood).render) ≠
      some "Glad" := by
  have hMood : mood ∈ (Reader.session {} [.source "enum Mood \x7b Happy, Glad = 0, Sad = -1 \x7d"
      inputName]).model.enums := by decide +kernel
  obtain ⟨-, -, -, hName, -, hFirst⟩ := conversions_agree _ _ hMood
  refine ⟨hMood, ⟨(hName 0).trans (by decide), (hName (-1)).trans (by decide),
    (hName 7).trans (by decide)⟩, ?_⟩
  exact fun hGlad => absurd ((hFirst ⟨"Glad", 0⟩ (by decide)).1 hGlad) (by decide)

end Rust

end EntitySchema
