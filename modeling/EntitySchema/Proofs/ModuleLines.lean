import EntitySchema.Proofs.Lines
import EntitySchema.Proofs.SnakeCase
import EntitySchema.Rust.StructModule
import Mathlib.Data.List.Basic

/-!
The modules of structs, line by line. The main result reads off the text of a module which
implementations and functions its lines open. It needs names to stay on their line and descriptions
in their comment: a description with a line break in it may bring in lines of any kind.
-/

namespace EntitySchema

open Text

/-- After its indentation the line starts with the marker. -/
def isComment (marker : String) (line : List Char) : Bool :=
  marker.toList.isPrefixOf (line.dropWhile (fun c => c == ' ' || c == '\t'))

namespace Rust

/-! ## Modules as lines -/

def descriptionLines : Option String → List String
  | some text => ["    /// " ++ text]
  | none => []

namespace Function

/-- The lines of a function, with what stands in front of its signature. -/
def linesBehind (opening : String) (f : Function) : List String :=
  (opening ++ f.signature ++ " \x7b") :: (f.body.map ("        " ++ ·) ++ ["    \x7d"])

def publicLines (f : Function) : List String :=
  descriptionLines f.description ++ f.linesBehind "    pub "

end Function

/-- Blocks of lines, with an empty line between each two. -/
def spaced (blocks : List (List String)) : List String :=
  [""].intercalate blocks

/-- The line of a field. -/
def Field.line (f : Field) : String :=
  "    " ++ f.name ++ ": " ++ f.type ++ ","

def Field.lines (f : Field) : List String :=
  descriptionLines f.description ++ [f.line]

def Implementation.lines (struct : String) (i : Implementation) : List String :=
  "" :: ("impl " ++ i.capability ++ " for " ++ struct ++ " \x7b") ::
    (spaced (i.functions.map (Function.linesBehind "    ")) ++ ["\x7d"])

def useLines (path : String) : List String :=
  ["#[allow(unused_imports)]", "use " ++ path ++ ";"]

namespace StructModule

/-- The lines of a module in front of its fields. -/
def linesAbove (s : StructModule) : List String :=
  ["// Generated by schemagen. Do not edit.", ""] ++ (s.requirements.flatMap useLines ++
    (useLines "super::*" ++
      ["", "#[derive(Debug, Clone, Default, PartialEq, serde::Serialize, serde::Deserialize)]",
       "pub struct " ++ s.name ++ " \x7b"]))

/-- The lines of a module after its fields. -/
def linesBelow (s : StructModule) : List String :=
  ["\x7d", "", "impl " ++ s.name ++ " \x7b"] ++ (spaced (s.accessors.map Function.publicLines) ++
    (s.operations.flatMap (fun f => "" :: f.publicLines) ++
      ("\x7d" :: s.implementations.flatMap (Implementation.lines s.name))))

def lines (s : StructModule) : List String :=
  s.linesAbove ++ (s.fields.flatMap Field.lines ++ s.linesBelow)

end StructModule

theorem unlines_descriptionLines (text : Option String) :
    unlines (descriptionLines text) = Function.renderDescription text := by
  cases text with
  | none => rfl
  | some text => simp [descriptionLines, Function.renderDescription, unlines]

theorem Function.unlines_linesBehind (opening : String) (f : Function) :
    unlines (f.linesBehind opening) = opening ++ f.signature ++ f.renderBody := by
  have hBody : unlines (f.body.map ("        " ++ ·)) =
      String.join (f.body.map (fun line => "        " ++ line ++ "\n")) := by
    rw [unlines, List.map_map]
    rfl
  have hOpen : " \x7b\n" = " \x7b" ++ "\n" := by decide
  have hClose : unlines ["    \x7d"] = "    \x7d\n" := by decide
  rw [linesBehind, unlines_cons, unlines_append, hBody, hClose, renderBody, hOpen]
  simp only [String.append_assoc]

theorem Function.unlines_publicLines (f : Function) : unlines f.publicLines = f.renderPublic := by
  rw [publicLines, unlines_append, unlines_descriptionLines, unlines_linesBehind, renderPublic]
  simp only [String.append_assoc]

theorem unlines_spaced (blocks : List (List String)) :
    unlines (spaced blocks) = "\n".intercalate (blocks.map unlines) := by
  have hEmpty : unlines [""] = "\n" := by decide
  unfold spaced
  induction blocks with
  | nil => rfl
  | cons block blocks ih =>
    cases blocks with
    | nil => simp
    | cons next blocks =>
      rw [List.intercalate_cons_cons, unlines_append, unlines_append, ih, hEmpty, List.map_cons,
        List.map_cons, List.map_cons, String.intercalate_cons_cons]

theorem Field.unlines_lines (f : Field) : unlines f.lines = f.render := by
  have hEnd : ",\n" = "," ++ "\n" := by decide
  rw [lines, unlines_append, unlines_descriptionLines, unlines_cons, unlines_nil, line, render, hEnd]
  simp only [String.append_assoc, String.append_empty]

theorem Implementation.unlines_lines (struct : String) (i : Implementation) :
    unlines (i.lines struct) = i.render struct := by
  have hStart : "\nimpl " = "\n" ++ "impl " := by decide
  have hOpen : " \x7b\n" = " \x7b" ++ "\n" := by decide
  have hClose : unlines ["\x7d"] = "\x7d\n" := by decide
  have hFunctions : (i.functions.map (Function.linesBehind "    ")).map unlines =
      i.functions.map Function.renderImplementation := by
    rw [List.map_map]
    exact List.map_congr_left (fun f _ => f.unlines_linesBehind "    ")
  rw [lines, unlines_cons, unlines_cons, unlines_append, unlines_spaced, hFunctions, hClose, render,
    hStart, hOpen]
  simp only [String.append_assoc, String.empty_append]

theorem unlines_useLines (path : String) : unlines (useLines path) = renderUse path := by
  have hUse : "#[allow(unused_imports)]\nuse " =
      "#[allow(unused_imports)]" ++ ("\n" ++ "use ") := by
    rw [← String.toList_inj]
    simp
  have hEnd : ";\n" = ";" ++ "\n" := by decide
  unfold useLines renderUse
  rw [unlines_cons, unlines_cons, unlines_nil, hUse, hEnd]
  simp only [String.append_assoc, String.append_empty]

/-- A module is written line by line. -/
theorem StructModule.render_eq (s : StructModule) : s.render = unlines s.lines := by
  have hAccessors : (s.accessors.map Function.publicLines).map unlines =
      s.accessors.map Function.renderPublic := by
    rw [List.map_map]
    exact List.map_congr_left (fun f _ => f.unlines_publicLines)
  have hHeader : header = "// Generated by schemagen. Do not edit." ++ "\n" := rfl
  have hDerives : derives =
      "#[derive(Debug, Clone, Default, PartialEq, serde::Serialize, serde::Deserialize)]" ++ "\n" :=
    rfl
  have hOpen : " \x7b\n" = " \x7b" ++ "\n" := by decide
  have hClose : "\x7d\n" = "\x7d" ++ "\n" := by decide
  have hApart : "\x7d\n\n" = "\x7d" ++ ("\n" ++ "\n") := by decide
  rw [lines, linesAbove, linesBelow]
  simp only [unlines_append, unlines_flatMap, unlines_spaced, hAccessors, unlines_useLines,
    Field.unlines_lines, Implementation.unlines_lines, unlines_cons, Function.unlines_publicLines,
    unlines_nil, render, hHeader, hDerives, hOpen, hClose, hApart, String.join_cons,
    String.join_nil, String.append_assoc, String.append_empty, String.empty_append]

/-! ## Headings -/

/-- What a line of a module opens: an implementation, told by its whole line, a function of the
struct itself, or a function of one of its capabilities. -/
inductive Heading where
  | implementation (line : String)
  | method (name : String)
  | provided (name : String)
  deriving DecidableEq, Repr

def opens (opening line : String) : Bool :=
  opening.toList.isPrefixOf line.toList

/-- The name in a line, from behind an opening to the parameters. -/
def nameBehind (opening line : String) : String :=
  String.ofList ((line.toList.drop opening.length).takeWhile (· != '('))

def heading? (line : String) : Option Heading :=
  if opens "impl " line then some (.implementation line)
  else if opens "    pub fn " line then some (.method (nameBehind "    pub fn " line))
  else if opens "    fn " line then some (.provided (nameBehind "    fn " line))
  else none

/-- The headings of a text, as its lines have them. -/
def headings (text : String) : List Heading :=
  (lines text).filterMap heading?

theorem headings_unlines (ls : List String) : headings (unlines ls) = ls.flatMap headings := by
  have hEnd : [""].filterMap heading? = [] := by decide
  rw [headings, lines_unlines, List.filterMap_append, hEnd, List.append_nil,
    List.filterMap_flatMap]
  rfl

theorem headings_of_noBreak {line : String} (h : '\n' ∉ line.toList) :
    headings line = (heading? line).toList := by
  rw [headings, lines_of_not_mem h]
  cases hHeading : heading? line <;> simp [hHeading]

theorem headings_eq_nil {line : String} (h : '\n' ∉ line.toList) (hNone : heading? line = none) :
    headings line = [] := by
  rw [headings_of_noBreak h, hNone, Option.toList_none]

theorem headings_impl {line : String} (h : '\n' ∉ line.toList)
    (hImpl : opens "impl " line = true) : headings line = [.implementation line] := by
  rw [headings_of_noBreak h, heading?, hImpl]
  rfl

/-! ## Texts that stay where they are put -/

/-- Every line of the text, but for the first, is a comment by itself. -/
def FitsComment (text : String) : Prop :=
  ∀ line ∈ (lines text).tail, isComment "///" line.toList = true

instance (text : String) : Decidable (FitsComment text) :=
  inferInstanceAs (Decidable (∀ line ∈ _, _))

theorem fitsComment_of_noBreak {text : String} (h : '\n' ∉ text.toList) : FitsComment text := by
  rw [FitsComment, lines_of_not_mem h]
  simp

/-- The texts of a function stay on their lines, and its name ends where its parameters begin. -/
structure Function.Fits (f : Function) : Prop where
  name : '\n' ∉ f.name.toList ∧ '(' ∉ f.name.toList
  parameters : '\n' ∉ f.parameters.toList
  result : '\n' ∉ f.result.toList
  body : ∀ line ∈ f.body, '\n' ∉ line.toList

structure Field.Fits (f : Field) : Prop where
  name : '\n' ∉ f.name.toList ∧ ' ' ∉ f.name.toList
  type : '\n' ∉ f.type.toList
  description : ∀ text ∈ f.description, FitsComment text

structure Implementation.Fits (i : Implementation) : Prop where
  capability : '\n' ∉ i.capability.toList
  functions : ∀ f ∈ i.functions, f.Fits

structure StructModule.Fits (s : StructModule) : Prop where
  name : '\n' ∉ s.name.toList
  requirements : ∀ path ∈ s.requirements, '\n' ∉ path.toList
  fields : ∀ f ∈ s.fields, f.Fits
  functions : ∀ f ∈ s.accessors ++ s.operations,
    f.Fits ∧ ∀ text ∈ f.description, FitsComment text
  implementations : ∀ i ∈ s.implementations, i.Fits

/-! ## The headings of a module -/

theorem heading?_of_isComment {line : String} (h : isComment "///" line.toList = true) :
    heading? line = none := by
  -- Behind its blanks a comment starts with a slash, and no heading does.
  have hNone : ∀ opening ∈ ["impl ", "    pub fn ", "    fn "], opens opening line = false := by
    intro opening hOpening
    rw [← Bool.not_eq_true, opens, List.isPrefixOf_iff_prefix]
    rintro ⟨rest, hLine⟩
    rw [← hLine] at h
    simp only [List.mem_cons, List.not_mem_nil, or_false] at hOpening
    rcases hOpening with rfl | rfl | rfl <;> simp [isComment, List.dropWhile] at h
  simp [heading?, hNone]

theorem headings_description {text : String} (h : FitsComment text) :
    headings ("    /// " ++ text) = [] := by
  have hFirst : ∀ line, heading? ("    /// " ++ line) = none := by
    intro line
    simp [heading?, opens, List.isPrefixOf]
  unfold headings
  rw [lines_append_of_not_mem (by decide)]
  unfold FitsComment at h
  cases hLines : lines text with
  | nil => exact absurd hLines (lines_ne_nil text)
  | cons first rest =>
    rw [hLines, List.tail_cons] at h
    rw [List.modifyHead_cons, List.filterMap_cons_none (hFirst first), List.filterMap_eq_nil_iff]
    exact fun line hLine => heading?_of_isComment (h line hLine)

theorem headings_descriptionLines {description : Option String}
    (h : ∀ text ∈ description, FitsComment text) :
    (descriptionLines description).flatMap headings = [] := by
  cases description with
  | none => rfl
  | some text =>
    rw [descriptionLines, List.flatMap_singleton]
    exact headings_description (h text rfl)

theorem headings_useLines {path : String} (h : '\n' ∉ path.toList) :
    (useLines path).flatMap headings = [] := by
  have hAllow : headings "#[allow(unused_imports)]" = [] :=
    headings_eq_nil (by decide) (by decide)
  have hPath : headings ("use " ++ path ++ ";") = [] :=
    headings_eq_nil (by simp [h]) (by simp [heading?, opens, List.isPrefixOf])
  simp [useLines, hAllow, hPath]

/-- A name without blanks does not begin with a word and a blank. -/
theorem not_isPrefix_of_blank {word name : List Char} (hWord : ':' ∉ word) (hName : ' ' ∉ name)
    (more rest : List Char) : ¬ word ++ ' ' :: more <+: name ++ ':' :: rest := by
  induction word generalizing name with
  | nil =>
    cases name with
    | nil => simp
    | cons c name =>
      have hc : ' ' ≠ c := fun h => hName (h ▸ List.mem_cons_self)
      simp [List.cons_prefix_cons, hc]
  | cons d word ih =>
    cases name with
    | nil =>
      have hd : d ≠ ':' := fun h => hWord (h ▸ List.mem_cons_self)
      simp [List.cons_prefix_cons, hd]
    | cons c name =>
      intro h
      obtain ⟨-, h⟩ := List.cons_prefix_cons.1 h
      exact ih (mt (List.mem_cons_of_mem _) hWord) (mt (List.mem_cons_of_mem _) hName) h

theorem headings_field {f : Field} (h : f.Fits) : f.lines.flatMap headings = [] := by
  obtain ⟨hBreak, hBlank⟩ := h.name
  -- The name ends at a colon, without a blank such as the words of a function have after them.
  let rest := ' ' :: (f.type.toList ++ [','])
  have hPub : opens "    pub fn " f.line = false := by
    have hWord : ':' ∉ "pub".toList := by decide
    simpa [opens, Field.line, ← List.isPrefixOf_iff_prefix]
      using not_isPrefix_of_blank hWord hBlank "fn ".toList rest
  have hFn : opens "    fn " f.line = false := by
    have hWord : ':' ∉ "fn".toList := by decide
    simpa [opens, Field.line, ← List.isPrefixOf_iff_prefix]
      using not_isPrefix_of_blank hWord hBlank [] rest
  have hImpl : opens "impl " f.line = false := by
    simp [opens, Field.line, List.isPrefixOf]
  have hLine : headings f.line = [] :=
    headings_eq_nil (by simp [Field.line, hBreak, h.type]) (by simp [heading?, hPub, hFn, hImpl])
  rw [Field.lines, List.flatMap_append, headings_descriptionLines h.description, List.nil_append,
    List.flatMap_singleton, hLine]

theorem headings_linesBehind {f : Function} (h : f.Fits) {front : String}
    (hFront : '\n' ∉ front.toList) : (f.linesBehind front).flatMap headings =
      (heading? (front ++ f.signature ++ " \x7b")).toList := by
  have hSignature : '\n' ∉ (front ++ f.signature ++ " \x7b").toList := by
    simp [Function.signature, hFront, h.name.1, h.parameters, h.result]
  have hBody : (f.body.map ("        " ++ ·)).flatMap headings = [] := by
    rw [List.flatMap_map, List.flatMap_eq_nil_iff]
    intro line hLine
    exact headings_eq_nil (by simp [h.body line hLine]) (by simp [heading?, opens, List.isPrefixOf])
  have hEnd : headings "    \x7d" = [] := by decide
  rw [Function.linesBehind, List.flatMap_cons, List.flatMap_append, hBody, List.flatMap_singleton,
    hEnd, headings_of_noBreak hSignature, List.append_nil, List.append_nil]

theorem nameBehind_append {name : String} (h : '(' ∉ name.toList) (opening rest : String) :
    nameBehind opening (opening ++ (name ++ ("(" ++ rest))) = name := by
  have hName : ∀ c ∈ name.toList, (c != '(') = true := by
    intro c hc
    exact bne_iff_ne.2 (fun hSame => h (hSame ▸ hc))
  have hLine : (opening ++ (name ++ ("(" ++ rest))).toList.drop opening.length =
      name.toList ++ '(' :: rest.toList := by
    rw [String.toList_append, ← String.length_toList, List.drop_left]
    simp
  rw [nameBehind, hLine, List.takeWhile_append_of_pos hName, List.takeWhile_cons_of_neg (by decide),
    List.append_nil, String.ofList_toList]

theorem heading?_method {f : Function} (h : f.Fits) :
    heading? ("    pub " ++ f.signature ++ " \x7b") = some (.method f.name) := by
  have hLine : "    pub " ++ f.signature ++ " \x7b" =
      "    pub fn " ++ (f.name ++ ("(" ++ (f.parameters ++ ")" ++ f.result ++ " \x7b"))) := by
    have hFn : "    pub fn " = "    pub " ++ "fn " := by decide
    simp only [Function.signature, hFn, String.append_assoc]
  have hOpens : ∀ rest, opens "impl " ("    pub fn " ++ rest) = false ∧
      opens "    pub fn " ("    pub fn " ++ rest) = true := by
    simp [opens, List.isPrefixOf]
  rw [hLine, heading?, (hOpens _).1, (hOpens _).2, nameBehind_append h.name.2]
  rfl

theorem heading?_provided {f : Function} (h : f.Fits) :
    heading? ("    " ++ f.signature ++ " \x7b") = some (.provided f.name) := by
  have hLine : "    " ++ f.signature ++ " \x7b" =
      "    fn " ++ (f.name ++ ("(" ++ (f.parameters ++ ")" ++ f.result ++ " \x7b"))) := by
    have hFn : "    fn " = "    " ++ "fn " := by decide
    simp only [Function.signature, hFn, String.append_assoc]
  have hOpens : ∀ rest, opens "impl " ("    fn " ++ rest) = false ∧
      opens "    pub fn " ("    fn " ++ rest) = false ∧
      opens "    fn " ("    fn " ++ rest) = true := by
    simp [opens, List.isPrefixOf]
  rw [hLine, heading?, (hOpens _).1, (hOpens _).2.1, (hOpens _).2.2, nameBehind_append h.name.2]
  rfl

theorem headings_publicLines {f : Function} (h : f.Fits)
    (hDescription : ∀ text ∈ f.description, FitsComment text) :
    f.publicLines.flatMap headings = [.method f.name] := by
  rw [Function.publicLines, List.flatMap_append, headings_descriptionLines hDescription,
    headings_linesBehind h (by decide), heading?_method h]
  rfl

theorem headings_spaced (blocks : List (List String)) :
    (spaced blocks).flatMap headings = blocks.flatMap (fun block => block.flatMap headings) := by
  have hEmpty : headings "" = [] := by decide
  unfold spaced
  induction blocks with
  | nil => rfl
  | cons block blocks ih =>
    cases blocks with
    | nil => simp
    | cons next blocks =>
      rw [List.intercalate_cons_cons, List.flatMap_append, List.flatMap_append, ih,
        List.flatMap_singleton, hEmpty, List.append_nil]
      rfl

theorem headings_implementation {i : Implementation} (h : i.Fits) {struct : String}
    (hStruct : '\n' ∉ struct.toList) : (i.lines struct).flatMap headings =
      Heading.implementation ("impl " ++ i.capability ++ " for " ++ struct ++ " \x7b") ::
        i.functions.map (fun f => Heading.provided f.name) := by
  have hEmpty : headings "" = [] := by decide
  have hClose : headings "\x7d" = [] := by decide
  have hOpen : headings ("impl " ++ i.capability ++ " for " ++ struct ++ " \x7b") =
      [Heading.implementation ("impl " ++ i.capability ++ " for " ++ struct ++ " \x7b")] :=
    headings_impl (by simp [h.capability, hStruct]) (by simp [opens, List.isPrefixOf])
  have hFunctions : ∀ f ∈ i.functions,
      (f.linesBehind "    ").flatMap headings = [Heading.provided f.name] := by
    intro f hf
    rw [headings_linesBehind (h.functions f hf) (by decide), heading?_provided (h.functions f hf)]
    rfl
  rw [Implementation.lines, List.flatMap_cons, List.flatMap_cons, List.flatMap_append, hEmpty,
    hOpen, headings_spaced, List.flatMap_map, List.flatMap_congr hFunctions,
    List.flatMap_singleton, hClose, List.append_nil, ← List.map_eq_flatMap]
  rfl

namespace StructModule

/-- The names of the functions of the struct itself. -/
def functionNames (s : StructModule) : List String :=
  (s.accessors ++ s.operations).map Function.name

/-- The names of the functions of its capabilities. -/
def capabilityNames (s : StructModule) : List String :=
  s.implementations.flatMap (fun i => i.functions.map Function.name)

theorem headings_linesAbove {s : StructModule} (h : s.Fits) :
    s.linesAbove.flatMap headings = [] := by
  have hHeader : headings "// Generated by schemagen. Do not edit." = [] :=
    headings_eq_nil (by decide) (by decide)
  have hEmpty : headings "" = [] := by decide
  have hDerives : headings
      "#[derive(Debug, Clone, Default, PartialEq, serde::Serialize, serde::Deserialize)]" = [] :=
    headings_eq_nil (by decide) (by decide)
  have hStruct : headings ("pub struct " ++ s.name ++ " \x7b") = [] :=
    headings_eq_nil (by simp [h.name]) (by simp [heading?, opens, List.isPrefixOf])
  have hUses : (s.requirements.flatMap useLines).flatMap headings = [] := by
    rw [List.flatMap_assoc, List.flatMap_eq_nil_iff]
    exact fun path hPath => headings_useLines (h.requirements path hPath)
  have hSuper : (useLines "super::*").flatMap headings = [] := headings_useLines (by decide)
  simp [linesAbove, hHeader, hEmpty, hDerives, hStruct, hUses, hSuper]

theorem headings_accessors {s : StructModule} (h : s.Fits) :
    (spaced (s.accessors.map Function.publicLines)).flatMap headings =
      s.accessors.map (fun f => Heading.method f.name) := by
  rw [headings_spaced, List.flatMap_map, List.map_eq_flatMap]
  refine List.flatMap_congr (fun f hf => ?_)
  obtain ⟨hFits, hDescription⟩ := h.functions f (List.mem_append_left _ hf)
  exact headings_publicLines hFits hDescription

theorem headings_operations {s : StructModule} (h : s.Fits) :
    (s.operations.flatMap (fun f => "" :: f.publicLines)).flatMap headings =
      s.operations.map (fun f => Heading.method f.name) := by
  have hEmpty : headings "" = [] := by decide
  rw [List.flatMap_assoc, List.map_eq_flatMap]
  refine List.flatMap_congr (fun f hf => ?_)
  obtain ⟨hFits, hDescription⟩ := h.functions f (List.mem_append_right _ hf)
  rw [List.flatMap_cons, hEmpty, headings_publicLines hFits hDescription, List.nil_append]

/-- The text of a module opens the struct's own implementation with its functions, and then the
implementations of its capabilities, each with the functions of that capability. -/
theorem headings_render {s : StructModule} (h : s.Fits) : headings s.render =
    Heading.implementation ("impl " ++ s.name ++ " \x7b") :: (s.functionNames.map Heading.method ++
      s.implementations.flatMap (fun i =>
        Heading.implementation ("impl " ++ i.capability ++ " for " ++ s.name ++ " \x7b") ::
          i.functions.map (fun f => Heading.provided f.name))) := by
  have hEmpty : headings "" = [] := by decide
  have hClose : headings "\x7d" = [] := by decide
  have hImpl : headings ("impl " ++ s.name ++ " \x7b") =
      [Heading.implementation ("impl " ++ s.name ++ " \x7b")] :=
    headings_impl (by simp [h.name]) (by simp [opens, List.isPrefixOf])
  have hFields : (s.fields.flatMap Field.lines).flatMap headings = [] := by
    rw [List.flatMap_assoc, List.flatMap_eq_nil_iff]
    exact fun f hf => headings_field (h.fields f hf)
  have hImplementations : (s.implementations.flatMap (Implementation.lines s.name)).flatMap
      headings = s.implementations.flatMap (fun i =>
        Heading.implementation ("impl " ++ i.capability ++ " for " ++ s.name ++ " \x7b") ::
          i.functions.map (fun f => Heading.provided f.name)) := by
    rw [List.flatMap_assoc]
    exact List.flatMap_congr (fun i hi => headings_implementation (h.implementations i hi) h.name)
  rw [render_eq, headings_unlines, lines, List.flatMap_append, List.flatMap_append,
    headings_linesAbove h, hFields, linesBelow, functionNames]
  simp only [List.flatMap_append, List.flatMap_cons, List.flatMap_nil, hEmpty, hClose, hImpl,
    headings_accessors h, headings_operations h, hImplementations, List.map_append, List.map_map,
    List.nil_append, List.append_nil, List.append_assoc, List.singleton_append]
  rfl

end StructModule

/-! ## Modules of structs -/

end Rust

/-- The descriptions of the members stay in their comments. -/
def Struct.FitsComments (s : Struct) : Prop :=
  ∀ m ∈ s.members, ∀ text ∈ m.description, Rust.FitsComment text

instance (s : Struct) : Decidable s.FitsComments :=
  inferInstanceAs (Decidable (∀ m ∈ _, _))

namespace Rust

/-- What the module of a struct takes over as it is stays on its line, or in its comment. Names of
members and operations are rewritten, so they always do. -/
structure FitsLines (s : Struct) : Prop where
  name : '\n' ∉ s.name.toList
  types : ∀ m ∈ s.members, ∀ n, m.type.innermostName? = some n → '\n' ∉ n.toList
  requirements : ∀ r ∈ s.requirements, '\n' ∉ r.path.toList
  members : s.FitsComments
  operations : ∀ f ∈ s.operations, ∀ text ∈ f.description, FitsComment text

theorem fitsLines_iff {s : Struct} : ('\n' ∉ s.name.toList ∧
    (∀ m ∈ s.members, ∀ n ∈ m.type.innermostName?, '\n' ∉ n.toList) ∧
    (∀ r ∈ s.requirements, '\n' ∉ r.path.toList) ∧
    s.FitsComments ∧ ∀ f ∈ s.operations, ∀ text ∈ f.description, FitsComment text) ↔ FitsLines s :=
  ⟨fun h => ⟨h.1, h.2.1, h.2.2.1, h.2.2.2.1, h.2.2.2.2⟩, fun h => ⟨h.1, h.2, h.3, h.4, h.5⟩⟩

instance (s : Struct) : Decidable (FitsLines s) :=
  decidable_of_iff _ fitsLines_iff

/-- The characters that end a line, a name of a field or a name of a function. -/
def nameEnds : List Char := ['\n', ' ', '(']

theorem not_mem_snakeCase_of_end {c : Char} (hc : c ∈ nameEnds) (name : String) :
    c ∉ (snakeCase name).toList := by
  have hEnds : ∀ c ∈ nameEnds, isWordChar c = false ∧ c ≠ '_' := by
    simp only [nameEnds, List.forall_mem_cons, List.not_mem_nil, false_implies, implies_true]
    decide
  exact not_mem_snakeCase (hEnds c hc).1 (hEnds c hc).2 name

theorem not_mem_identifier {c : Char} (hc : c ∈ nameEnds) (name : String) :
    c ∉ (identifier name).toList := by
  have hEnds : ∀ c ∈ nameEnds, c ≠ '_' ∧ c ≠ 'r' ∧ c ≠ '#' := by simp [nameEnds]
  have hOther := hEnds c hc
  have hSnake := not_mem_snakeCase_of_end hc name
  unfold identifier
  simp only
  split
  · simp [hSnake, hOther.1]
  · split <;> simp [hSnake, hOther]

theorem break_not_mem_typeName {type : TypeExpr}
    (h : ∀ n, type.innermostName? = some n → '\n' ∉ n.toList) : '\n' ∉ (typeName type).toList := by
  induction type with
  | scalar s => cases s <;> decide
  | named name => exact h name rfl
  | array element ih => simp [typeName, ih h]

theorem break_not_mem_fieldType (model : Model) {m : Member}
    (h : ∀ n, m.type.innermostName? = some n → '\n' ∉ n.toList) :
    '\n' ∉ (fieldType model m).toList := by
  have hPresent : '\n' ∉ (presentType model m).toList := by
    unfold presentType
    split
    · rename_i name hType
      have hName := h name (by rw [hType]; rfl)
      split
      · split <;> simp [hName]
      · exact hName
    · exact break_not_mem_typeName h
  unfold fieldType
  split <;> simp [hPresent]

theorem name_ofOperation (s : Struct) (f : Operation) :
    (Function.ofOperation s f).name = identifier f.name := by
  unfold Function.ofOperation
  cases f.role <;> simp only

theorem description_ofOperation (s : Struct) (f : Operation) :
    (Function.ofOperation s f).description = f.description := by
  unfold Function.ofOperation
  cases f.role <;> simp only

section Struct

variable {s : Struct} (h : FitsLines s)

include h

theorem FitsLines.break_not_mem_storeOf (owner : Owner) : '\n' ∉ (storeOf s owner).toList := by
  unfold storeOf
  split
  · rename_i r hFound
    exact h.requirements r (List.mem_of_find?_eq_some hFound)
  · decide

theorem FitsLines.fits_ofOperation (f : Operation) : (Function.ofOperation s f).Fits := by
  have hName : ∀ name c, c ∈ nameEnds → c ∉ (identifier name).toList :=
    fun name c hc => not_mem_identifier hc name
  have hStore := h.break_not_mem_storeOf f.owner
  simp only [nameEnds] at hName
  unfold Function.ofOperation
  cases f.role <;> constructor <;> simp [hName, hStore]

theorem FitsLines.fits_hookCall {receiver : String} (hReceiver : '\n' ∉ receiver.toList)
    {hook : Hook} {call : String} {store : Option String}
    (hCall : hookCall? s receiver hook = some (call, store)) :
    '\n' ∉ call.toList ∧ ∀ library ∈ store, '\n' ∉ library.toList := by
  have hName : ∀ name, '\n' ∉ (identifier name).toList := not_mem_identifier (by decide)
  obtain ⟨f, -, hCall⟩ := Option.bind_eq_some_iff.1 hCall
  have hStore := h.break_not_mem_storeOf f.owner
  simp only at hCall
  cases hRole : f.role <;>
    simp only [hRole, Option.some.injEq, Prod.mk.injEq, reduceCtorEq] at hCall
  all_goals
    obtain ⟨rfl, rfl⟩ := hCall
    simp [hName, hReceiver, hStore]

theorem FitsLines.fits_hookCalls {receiver : String} (hReceiver : '\n' ∉ receiver.toList)
    (point : HookPoint) : (∀ call ∈ (HookCalls.at s point receiver).calls, '\n' ∉ call.toList) ∧
      ∀ library ∈ (HookCalls.at s point receiver).store, '\n' ∉ library.toList := by
  constructor
  · intro call hCall
    obtain ⟨made, hMade, rfl⟩ := List.mem_map.1 hCall
    obtain ⟨hook, -, hMade⟩ := List.mem_filterMap.1 hMade
    obtain ⟨⟨call, store⟩, hHook, rfl⟩ := Option.map_eq_some_iff.1 hMade
    exact (h.fits_hookCall hReceiver hHook).1
  · intro library hLibrary
    obtain ⟨made, hMade, hStore⟩ := List.exists_of_findSome?_eq_some hLibrary
    obtain ⟨hook, -, hMade⟩ := List.mem_filterMap.1 hMade
    obtain ⟨⟨call, store⟩, hHook, rfl⟩ := Option.map_eq_some_iff.1 hMade
    exact (h.fits_hookCall hReceiver hHook).2 library hStore

end Struct

section Accessors

variable {hooks : HookCalls} (hCalls : ∀ call ∈ hooks.calls, '\n' ∉ call.toList)
  (hStore : ∀ library ∈ hooks.store, '\n' ∉ library.toList) {m : Member}
  (hType : ∀ n, m.type.innermostName? = some n → '\n' ∉ n.toList)

include hCalls hStore hType

theorem fits_getter (model : Model) (taken : List String) : (getter model taken hooks m).Fits := by
  have hField : '\n' ∉ (identifier m.name).toList := not_mem_identifier (by decide) _
  have hFieldType := break_not_mem_fieldType model hType
  have hName : ∀ c ∈ nameEnds, c ∉ (getterName taken m).toList := by
    intro c hc
    have hWord : ∀ c ∈ nameEnds, c ∉ "get_".toList := by simp [nameEnds]
    unfold getterName
    simp only
    split
    · rw [String.toList_append, List.mem_append, not_or]
      exact ⟨hWord c hc, not_mem_snakeCase_of_end hc m.name⟩
    · exact not_mem_identifier hc m.name
  refine ⟨⟨hName _ (by decide), hName _ (by decide)⟩, ?_, ?_, ?_⟩
  · unfold getter
    simp only
    split <;> decide
  · unfold getter
    cases hLibrary : hooks.store with
    | none => simp [hFieldType]
    | some store => simp [hFieldType, hStore store hLibrary]
  · refine List.forall_mem_append.2 ⟨hCalls, ?_⟩
    cases hooks.store <;> simp [hField]

theorem fits_setter (model : Model) : (setter model hooks m).Fits := by
  have hField : '\n' ∉ (identifier m.name).toList := not_mem_identifier (by decide) _
  have hFieldType := break_not_mem_fieldType model hType
  have hName : ∀ c ∈ nameEnds, c ∉ (setterName m).toList := by
    intro c hc
    have hWord : ∀ c ∈ nameEnds, c ∉ "set_".toList := by simp [nameEnds]
    rw [setterName, String.toList_append, List.mem_append, not_or]
    exact ⟨hWord c hc, not_mem_snakeCase_of_end hc m.name⟩
  refine ⟨⟨hName _ (by decide), hName _ (by decide)⟩, by simp [setter, hFieldType], ?_, ?_⟩
  · unfold setter
    cases hLibrary : hooks.store with
    | none => simp
    | some store => simp [hStore store hLibrary]
  · refine List.forall_mem_append.2 ⟨?_, ?_⟩
    · split
      · simp [hField]
      · simpa [or_imp, forall_and, hField] using hCalls
    · split <;> simp

end Accessors

theorem FitsLines.fits_ofStruct {s : Struct} (h : FitsLines s) {registry : Registry}
    (hCapabilities : ∀ c ∈ registry.capabilities, '\n' ∉ c.name.toList) (model : Model) :
    (StructModule.ofStruct registry model s).Fits := by
  have hSelf : '\n' ∉ "self".toList := by decide
  have hNext : '\n' ∉ "next".toList := by decide
  have hGetters := h.fits_hookCalls hSelf .beforeGetter
  have hSetters := h.fits_hookCalls hNext .beforeSetter
  have hNone : ∀ text ∈ (none : Option String), FitsComment text := by simp
  refine ⟨h.name, ?_, ?_, ?_, ?_⟩
  · intro path hPath
    obtain ⟨r, hr, rfl⟩ := List.mem_map.1 hPath
    exact h.requirements r hr
  · intro f hf
    obtain ⟨m, hm, rfl⟩ := List.mem_map.1 hf
    refine ⟨?_, break_not_mem_fieldType model (h.types m hm), h.members m hm⟩
    dsimp only
    exact ⟨not_mem_identifier (by decide) _, not_mem_identifier (by decide) _⟩
  · intro f hf
    rcases List.mem_append.1 hf with hf | hf
    · obtain ⟨m, hm, hf⟩ := List.mem_flatMap.1 hf
      rcases List.mem_cons.1 hf with rfl | hf
      · exact ⟨fits_getter hGetters.1 hGetters.2 (h.types m hm) model _, hNone⟩
      · obtain rfl := List.mem_singleton.1 hf
        exact ⟨fits_setter hSetters.1 hSetters.2 (h.types m hm) model, hNone⟩
    · obtain ⟨g, hg, rfl⟩ := List.mem_map.1 hf
      refine ⟨h.fits_ofOperation g, ?_⟩
      rw [description_ofOperation]
      exact h.operations g (List.mem_filter.1 hg).1
  · intro i hi
    obtain ⟨c, hc, rfl⟩ := List.mem_map.1 hi
    obtain ⟨mark, -, hFound⟩ := List.mem_filterMap.1 hc
    refine ⟨hCapabilities c (List.mem_of_find?_eq_some hFound), ?_⟩
    intro f hf
    obtain ⟨g, -, rfl⟩ := List.mem_map.1 hf
    exact h.fits_ofOperation g

/-- The capabilities of a struct are read off the text of its module, each with its operations. -/
theorem FitsLines.headings_ofStruct {s : Struct} (h : FitsLines s) {registry : Registry}
    (hCapabilities : ∀ c ∈ registry.capabilities, '\n' ∉ c.name.toList) (model : Model) :
    headings (StructModule.ofStruct registry model s).render =
      Heading.implementation ("impl " ++ s.name ++ " \x7b") ::
        ((StructModule.ofStruct registry model s).functionNames.map Heading.method ++
          (capabilitiesOf registry s).flatMap (fun c =>
            Heading.implementation ("impl " ++ c.name ++ " for " ++ s.name ++ " \x7b") ::
              c.interface.operations.map (fun f => Heading.provided (identifier f.name)))) := by
  rw [StructModule.headings_render (h.fits_ofStruct hCapabilities model)]
  simp only [StructModule.ofStruct, List.flatMap_map, List.map_map, Function.comp_def,
    name_ofOperation]

end Rust

end EntitySchema
