import EntitySchema.Proofs.Lexing
import EntitySchema.Proofs.PathResolution
import Mathlib.Data.List.Nodup
import Mathlib.Logic.Relation

/-!
The files that include each other, as a graph, and reading as a traversal of it. Where there are
links, an inclusion may lead to another file if the including file is opened by another path, so the
graph is that of the files as they were opened. The main result is that reading a file parses no
file twice, that a success has parsed exactly the files that can be reached, which then form no
cycle, and that an inclusion that is refused as a cycle is on one.
-/

namespace EntitySchema

open EntitySchema.Derivation Grammar Relation

/-! ## The paths that a file includes -/

/-- A model in which every text of the tokens may be a type, and every name is new. -/
def permissive (ts : List Token) : Model :=
  { pending := ts.map Token.text }

/-- The paths that declarations include, in their order. Which names are types is left open. -/
def directives (ts : List Token) : List String :=
  match ts with
  | [] => []
  | t :: rest =>
    match _h : declaration (permissive (t :: rest)) t rest with
    | .error _ => []
    | .ok (d, after) => (written? d).toList ++ directives after
termination_by ts.length
decreasing_by
  have := declaration_shorter _h
  simp only [List.length_cons]
  omega

/-- The paths that a text includes, up to where it is no schema. -/
def directivesOf (text : String) : List String :=
  match tokenize "" text with
  | .error _ => []
  | .ok ts => directives ts

/-- The file that the path leads to includes the one at `b` when it is opened by this path. -/
def IncludesBy (files : FileSystem) (path : Path) (b : Location) : Prop :=
  ∃ text written, files.readText path = .ok text ∧ written ∈ directivesOf text ∧
    files.resolve (Reader.target path written) = .ok b

/-- The file at `a` includes the one at `b`, as the files were opened. -/
def IncludesAsOpened (files : FileSystem) (opened : List Reader.Opening) (a b : Location) : Prop :=
  ∃ path, (path, a) ∈ opened ∧ IncludesBy files path b

/-- The file at `a` includes the one at `b`, by some path to it. -/
def Includes (files : FileSystem) (a b : Location) : Prop :=
  ∃ path, files.resolve path = .ok a ∧ IncludesBy files path b

/-- Where an inclusion leads does not depend on the path to the file that it is in. -/
def FileSystem.Uniform (files : FileSystem) : Prop :=
  ∀ {p q : Path} {l b c : Location} {text written : String}, files.resolve p = .ok l →
    files.resolve q = .ok l → files.text? l = some text →
    files.resolve (Reader.target p written) = .ok b →
    files.resolve (Reader.target q written) = .ok c → b = c

/-- Without links, an inclusion leads to the same file by all paths. -/
theorem FileTree.WellFormed.uniform {tree : FileTree} (h : tree.WellFormed) :
    tree.system.Uniform := by
  intro p q l b c text written hp hq hText hb hc
  have hEntry := FileTree.entry?_of_text? hText
  have hb := FileTree.resolveFrom_eq_ok h hp hEntry hb
  rw [FileTree.resolveFrom_eq_ok h hq hEntry hc] at hb
  exact (Except.ok.inj hb).symm

theorem admits_permissive {model : Model} {ts us : List Token} (h : SameText ts us) :
    Admits model (permissive us) ts := by
  refine ⟨?_, ?_⟩
  · intro t ht _
    simp [Model.isTypeName, permissive, h.map_text, List.mem_map_of_mem ht]
  · intro t _ _
    simp [Model.isDeclared, Model.hasStruct, Model.hasEnum, permissive]

/-- What is read as a declaration counts as one, and with the path it includes, if there is one. -/
theorem directives_step {model : Model} {t : Token} {ts us rest : List Token} {d : Declaration}
    (h : declaration model t ts = .ok (d, rest)) (hs : SameText (t :: ts) us)
    (hw : WordsNonempty (t :: ts)) :
    ∃ rest', SameText rest rest' ∧ directives us = (written? d).toList ++ directives rest' := by
  obtain _ | ⟨p, hs'⟩ := hs
  rename_i us
  obtain ⟨d', rest', hd', hPlaces, hRest⟩ :=
    declaration_congr h (SameText.cons p hs') hw (admits_permissive (SameText.cons p hs'))
  have hWritten : written? d' = written? d := by
    rw [← written?_unplaced, hPlaces, written?_unplaced]
  refine ⟨rest', hRest, ?_⟩
  rw [directives]
  split
  · rename_i e he
    rw [hd'] at he
    cases he
  · rename_i d'' after he
    rw [hd'] at he
    cases he
    rw [hWritten]

theorem includePath_suffix {ts rest : List Token} {written : String}
    (h : includePath ts = .ok (written, rest)) : rest <:+ ts := by
  induction ts generalizing written rest with
  | nil => cases h
  | cons t ts ih =>
    simp only [includePath] at h
    split at h
    · obtain ⟨rfl, rfl⟩ : "" = written ∧ ts = rest := by simpa using h
      exact List.suffix_cons t ts
    · obtain ⟨⟨text, after⟩, hMore, h⟩ := bind_eq_ok_iff.1 h
      obtain ⟨_, rfl⟩ : t.text ++ text = written ∧ after = rest := by simpa using h
      exact (ih hMore).trans (List.suffix_cons t ts)

theorem declaration_suffix {model : Model} {t : Token} {ts rest : List Token} {d : Declaration}
    (h : declaration model t ts = .ok (d, rest)) : rest <:+ t :: ts := by
  rcases declaration_cases h with ⟨_, used, _, hUsed, _⟩ | ⟨_, used, _, hUsed, _⟩ |
    ⟨used, _, hUsed, _⟩ | ⟨path, _, ht⟩
  · exact ⟨used, hUsed.symm⟩
  · exact ⟨used, hUsed.symm⟩
  · exact ⟨used, hUsed.symm⟩
  · obtain ⟨_, hPath, _⟩ := (declaration_include ht).1 h
    exact (includePath_suffix hPath).trans (List.suffix_cons t ts)

/-! ## Orders of files -/

/-- Each file comes after those it includes, and only once. -/
inductive Ordered (E : Location → Location → Prop) : List Location → Prop
  | nil : Ordered E []
  | snoc {l : List Location} {x : Location} :
      Ordered E l → x ∉ l → (∀ y, E x y → y ∈ l) → Ordered E (l ++ [x])

namespace Ordered

variable {E : Location → Location → Prop} {l : List Location} {x y : Location}

theorem mem_of_edge (h : Ordered E l) (hx : x ∈ l) (hxy : E x y) : y ∈ l := by
  induction h with
  | nil => cases hx
  | @snoc l z _ _ hz ih =>
    rw [List.mem_append, List.mem_singleton] at hx ⊢
    rcases hx with hx | rfl
    · exact Or.inl (ih hx)
    · exact Or.inl (hz y hxy)

theorem closed (h : Ordered E l) (hx : x ∈ l) (hxy : ReflTransGen E x y) : y ∈ l := by
  induction hxy with
  | refl => exact hx
  | tail _ hyz ih => exact h.mem_of_edge ih hyz

theorem acyclic (h : Ordered E l) (hx : x ∈ l) : ¬ TransGen E x x := by
  induction h with
  | nil => exact fun _ => nomatch hx
  | @snoc l z hl hNew hz ih =>
    rw [List.mem_append, List.mem_singleton] at hx
    rcases hx with hx | rfl
    · exact ih hx
    · -- What the last file reaches is before it.
      intro hCycle
      obtain ⟨y, hxy, hyx⟩ := TransGen.head'_iff.1 hCycle
      exact hNew (hl.closed (hz y hxy) hyx)

end Ordered

/-! ## Runs -/

namespace Reader

variable {files : FileSystem} {task : Task} {r : Reader} {parsed : List Opening} {o : Outcome}
  {E : Location → Location → Prop}

/-- A file is finished once for each time it is parsed. -/
theorem Runs.finished_perm (h : Runs files task r parsed o) :
    o.1.finished.Perm (r.finished ++ parsed.map Prod.snd) := by
  induction h with
  | included _ _ _ ih1 ih2 =>
    rw [List.map_append, ← List.append_assoc]
    exact ih2.trans (ih1.append_right _)
  | @parsed path l r text parsed o _ _ ih =>
    calc o.1.finished ++ [l]
      _ |>.Perm ((r.finished ++ parsed.map Prod.snd) ++ [l]) := ih.append_right [l]
      _ |>.Perm (r.finished ++ l :: parsed.map Prod.snd) := by
        rw [List.append_assoc]
        exact List.Perm.append_left _ List.perm_append_comm
  | struct _ _ ih | enumeration _ _ ih | config _ _ ih | notIncluded _ _ ih | tokens _ _ ih
  | opened _ _ _ _ ih | pathOpened _ _ _ ih => exact ih
  | _ => simp

theorem Runs.finished_subset (h : Runs files task r parsed o) : r.finished ⊆ o.1.finished := by
  intro x hx
  rw [h.finished_perm.mem_iff]
  exact List.mem_append_left _ hx

/-- The file that a task is about has not been opened. -/
def Unopened (r : Reader) : Task → Prop
  | .file _ l => l ∉ r.reading ∧ l ∉ r.finished
  | .path _ => r.reading = []
  | _ => True

/-- No file is parsed that is being read or finished, and none twice. -/
theorem Runs.parsed_nodup (h : Runs files task r parsed o) (hTask : Unopened r task) :
    (parsed.map Prod.snd).Nodup ∧
      ∀ x ∈ parsed.map Prod.snd, x ∉ r.reading ∧ x ∉ r.finished := by
  induction h with
  | @included file r r' t ts rest position written parsed more o _ hInclusion _ ih1 ih2 =>
    obtain ⟨hNodup, hNew⟩ := ih1 trivial
    obtain ⟨hNodup', hNew'⟩ := ih2 trivial
    -- What the inclusion parsed is finished when the declarations after it are read.
    have hFinished : ∀ x, x ∈ r'.finished ↔ x ∈ r.finished ∨ x ∈ parsed.map Prod.snd := by
      intro x
      rw [hInclusion.finished_perm.mem_iff, List.mem_append]
    rw [List.map_append]
    refine ⟨List.nodup_append.2 ⟨hNodup, hNodup', ?_⟩, ?_⟩
    · rintro x hx y hy rfl
      exact (hNew' x hy).2 ((hFinished x).2 (Or.inr hx))
    · intro x hx
      rcases List.mem_append.1 hx with hx | hx
      · exact hNew x hx
      · rw [← hInclusion.reading_eq]
        exact ⟨(hNew' x hx).1, fun h => (hNew' x hx).2 ((hFinished x).2 (Or.inl h))⟩
  | @parsed path l r text parsed o _ _ ih =>
    -- While the file is parsed it is being read, so nothing inside it parses it again.
    obtain ⟨hNodup, hNew⟩ := ih trivial
    rw [List.map_cons]
    refine ⟨List.nodup_cons.2 ⟨?_, hNodup⟩, List.forall_mem_cons.2 ⟨hTask, ?_⟩⟩
    · intro hl
      exact (hNew l hl).1 (by simp)
    · intro x hx
      obtain ⟨hReading, hFinished⟩ := hNew x hx
      exact ⟨fun h => hReading (by simp [h]), hFinished⟩
  | opened _ hReading hFinished _ ih => exact ih ⟨hReading, hFinished⟩
  | @pathOpened path r l parsed o _ hFinished _ ih =>
    have hReading : r.reading = [] := hTask
    exact ih ⟨by simp [hReading], hFinished⟩
  | struct _ _ ih | enumeration _ _ ih | config _ _ ih | notIncluded _ _ ih | tokens _ _ ih =>
    exact ih trivial
  | _ => simp

/-- A file is read by a path that leads to it. -/
def Located (files : FileSystem) : Task → Prop
  | .file path l => files.resolve path = .ok l
  | _ => True

/-- A file is parsed by a path that leads to it, and has a text. -/
theorem Runs.parsed_located (h : Runs files task r parsed o) (hTask : Located files task) :
    ∀ x ∈ parsed, files.resolve x.1 = .ok x.2 ∧ ∃ text, files.readText x.1 = .ok text := by
  induction h with
  | included _ _ _ ih1 ih2 =>
    intro x hx
    exact (List.mem_append.1 hx).elim (ih1 trivial x) (ih2 trivial x)
  | @parsed path l r text parsed o ht _ ih =>
    exact List.forall_mem_cons.2 ⟨⟨hTask, text, ht⟩, ih trivial⟩
  | struct _ _ ih | enumeration _ _ ih | config _ _ ih | notIncluded _ _ ih | tokens _ _ ih =>
    exact ih trivial
  | opened hl _ _ _ ih | pathOpened hl _ _ ih => exact ih hl
  | _ => simp

/-! ## What is reached -/

/-- The task is part of reading the file at `a`, and what it includes is next to `a` in the graph.
-/
def Concerns (files : FileSystem) (E : Location → Location → Prop) (a : Location) : Task → Prop
  | .declarations file ts => WordsNonempty ts ∧ ∃ us, SameText ts us ∧
      ∀ w ∈ directives us, ∀ b, files.resolve (target file w) = .ok b → E a b
  | .source text file =>
      ∀ w ∈ directivesOf text, ∀ b, files.resolve (target file w) = .ok b → E a b
  | .file _ l => l = a
  | .inclusion _ path => ∀ b, files.resolve path = .ok b → E a b
  | .path path => ∀ b, files.resolve path = .ok b → b = a

section

variable {a l : Location} {file path : Path} {text : String} {t : Token} {ts rest : List Token}
  {d : Declaration} {model : Model}

theorem Concerns.next (hc : Concerns files E a (.declarations file (t :: ts)))
    (hd : declaration model t ts = .ok (d, rest)) :
    Concerns files E a (.declarations file rest) := by
  obtain ⟨hw, us, hs, hEdge⟩ := hc
  obtain ⟨rest', hRest, hDirectives⟩ := directives_step hd hs hw
  refine ⟨fun t ht => hw t ((declaration_suffix hd).mem ht), rest', hRest, ?_⟩
  intro w hw
  exact hEdge w (by rw [hDirectives]; exact List.mem_append_right _ hw)

theorem Concerns.inclusion {position position' : Position} {written : String}
    (hc : Concerns files E a (.declarations file (t :: ts)))
    (hd : declaration model t ts = .ok (.includes position' written, rest)) :
    Concerns files E a (.inclusion position (target file written)) := by
  obtain ⟨hw, us, hs, hEdge⟩ := hc
  obtain ⟨rest', hRest, hDirectives⟩ := directives_step hd hs hw
  refine hEdge written ?_
  rw [hDirectives]
  exact List.mem_append_left _ List.mem_cons_self

/-- The paths that a text includes, read off its tokens. -/
theorem directivesOf_tokens {name : String} (ht : tokenize name text = .ok ts) :
    ∃ us, SameText ts us ∧ directivesOf text = directives us := by
  obtain ⟨us, hus, hs⟩ := Lexer.tokensFrom_congr "" Lexer.Cursor.start ht
  refine ⟨us, hs, ?_⟩
  have hTokens : tokenize "" text = .ok us := hus
  simp [directivesOf, hTokens]

theorem Concerns.declarations (hc : Concerns files E a (.source text file))
    (ht : tokenize file.text text = .ok ts) : Concerns files E a (.declarations file ts) := by
  obtain ⟨us, hs, hDirectives⟩ := directivesOf_tokens ht
  exact ⟨Lexer.tokensFrom_wordsNonempty ht, us, hs, hDirectives ▸ hc⟩

theorem Concerns.source (ht : files.readText path = .ok text)
    (hE : ∀ b, IncludesBy files path b → E l b) : Concerns files E l (.source text path) :=
  fun w hw b hb => hE b ⟨text, w, ht, hw, hb⟩

end

/-- Every file that is parsed can be reached. -/
theorem Runs.reachable {a : Location} (h : Runs files task r parsed o)
    (hE : ∀ x ∈ parsed, ∀ b, IncludesBy files x.1 b → E x.2 b) (hc : Concerns files E a task) :
    ∀ x ∈ parsed, ReflTransGen E a x.2 := by
  induction h generalizing a with
  | struct hd _ ih | enumeration hd _ ih | config hd _ ih => exact ih hE (hc.next hd)
  | included hd _ _ ih1 ih2 =>
    rw [List.forall_mem_append] at hE ⊢
    exact ⟨ih1 hE.1 (hc.inclusion hd), ih2 hE.2 (hc.next hd)⟩
  | notIncluded hd _ ih => exact ih hE (hc.inclusion hd)
  | tokens ht _ ih => exact ih hE (hc.declarations ht)
  | parsed ht _ ih =>
    obtain rfl := hc
    rw [List.forall_mem_cons] at hE ⊢
    exact ⟨ReflTransGen.refl, ih hE.2 (.source ht hE.1)⟩
  | @opened position path r l parsed o hl _ _ _ ih =>
    intro x hx
    exact ReflTransGen.head (hc l hl) (ih hE rfl x hx)
  | @pathOpened path r l parsed o hl _ _ ih => exact ih hE (hc l hl)
  | _ => simp

/-- An inclusion that is refused as a cycle closes one: the file is being read, and so leads to the
one that includes it. -/
theorem Runs.cycle_of_includeCycle {a : Location} {position : Position} {path : Path}
    (h : Runs files task r parsed o) (hE : ∀ x ∈ parsed, ∀ b, IncludesBy files x.1 b → E x.2 b)
    (hc : Concerns files E a task) (hStack : ∀ x ∈ r.reading, ReflTransGen E x a)
    (ho : o.2 = .error (.includeCycle position path)) :
    ∃ x, files.resolve path = .ok x ∧ TransGen E x x := by
  induction h generalizing a with
  | struct hd _ ih | enumeration hd _ ih | config hd _ ih => exact ih hE (hc.next hd) hStack ho
  | included hd hInclusion _ _ ih2 =>
    exact ih2 (List.forall_mem_append.1 hE).2 (hc.next hd) (hInclusion.reading_eq ▸ hStack) ho
  | notIncluded hd _ ih => exact ih hE (hc.inclusion hd) hStack ho
  | tokens ht _ ih => exact ih hE (hc.declarations ht) hStack ho
  | @parsed path l r text parsed o ht _ ih =>
    obtain rfl := hc
    rw [List.forall_mem_cons] at hE
    refine ih hE.2 (.source ht hE.1) ?_ ho
    intro x hx
    rcases List.mem_append.1 hx with hx | hx
    · exact hStack x hx
    · rw [List.mem_singleton.1 hx]
  | @cycle position path r l hl hMem =>
    cases ho
    -- From the open file to the one that includes it, and back by this inclusion.
    exact ⟨l, hl, TransGen.tail' (hStack l hMem) (hc l hl)⟩
  | @opened position path r l parsed o hl _ _ _ ih =>
    -- Every open file leads to the including one, and so to the one that is opened now.
    exact ih hE rfl (fun x hx => (hStack x hx).tail (hc l hl)) ho
  | @pathOpened path r l parsed o hl _ _ ih => exact ih hE (hc l hl) hStack ho
  | nil | noTokens | unreadable | missing | skipped | notFound | pathSkipped | refused => cases ho

/-! ## What is finished -/

/-- The path that is included in a file leads to a finished one. -/
def Led (files : FileSystem) (finished : List Location) (file : Path) (written : String) : Prop :=
  ∃ b ∈ finished, files.resolve (target file written) = .ok b

/-- What is finished when a task has ended without an error. -/
def Settles (files : FileSystem) (finished : List Location) : Task → Prop
  | .declarations file ts => WordsNonempty ts → ∀ us, SameText ts us →
      ∀ w ∈ directives us, Led files finished file w
  | .source text file => ∀ w ∈ directivesOf text, Led files finished file w
  | .file _ l => l ∈ finished
  | .inclusion _ path => ∃ b ∈ finished, files.resolve path = .ok b
  | .path path => ∃ b ∈ finished, files.resolve path = .ok b

theorem Led.mono {finished finished' : List Location} {file : Path} {written : String}
    (h : Led files finished file written) (hSub : finished ⊆ finished') :
    Led files finished' file written := by
  obtain ⟨b, hb, hResolve⟩ := h
  exact ⟨b, hSub hb, hResolve⟩

/-- A declaration adds nothing to what has to be finished but the path that it includes. -/
theorem Settles.cons {finished : List Location} {file : Path} {model : Model} {t : Token}
    {ts rest : List Token} {d : Declaration} (hd : declaration model t ts = .ok (d, rest))
    (hWritten : ∀ w, written? d = some w → Led files finished file w)
    (hs : Settles files finished (.declarations file rest)) :
    Settles files finished (.declarations file (t :: ts)) := by
  intro hWords us hus w hw
  obtain ⟨rest', hRest, hDirectives⟩ := directives_step hd hus hWords
  rw [hDirectives, List.mem_append, Option.mem_toList] at hw
  rcases hw with hw | hw
  · exact hWritten w hw
  · exact hs (fun u hu => hWords u ((declaration_suffix hd).mem hu)) rest' hRest w hw

/-- A run without an error finishes what its task includes. -/
theorem Runs.settles (h : Runs files task r parsed o) (ho : o.2 = .ok ()) :
    Settles files o.1.finished task := by
  induction h with
  | nil =>
    intro _ us hus w hw
    cases hus
    simp [directives] at hw
  | struct hd _ ih | enumeration hd _ ih | config hd _ ih =>
    exact Settles.cons hd (fun _ hw => nomatch hw) (ih ho)
  | @included file r r' t ts rest position written parsed more o hd _ hRest ih1 ih2 =>
    refine Settles.cons hd ?_ (ih2 ho)
    intro w hw
    obtain rfl := Option.some.inj hw
    exact Led.mono (ih1 rfl) hRest.finished_subset
  | tokens ht _ ih =>
    obtain ⟨us, hs, hDirectives⟩ := directivesOf_tokens ht
    intro w hw
    exact ih ho (Lexer.tokensFrom_wordsNonempty ht) us hs w (hDirectives ▸ hw)
  | parsed => exact List.mem_append_right _ List.mem_cons_self
  | @skipped position path r l hl _ hFinished | @pathSkipped path r l hl hFinished =>
    exact ⟨l, hFinished, hl⟩
  | @opened position path r l parsed o hl _ _ _ ih
  | @pathOpened path r l parsed o hl _ _ ih => exact ⟨l, ih ho, hl⟩
  | refused | notIncluded | noTokens | unreadable | missing | cycle | notFound => cases ho

/-- After a run without an error, all that the parsed files include is finished. -/
theorem Runs.led (h : Runs files task r parsed o) (ho : o.2 = .ok ()) :
    ∀ x ∈ parsed, ∀ text, files.readText x.1 = .ok text → ∀ w ∈ directivesOf text,
      Led files o.1.finished x.1 w := by
  induction h with
  | included _ _ hRest ih1 ih2 =>
    rw [List.forall_mem_append]
    refine ⟨?_, ih2 ho⟩
    intro x hx text ht w hw
    exact (ih1 rfl x hx text ht w hw).mono hRest.finished_subset
  | @parsed path l r text parsed o ht hSource ih =>
    have hMore : o.1.finished ⊆ o.1.finished ++ [l] := List.subset_append_left _ _
    rw [List.forall_mem_cons]
    constructor
    · intro text' ht' w hw
      obtain rfl : text = text' := Except.ok.inj (ht.symm.trans ht')
      exact (hSource.settles ho w hw).mono hMore
    · intro x hx text ht w hw
      exact (ih ho x hx text ht w hw).mono hMore
  | struct _ _ ih | enumeration _ _ ih | config _ _ ih | tokens _ _ ih | opened _ _ _ _ ih
  | pathOpened _ _ _ ih => exact ih ho
  | notIncluded => cases ho
  | _ => simp

/-- A run without an error finishes each file after those it includes. -/
theorem Runs.ordered (h : Runs files task r parsed o)
    (hE : ∀ x ∈ parsed, ∀ b, E x.2 b → IncludesBy files x.1 b) (hTask : Unopened r task)
    (ho : o.2 = .ok ()) (hr : Ordered E r.finished) : Ordered E o.1.finished := by
  induction h with
  | struct _ _ ih | enumeration _ _ ih | config _ _ ih | tokens _ _ ih =>
    exact ih hE trivial ho hr
  | included _ _ _ ih1 ih2 =>
    rw [List.forall_mem_append] at hE
    exact ih2 hE.2 trivial ho (ih1 hE.1 trivial rfl hr)
  | @parsed path l r text parsed o ht hSource ih =>
    rw [List.forall_mem_cons] at hE
    have hNew : l ∉ o.1.finished := by
      obtain ⟨_, hNew⟩ := hSource.parsed_nodup trivial
      rw [hSource.finished_perm.mem_iff, List.mem_append]
      rintro (hMem | hMem)
      · exact hTask.2 hMem
      · exact (hNew l hMem).1 (by simp)
    refine Ordered.snoc (ih hE.2 trivial ho hr) hNew ?_
    intro y hy
    obtain ⟨text', w, ht', hw, hResolve⟩ := hE.1 y hy
    obtain rfl : text = text' := Except.ok.inj (ht.symm.trans ht')
    obtain ⟨b, hb, hLed⟩ := hSource.settles ho w hw
    exact Except.ok.inj (hLed.symm.trans hResolve) ▸ hb
  | opened _ hReading hFinished _ ih => exact ih hE ⟨hReading, hFinished⟩ ho hr
  | @pathOpened path r l parsed o _ hFinished _ ih =>
    have hReading : r.reading = [] := hTask
    exact ih hE ⟨by simp [hReading], hFinished⟩ ho hr
  | notIncluded => cases ho
  | nil | refused | noTokens | unreadable | missing | cycle | skipped | notFound | pathSkipped =>
    exact hr

/-! ## Reading a file -/

/-- The result of reading a file as that of a traversal of a graph: a success has parsed exactly
what the file leads to, without a cycle, and an inclusion that is refused as a cycle is on one. -/
structure Traversed (files : FileSystem) (E : Location → Location → Prop) (path : Path)
    (parsed : List Opening) (result : Except ReadError Unit) : Prop where
  reached : result = .ok () → ∃ l, files.resolve path = .ok l ∧
    (∀ x, x ∈ parsed.map Prod.snd ↔ ReflTransGen E l x) ∧
    ∀ x ∈ parsed.map Prod.snd, ¬ TransGen E x x
  onCycle : ∀ position target, result = .error (.includeCycle position target) →
    ∃ x, files.resolve target = .ok x ∧ TransGen E x x

/-- A run traverses every graph that, as far as the files were parsed, says what they include. -/
theorem Runs.traversed {path : Path} {o : Outcome} (h : Runs files (.path path) {} parsed o)
    (hTo : ∀ x ∈ parsed, ∀ b, IncludesBy files x.1 b → E x.2 b)
    (hFrom : o.2 = .ok () → ∀ x ∈ parsed, ∀ b, E x.2 b → IncludesBy files x.1 b) :
    Traversed files E path parsed o.2 := by
  have hPerm : o.1.finished.Perm (parsed.map Prod.snd) := h.finished_perm
  -- Where the path leads nowhere, nothing is opened, and any file will do.
  obtain ⟨a, ha⟩ : ∃ a, Concerns files E a (.path path) := by
    cases hl : files.resolve path with
    | error e => exact ⟨[], fun b hb => by simp [hl] at hb⟩
    | ok l => exact ⟨l, fun b hb => by simpa [hl, eq_comm] using hb⟩
  refine ⟨?_, fun position target ho => h.cycle_of_includeCycle hTo ha (by simp) ho⟩
  intro ho
  have hOrdered := h.ordered (hFrom ho) rfl ho Ordered.nil
  obtain ⟨l, hMem, hl⟩ := h.settles ho
  obtain rfl := ha l hl
  refine ⟨l, hl, ?_, fun x hx => hOrdered.acyclic (hPerm.mem_iff.2 hx)⟩
  intro x
  constructor
  · intro hx
    obtain ⟨y, hy, rfl⟩ := List.mem_map.1 hx
    exact h.reachable hTo ha y hy
  · intro hx
    exact hPerm.mem_iff.1 (hOrdered.closed hMem hx)

/-- A file is parsed by one path only, so this path says what it includes. -/
theorem includesAsOpened_iff (hNodup : (parsed.map Prod.snd).Nodup) {x : Opening} (hx : x ∈ parsed)
    (b : Location) : IncludesAsOpened files parsed x.2 b ↔ IncludesBy files x.1 b := by
  constructor
  · rintro ⟨path, hPath, hb⟩
    have hSame : (path, x.2) = x := List.inj_on_of_nodup_map hNodup hPath hx rfl
    rwa [← hSame]
  · intro hb
    exact ⟨x.1, hx, hb⟩

/-- Reading a file with a new reader ends by itself and parses no file more than once, each by a
path that leads to it. It traverses the graph of the inclusions as the files were opened; if it ends
without an error, every inclusion of a parsed file leads to a parsed one. If inclusions lead to the
same files by all paths, it traverses the graph of all inclusions. -/
theorem readPath_traverses (files : FileSystem) (path : Path) :
    ∃ parsed, Runs files (.path path) {} parsed (readPath files {} path) ∧
      (∀ parsed' o, Runs files (.path path) {} parsed' o →
        parsed' = parsed ∧ o = readPath files {} path) ∧
      (readPath files {} path).1.finished.Perm (parsed.map Prod.snd) ∧
      (parsed.map Prod.snd).Nodup ∧ (∀ x ∈ parsed, files.resolve x.1 = .ok x.2) ∧
      Traversed files (IncludesAsOpened files parsed) path parsed (readPath files {} path).2 ∧
      ((readPath files {} path).2 = .ok () → ∀ x ∈ parsed, ∃ text,
        files.readText x.1 = .ok text ∧ ∀ w ∈ directivesOf text,
          ∃ b ∈ parsed.map Prod.snd, files.resolve (target x.1 w) = .ok b) ∧
      (files.Uniform →
        Traversed files (Includes files) path parsed (readPath files {} path).2) := by
  obtain ⟨parsed, h⟩ := runs_readPath files {} path rfl
  have hPerm : (readPath files {} path).1.finished.Perm (parsed.map Prod.snd) := h.finished_perm
  have hNodup := (h.parsed_nodup rfl).1
  have hLocated := h.parsed_located trivial
  refine ⟨parsed, h, fun _ _ h' => h'.unique h, hPerm, hNodup, fun x hx => (hLocated x hx).1,
    ?_, ?_, ?_⟩
  · exact h.traversed (fun x hx b => (includesAsOpened_iff hNodup hx b).2)
      (fun _ x hx b => (includesAsOpened_iff hNodup hx b).1)
  · intro ho x hx
    obtain ⟨_, text, ht⟩ := hLocated x hx
    refine ⟨text, ht, ?_⟩
    intro w hw
    obtain ⟨b, hb, hLed⟩ := h.led ho x hx text ht w hw
    exact ⟨b, hPerm.mem_iff.1 hb, hLed⟩
  · intro hUniform
    refine h.traversed (fun x hx b hb => ⟨x.1, (hLocated x hx).1, hb⟩) ?_
    -- By whatever path the inclusion is found, it leads where it led when the file was parsed.
    rintro ho x hx b ⟨p, hp, text', w, ht', hw, hb⟩
    obtain ⟨hx', text, ht⟩ := hLocated x hx
    have hText := files.text?_of_readText hx' ht
    obtain rfl : text = text' := by
      simpa [hText] using files.text?_of_readText hp ht'
    obtain ⟨c, _, hc⟩ := h.led ho x hx text ht w hw
    exact ⟨text, w, ht, hw, hUniform hp hx' hText hb hc ▸ hc⟩

/-- A file that includes two others, which both include a fourth one, and two files that include
each other. -/
def sampleTree : FileTree where
  entries :=
    [(["main"], .file (.text "include a; include b;")), (["a"], .file (.text "include c;")),
      (["b"], .file (.text "include ./c;")), (["c"], .file (.text "enum C \x7b\x7d")),
      (["x"], .file (.text "include y;")), (["y"], .file (.text "include x;"))]

/-- Files that are given by the places that paths lead to and the texts at these places. -/
def filesAt (paths : List (String × Location)) (texts : List (Location × String)) : FileSystem where
  resolve p := (paths.lookup p.text).elim (.error .notFound) .ok
  readText p := ((paths.lookup p.text).bind fun l => texts.lookup l).elim (.error .notFound) .ok
  text? l := texts.lookup l
  locations := texts.map Prod.fst
  mem_locations := by
    intro l text h
    obtain ⟨⟨k, _⟩, hMem, hk⟩ := List.lookup_isSome_iff.1 (by rw [h]; rfl)
    simp only [beq_iff_eq] at hk
    exact List.mem_map.2 ⟨_, hMem, hk.symm⟩
  text?_of_readText := by
    intro p l text hl ht
    cases hPath : paths.lookup p.text with
    | none => simp [hPath] at hl
    | some k =>
      obtain rfl : k = l := by simpa [hPath] using hl
      cases hText : texts.lookup k with
      | none => simp [hPath, hText] at ht
      | some text' => simpa [hPath, hText] using ht

/-- A file with two paths to it, and next to each path another file of the name that it includes. -/
def linkedFiles : FileSystem :=
  filesAt [("main", ["main"]), ("d1/a", ["d1", "a"]), ("d2/a", ["d1", "a"]),
      ("d1/b", ["d1", "b"]), ("d2/b", ["d2", "b"])]
    [(["main"], "include d1/a; include d2/a;"), (["d1", "a"], "include b;"),
      (["d1", "b"], "enum B \x7b\x7d"), (["d2", "b"], "include a;")]

/-- Reading ended because of a cycle. -/
def isCycle : Except ReadError Unit → Bool
  | .error (.includeCycle _ _) => true
  | _ => false

theorem eq_ok_of_isOk {x : Except ReadError Unit} (h : x.isOk = true) : x = .ok () := by
  cases x with
  | ok => rfl
  | error => cases h

/-- By its second path, the file of `linkedFiles` that is included twice is on a cycle. -/
theorem linkedFiles_cycle : TransGen (Includes linkedFiles) ["d1", "a"] ["d1", "a"] := by
  have hOut : Includes linkedFiles ["d1", "a"] ["d2", "b"] :=
    ⟨⟨"d2/a"⟩, by rfl, "include b;", "b", by rfl, by decide +kernel, by decide +kernel⟩
  have hBack : Includes linkedFiles ["d2", "b"] ["d1", "a"] :=
    ⟨⟨"d2/b"⟩, by rfl, "include a;", "a", by rfl, by decide +kernel, by decide +kernel⟩
  exact TransGen.tail (TransGen.single hOut) hBack

/-- The file that two others include is parsed once, and the two files that include each other are
on a cycle. Of the file with two paths to it, only what it includes by the first is parsed. -/
theorem samples_traversed :
    (∃ parsed : List Location, parsed.Perm [["c"], ["a"], ["b"], ["main"]] ∧ parsed.Nodup ∧
      (∀ x, x ∈ parsed ↔ ReflTransGen (Includes sampleTree) ["main"] x) ∧
      ∀ x ∈ parsed, ¬ TransGen (Includes sampleTree) x x) ∧
    (∃ x, TransGen (Includes sampleTree) x x) ∧
    ∃ parsed : List Opening, (parsed.map Prod.snd).Perm [["d1", "b"], ["d1", "a"], ["main"]] ∧
      (∀ x, x ∈ parsed.map Prod.snd ↔
        ReflTransGen (IncludesAsOpened linkedFiles parsed) ["main"] x) ∧
      (∀ x ∈ parsed.map Prod.snd, ¬ TransGen (IncludesAsOpened linkedFiles parsed) x x) ∧
      ∃ x ∈ parsed.map Prod.snd, TransGen (Includes linkedFiles) x x := by
  have hUniform : FileSystem.Uniform sampleTree := by
    refine FileTree.WellFormed.uniform ?_
    unfold FileTree.WellFormed
    decide
  refine ⟨?_, ?_, ?_⟩
  · obtain ⟨parsed, _, _, hPerm, hNodup, _, _, _, hTraversed⟩ :=
      readPath_traverses sampleTree ⟨"main"⟩
    have hOk : (readPath sampleTree {} ⟨"main"⟩).2 = .ok () := eq_ok_of_isOk (by decide +kernel)
    have hFinished : (readPath sampleTree {} ⟨"main"⟩).1.finished =
        [["c"], ["a"], ["b"], ["main"]] := by decide +kernel
    obtain ⟨l, hl, hReached, hAcyclic⟩ := (hTraversed hUniform).reached hOk
    obtain rfl : ["main"] = l := Except.ok.inj hl
    exact ⟨parsed.map Prod.snd, hFinished ▸ hPerm.symm, hNodup, hReached, hAcyclic⟩
  · obtain ⟨_, _, _, _, _, _, _, _, hTraversed⟩ := readPath_traverses sampleTree ⟨"x"⟩
    have hCycle : isCycle (readPath sampleTree {} ⟨"x"⟩).2 = true := by decide +kernel
    unfold isCycle at hCycle
    split at hCycle
    · rename_i position target h
      obtain ⟨x, _, hx⟩ := (hTraversed hUniform).onCycle position target h
      exact ⟨x, hx⟩
    · cases hCycle
  · obtain ⟨parsed, _, _, hPerm, _, _, hTraversed, _⟩ := readPath_traverses linkedFiles ⟨"main"⟩
    have hOk : (readPath linkedFiles {} ⟨"main"⟩).2 = .ok () := eq_ok_of_isOk (by decide +kernel)
    have hFinished : (readPath linkedFiles {} ⟨"main"⟩).1.finished =
        [["d1", "b"], ["d1", "a"], ["main"]] := by decide +kernel
    rw [hFinished] at hPerm
    obtain ⟨l, hl, hReached, hAcyclic⟩ := hTraversed.reached hOk
    obtain rfl : ["main"] = l := Except.ok.inj hl
    exact ⟨parsed, hPerm.symm, hReached, hAcyclic, ["d1", "a"],
      hPerm.mem_iff.1 (by simp), linkedFiles_cycle⟩

end Reader

end EntitySchema
