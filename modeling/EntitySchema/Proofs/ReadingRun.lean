import EntitySchema.Proofs.Recognition

/-!
Reading as a relation. A run says what is done in which state, which files are parsed on the way and
how it ends. Unlike the functions that read, it has no bound on how deep inclusions nest, so that a
run is there at all says that reading ends by itself. The main results are that every call of a
reader between files has a run, and that it has only one.
-/

namespace EntitySchema

namespace Reader

open Grammar

/-- What is done while files are read. -/
inductive Task where
  | declarations (file : Path) (ts : List Token)
  | source (text : String) (file : Path)
  | file (path : Path) (l : Location)
  | inclusion (position : Position) (path : Path)
  | path (path : Path)

/-- A path that a file is opened by, and the place of the file. -/
abbrev Opening := Path × Location

/-- Done in the state `r`, the task parses the files of `parsed`, in the order in which they are
opened, and ends with `o`. -/
inductive Runs (files : FileSystem) : Task → Reader → List Opening → Outcome → Prop
  | nil {file : Path} {r : Reader} : Runs files (.declarations file []) r [] (r, .ok ())
  | refused {file : Path} {r : Reader} {t : Token} {ts : List Token} {e : SyntaxError} :
      declaration r.model t ts = .error e →
      Runs files (.declarations file (t :: ts)) r [] (r, .error (.grammar file.text e))
  | struct {file : Path} {r : Reader} {t : Token} {ts rest : List Token} {s : Struct}
      {parsed : List Opening} {o : Outcome} :
      declaration r.model t ts = .ok (.struct s, rest) →
      Runs files (.declarations file rest) { r with model := r.model.declareStruct s } parsed o →
      Runs files (.declarations file (t :: ts)) r parsed o
  | enumeration {file : Path} {r : Reader} {t : Token} {ts rest : List Token} {e : Enumeration}
      {parsed : List Opening} {o : Outcome} :
      declaration r.model t ts = .ok (.enumeration e, rest) →
      Runs files (.declarations file rest) { r with model := r.model.declareEnum e } parsed o →
      Runs files (.declarations file (t :: ts)) r parsed o
  | config {file : Path} {r : Reader} {t : Token} {ts rest : List Token} {parsed : List Opening}
      {o : Outcome} :
      declaration r.model t ts = .ok (.config, rest) →
      Runs files (.declarations file rest) r parsed o →
      Runs files (.declarations file (t :: ts)) r parsed o
  | included {file : Path} {r r' : Reader} {t : Token} {ts rest : List Token}
      {position : Position} {written : String} {parsed more : List Opening} {o : Outcome} :
      declaration r.model t ts = .ok (.includes position written, rest) →
      Runs files (.inclusion position (target file written)) r parsed (r', .ok ()) →
      Runs files (.declarations file rest) r' more o →
      Runs files (.declarations file (t :: ts)) r (parsed ++ more) o
  | notIncluded {file : Path} {r r' : Reader} {t : Token} {ts rest : List Token}
      {position : Position} {written : String} {parsed : List Opening} {e : ReadError} :
      declaration r.model t ts = .ok (.includes position written, rest) →
      Runs files (.inclusion position (target file written)) r parsed (r', .error e) →
      Runs files (.declarations file (t :: ts)) r parsed (r', .error e)
  | noTokens {text : String} {file : Path} {r : Reader} {e : LexError} :
      tokenize file.text text = .error e →
      Runs files (.source text file) r [] (r, .error (.lexical e))
  | tokens {text : String} {file : Path} {r : Reader} {ts : List Token} {parsed : List Opening}
      {o : Outcome} :
      tokenize file.text text = .ok ts →
      Runs files (.declarations file ts) { r with model := announceTokens r.model ts } parsed o →
      Runs files (.source text file) r parsed o
  | unreadable {path : Path} {l : Location} {r : Reader} {cause : FileError} :
      files.readText path = .error cause →
      Runs files (.file path l) r [] (r, .error (.unreadable path cause))
  | parsed {path : Path} {l : Location} {r : Reader} {text : String} {parsed : List Opening}
      {o : Outcome} :
      files.readText path = .ok text →
      Runs files (.source text path) { r with reading := r.reading ++ [l] } parsed o →
      Runs files (.file path l) r ((path, l) :: parsed)
        ({ o.1 with reading := o.1.reading.dropLast, finished := o.1.finished ++ [l] }, o.2)
  | missing {position : Position} {path : Path} {r : Reader} {cause : FileError} :
      files.resolve path = .error cause →
      Runs files (.inclusion position path) r [] (r, .error (.missingInclude position path cause))
  | cycle {position : Position} {path : Path} {r : Reader} {l : Location} :
      files.resolve path = .ok l → l ∈ r.reading →
      Runs files (.inclusion position path) r [] (r, .error (.includeCycle position path))
  | skipped {position : Position} {path : Path} {r : Reader} {l : Location} :
      files.resolve path = .ok l → l ∉ r.reading → l ∈ r.finished →
      Runs files (.inclusion position path) r [] (r, .ok ())
  | opened {position : Position} {path : Path} {r : Reader} {l : Location}
      {parsed : List Opening} {o : Outcome} :
      files.resolve path = .ok l → l ∉ r.reading → l ∉ r.finished →
      Runs files (.file path l) r parsed o → Runs files (.inclusion position path) r parsed o
  | notFound {path : Path} {r : Reader} {cause : FileError} :
      files.resolve path = .error cause →
      Runs files (.path path) r [] (r, .error (.unreadable path cause))
  | pathSkipped {path : Path} {r : Reader} {l : Location} :
      files.resolve path = .ok l → l ∈ r.finished → Runs files (.path path) r [] (r, .ok ())
  | pathOpened {path : Path} {r : Reader} {l : Location} {parsed : List Opening} {o : Outcome} :
      files.resolve path = .ok l → l ∉ r.finished → Runs files (.file path l) r parsed o →
      Runs files (.path path) r parsed o

/-! ## What every run keeps -/

variable {files : FileSystem} {task : Task} {r : Reader} {parsed : List Opening} {o : Outcome}

/-- However a run ends, the files being read are those from before it. -/
theorem Runs.reading_eq (h : Runs files task r parsed o) : o.1.reading = r.reading := by
  induction h with
  | included _ _ _ ih1 ih2 => rw [ih2, ih1]
  | parsed _ _ ih =>
    simp only at ih ⊢
    rw [ih, List.dropLast_concat]
  | struct _ _ ih | enumeration _ _ ih | config _ _ ih | notIncluded _ _ ih | tokens _ _ ih
  | opened _ _ _ _ ih | pathOpened _ _ _ ih => exact ih
  | _ => rfl

/-- A run is determined by its task and its state. -/
theorem Runs.unique {parsed' : List Opening} {o' : Outcome} (h : Runs files task r parsed o)
    (h' : Runs files task r parsed' o') : parsed = parsed' ∧ o = o' := by
  -- The premises of a rule exclude those of the other rules for the same task.
  induction h generalizing parsed' o' with
  | nil =>
    cases h'
    exact ⟨rfl, rfl⟩
  | _ => cases h' <;> grind

/-! ## Every task that is read has a run -/

/-- Inclusions in a state where the files of `stack` are being read have runs. -/
def InclusionRuns (files : FileSystem) (inclusion : Reader → Position → Path → Outcome)
    (stack : List Location) : Prop :=
  ∀ r position path, r.reading = stack →
    ∃ parsed, Runs files (.inclusion position path) r parsed (inclusion r position path)

variable {inclusion : Reader → Position → Path → Outcome} {stack : List Location}

theorem runs_declarations (hi : InclusionRuns files inclusion stack) (file : Path) (r : Reader)
    (ts : List Token) (hr : r.reading = stack) :
    ∃ parsed, Runs files (.declarations file ts) r parsed (declarations inclusion file r ts) := by
  fun_induction declarations inclusion file r ts with
  | case1 r => exact ⟨[], Runs.nil⟩
  | case2 r t ts e hd => exact ⟨[], Runs.refused hd⟩
  | case3 r t ts s after hd ih =>
    obtain ⟨parsed, h⟩ := ih hr
    exact ⟨parsed, Runs.struct hd h⟩
  | case4 r t ts e after hd ih =>
    obtain ⟨parsed, h⟩ := ih hr
    exact ⟨parsed, Runs.enumeration hd h⟩
  | case5 r t ts after hd ih =>
    obtain ⟨parsed, h⟩ := ih hr
    exact ⟨parsed, Runs.config hd h⟩
  | case6 r t ts position written after hd r' hInclusion ih =>
    obtain ⟨parsed, h⟩ := hi r position (target file written) hr
    rw [hInclusion] at h
    obtain ⟨more, hMore⟩ := ih (h.reading_eq.trans hr)
    exact ⟨parsed ++ more, Runs.included hd h hMore⟩
  | case7 r t ts position written after hd r' e hInclusion =>
    obtain ⟨parsed, h⟩ := hi r position (target file written) hr
    rw [hInclusion] at h
    exact ⟨parsed, Runs.notIncluded hd h⟩

theorem runs_source (hi : InclusionRuns files inclusion stack) (r : Reader) (text : String)
    (file : Path) (hr : r.reading = stack) :
    ∃ parsed, Runs files (.source text file) r parsed (sourceWith inclusion r text file) := by
  unfold sourceWith
  split
  · rename_i e ht
    exact ⟨[], Runs.noTokens ht⟩
  · rename_i ts ht
    obtain ⟨parsed, h⟩ :=
      runs_declarations hi file { r with model := announceTokens r.model ts } ts hr
    exact ⟨parsed, Runs.tokens ht h⟩

theorem runs_file (l : Location) (path : Path)
    (hi : ∀ text, files.readText path = .ok text → InclusionRuns files inclusion (stack ++ [l]))
    (r : Reader) (hr : r.reading = stack) :
    ∃ parsed, Runs files (.file path l) r parsed (fileWith inclusion files r path l) := by
  unfold fileWith
  split
  · rename_i e ht
    exact ⟨[], Runs.unreadable ht⟩
  · rename_i text ht
    obtain ⟨parsed, h⟩ :=
      runs_source (hi text ht) { r with reading := r.reading ++ [l] } text path (by rw [hr])
    exact ⟨(path, l) :: parsed, Runs.parsed ht h⟩

/-- Files that are being read are among those there are, and none is inside itself. -/
structure GoodStack (files : FileSystem) (stack : List Location) : Prop where
  nodup : stack.Nodup
  within : stack ⊆ files.locations

/-- The bound on the nesting of inclusions is never reached: together with the files being read it
exceeds the number of files. -/
theorem inclusionRuns (depth : Nat) (hStack : GoodStack files stack)
    (hDepth : files.locations.length < depth + stack.length) :
    InclusionRuns files (Reader.inclusion files depth) stack := by
  induction depth generalizing stack with
  | zero =>
    -- More files would be open than there are, and no file is open twice.
    have hLength := hStack.nodup.length_le_of_subset hStack.within
    omega
  | succ depth ih =>
    intro r position path hr
    unfold Reader.inclusion
    split
    · rename_i e hl
      exact ⟨[], Runs.missing hl⟩
    · rename_i l hl
      split
      · rename_i hm
        exact ⟨[], Runs.cycle hl (by simpa using hm)⟩
      · rename_i hm
        split
        · rename_i hf
          exact ⟨[], Runs.skipped hl (by simpa using hm) (by simpa using hf)⟩
        · rename_i hf
          have hInner : ∀ text, files.readText path = .ok text →
              InclusionRuns files (Reader.inclusion files depth) (stack ++ [l]) := by
            intro text ht
            have hNew : l ∉ stack := by simpa [hr] using hm
            refine ih ⟨nodup_snoc hStack.nodup hNew, ?_⟩ (by simp; omega)
            refine List.append_subset.2 ⟨hStack.within, ?_⟩
            simpa using files.mem_locations (files.text?_of_readText hl ht)
          obtain ⟨parsed, h⟩ := runs_file l path hInner r hr
          exact ⟨parsed, Runs.opened hl (by simpa using hm) (by simpa using hf) h⟩

/-- A text that is read while no file is being read. -/
theorem runs_readSource (files : FileSystem) (r : Reader) (text : String) (file : Path)
    (hr : r.reading = []) :
    ∃ parsed, Runs files (.source text file) r parsed (readSource files r text file) :=
  runs_source (inclusionRuns _ ⟨List.nodup_nil, by simp⟩ (by simp)) r text file hr

/-- A file that is read while no other is being read. -/
theorem runs_readPath (files : FileSystem) (r : Reader) (path : Path) (hr : r.reading = []) :
    ∃ parsed, Runs files (.path path) r parsed (readPath files r path) := by
  unfold readPath
  split
  · rename_i e hl
    exact ⟨[], Runs.notFound hl⟩
  · rename_i l hl
    split
    · rename_i hf
      exact ⟨[], Runs.pathSkipped hl (by simpa using hf)⟩
    · rename_i hf
      have hInner : ∀ text, files.readText path = .ok text →
          InclusionRuns files (inclusionIn files) ([] ++ [l]) := by
        intro text ht
        refine inclusionRuns _ ⟨by simp, ?_⟩ (by rw [List.nil_append, List.length_singleton]; omega)
        simpa using files.mem_locations (files.text?_of_readText hl ht)
      obtain ⟨parsed, h⟩ := runs_file l path hInner r hr
      exact ⟨parsed, Runs.pathOpened hl (by simpa using hf) h⟩

end Reader

end EntitySchema
