import EntitySchema.Proofs.Blocks
import EntitySchema.Proofs.IncludeGraph
import EntitySchema.Proofs.ReaderInvariant
import Mathlib.Data.List.Induction

/-!
Files that are read to their end. A file counts as finished when its reading ends, also when it ends
with an error, and a finished file is not read again. The main result says what a success of reading
a file is worth after any calls, failed ones included: the model has all that the file declares,
unless an earlier reading of the file broke off.
-/

namespace EntitySchema

open EntitySchema.Derivation Grammar

/-! ## What a file declares -/

/-- The declarations of a schema, up to where it is none. Which names are types is left open. -/
def topLevel (ts : List Token) : List Declaration :=
  match ts with
  | [] => []
  | t :: rest =>
    match _h : declaration (permissive (t :: rest)) t rest with
    | .error _ => []
    | .ok (d, after) => d :: topLevel after
termination_by ts.length
decreasing_by
  have := declaration_shorter _h
  simp only [List.length_cons]
  omega

/-- The declarations of a text. -/
def topLevelOf (text : String) : List Declaration :=
  match tokenize "" text with
  | .error _ => []
  | .ok ts => topLevel ts

/-- The model has the struct or enum that is declared, wherever it was read. -/
def InModel (model : Model) : Declaration → Prop
  | .struct s => ∃ s' ∈ model.structs, s'.unplaced = s.unplaced
  | .enumeration e => ∃ e' ∈ model.enums, e'.unplaced = e.unplaced
  | _ => True

/-- The model has all that the file at `l` declares. -/
def HasWhole (files : FileSystem) (l : Location) (model : Model) : Prop :=
  ∀ text, files.text? l = some text → ∀ d ∈ topLevelOf text, InModel model d

section

variable {files : FileSystem} {l : Location} {model model' : Model} {t : Token}
  {ts us rest : List Token} {d d' : Declaration}

theorem InModel.mono (h : InModel model d) (hExtends : model.Extends model') :
    InModel model' d := by
  cases d with
  | struct s =>
    obtain ⟨s', hs', hSame⟩ := h
    exact ⟨s', hExtends.structs.mem hs', hSame⟩
  | enumeration e =>
    obtain ⟨e', he', hSame⟩ := h
    exact ⟨e', hExtends.enums.mem he', hSame⟩
  | config | includes => trivial

theorem HasWhole.mono (h : HasWhole files l model) (hExtends : model.Extends model') :
    HasWhole files l model' :=
  fun text hText d hd => (h text hText d hd).mono hExtends

/-- Positions play no part. -/
theorem InModel.congr (h : InModel model d) (hSame : unplaced d' = unplaced d) :
    InModel model d' := by
  cases d <;> cases d' <;> simp_all [unplaced, InModel]

/-- A declaration is in the model that it leads to. -/
theorem inModel_declareIn (model : Model) (d : Declaration) : InModel (d.declareIn model) d := by
  cases d with
  | struct s => exact ⟨s, List.mem_append_right _ List.mem_cons_self, rfl⟩
  | enumeration e => exact ⟨e, List.mem_append_right _ List.mem_cons_self, rfl⟩
  | config | includes => trivial

/-- What is read as a declaration counts as one. -/
theorem topLevel_step (h : declaration model t ts = .ok (d, rest)) (hs : SameText (t :: ts) us)
    (hw : WordsNonempty (t :: ts)) :
    ∃ d' rest', unplaced d' = unplaced d ∧ SameText rest rest' ∧
      topLevel us = d' :: topLevel rest' := by
  obtain _ | ⟨p, hs'⟩ := hs
  rename_i us
  obtain ⟨d', rest', hd', hPlaces, hRest⟩ :=
    declaration_congr h (SameText.cons p hs') hw (admits_permissive (SameText.cons p hs'))
  refine ⟨d', rest', hPlaces, hRest, ?_⟩
  rw [topLevel]
  split
  · rename_i e he
    rw [hd'] at he
    cases he
  · rename_i d'' after he
    rw [hd'] at he
    cases he
    rfl

end

namespace Reader

variable {files : FileSystem} {task task' : Task} {r r' : Reader} {parsed : List Opening}
  {o : Outcome} {l : Location} {path : Path}

/-! ## Runs without an error -/

/-- The model has what the task reads itself, apart from what it includes. -/
def Declares (model : Model) : Task → Prop
  | .declarations _ ts => WordsNonempty ts → ∀ us, SameText ts us →
      ∀ d ∈ topLevel us, InModel model d
  | .source text _ => ∀ d ∈ topLevelOf text, InModel model d
  | _ => True

/-- One declaration is added to those that follow it. -/
theorem Declares.cons {file : Path} {t : Token} {ts rest : List Token} {d : Declaration}
    {model : Model} (hd : declaration r.model t ts = .ok (d, rest)) (hIn : InModel model d)
    (h : Declares model (.declarations file rest)) :
    Declares model (.declarations file (t :: ts)) := by
  intro hw us hus x hx
  obtain ⟨d', rest', hSame, hRest, hTop⟩ := topLevel_step hd hus hw
  have hWords : WordsNonempty rest := fun u hu => hw u ((declaration_suffix hd).mem hu)
  rw [hTop, List.mem_cons] at hx
  rcases hx with rfl | hx
  · exact hIn.congr hSame
  · exact h hWords rest' hRest x hx

theorem Runs.declares (h : Runs files task r parsed o) (ho : o.2 = .ok ()) :
    Declares o.1.model task := by
  induction h with
  | nil =>
    intro _ us hus d hd
    cases hus
    simp [topLevel] at hd
  | @struct file r t ts rest s parsed o hd hRest ih =>
    have hIn := inModel_declareIn r.model (.struct s)
    exact Declares.cons hd (hIn.mono hRest.extends) (ih ho)
  | @enumeration file r t ts rest e parsed o hd hRest ih =>
    have hIn := inModel_declareIn r.model (.enumeration e)
    exact Declares.cons hd (hIn.mono hRest.extends) (ih ho)
  | config hd _ ih => exact Declares.cons hd trivial (ih ho)
  | included hd _ _ _ ih => exact Declares.cons hd trivial (ih ho)
  | @tokens text file r ts parsed o ht _ ih =>
    obtain ⟨us, hus, hSame⟩ := Lexer.tokensFrom_congr "" Lexer.Cursor.start ht
    have hTop : topLevelOf text = topLevel us := by
      have hTokens : tokenize "" text = .ok us := hus
      simp [topLevelOf, hTokens]
    intro d hd
    exact ih ho (Lexer.tokensFrom_wordsNonempty ht) us hSame d (hTop ▸ hd)
  | refused | notIncluded | noTokens => cases ho
  | unreadable | parsed | missing | cycle | skipped | opened | notFound | pathSkipped
  | pathOpened => trivial

/-- A file that is read without an error is read to its end. -/
theorem Runs.hasWhole (h : Runs files (.file path l) r parsed o) (hl : files.resolve path = .ok l)
    (ho : o.2 = .ok ()) : HasWhole files l o.1.model := by
  cases h with
  | unreadable => cases ho
  | @parsed _ _ _ text _ _ ht hSource =>
    intro text' hText
    obtain rfl : text = text' := by simpa [files.text?_of_readText hl ht] using hText
    exact hSource.declares ho

/-! ## Readings that break off -/

/-- To do the task in its state, the reader does the other task in the other state. -/
inductive Leads (files : FileSystem) : Task → Reader → Task → Reader → Prop
  | declared {file : Path} {r : Reader} {t : Token} {ts rest : List Token} {d : Declaration} :
      declaration r.model t ts = .ok (d, rest) → written? d = none →
      Leads files (.declarations file (t :: ts)) r
        (.declarations file rest) { r with model := d.declareIn r.model }
  | inclusion {file : Path} {r : Reader} {t : Token} {ts rest : List Token} {position : Position}
      {written : String} :
      declaration r.model t ts = .ok (.includes position written, rest) →
      Leads files (.declarations file (t :: ts)) r (.inclusion position (target file written)) r
  | included {file : Path} {r r' : Reader} {t : Token} {ts rest : List Token}
      {position : Position} {written : String} {parsed : List Opening} :
      declaration r.model t ts = .ok (.includes position written, rest) →
      Runs files (.inclusion position (target file written)) r parsed (r', .ok ()) →
      Leads files (.declarations file (t :: ts)) r (.declarations file rest) r'
  | tokens {text : String} {file : Path} {r : Reader} {ts : List Token} :
      tokenize file.text text = .ok ts →
      Leads files (.source text file) r
        (.declarations file ts) { r with model := announceTokens r.model ts }
  | text {path : Path} {l : Location} {r : Reader} {text : String} :
      files.readText path = .ok text →
      Leads files (.file path l) r (.source text path) { r with reading := r.reading ++ [l] }
  | opened {position : Position} {path : Path} {r : Reader} {l : Location} :
      files.resolve path = .ok l → l ∉ r.reading → l ∉ r.finished →
      Leads files (.inclusion position path) r (.file path l) r
  | pathOpened {path : Path} {r : Reader} {l : Location} :
      files.resolve path = .ok l → l ∉ r.finished → Leads files (.path path) r (.file path l) r

/-- In the course of the task, the text of the file at `l` is found, but reading it ends with an
error. -/
inductive BreaksOff (files : FileSystem) : Task → Reader → Location → Prop
  | here {path : Path} {l : Location} {r r' : Reader} {text : String} {parsed : List Opening}
      {e : ReadError} :
      files.readText path = .ok text → Runs files (.file path l) r parsed (r', .error e) →
      BreaksOff files (.file path l) r l
  | later {task task' : Task} {r r' : Reader} {l : Location} :
      Leads files task r task' r' → BreaksOff files task' r' l → BreaksOff files task r l

/-- Of the files that are parsed, each is read to its end or breaks off. -/
theorem Runs.hasWhole_or_breaksOff (h : Runs files task r parsed o) (hTask : Located files task) :
    ∀ x ∈ parsed, HasWhole files x.2 o.1.model ∨ BreaksOff files task r x.2 := by
  induction h with
  | @struct file r t ts rest s parsed o hd _ ih =>
    intro x hx
    exact (ih trivial x hx).imp_right (.later (.declared hd rfl))
  | @enumeration file r t ts rest e parsed o hd _ ih =>
    intro x hx
    exact (ih trivial x hx).imp_right (.later (.declared hd rfl))
  | config hd _ ih =>
    intro x hx
    exact (ih trivial x hx).imp_right (.later (.declared hd rfl))
  | included hd hInclusion hRest ih1 ih2 =>
    intro x hx
    rcases List.mem_append.1 hx with hx | hx
    · exact (ih1 trivial x hx).imp (fun h => h.mono hRest.extends) (.later (.inclusion hd))
    · exact (ih2 trivial x hx).imp_right (.later (.included hd hInclusion))
  | notIncluded hd _ ih =>
    intro x hx
    exact (ih trivial x hx).imp_right (.later (.inclusion hd))
  | tokens ht _ ih =>
    intro x hx
    exact (ih trivial x hx).imp_right (.later (.tokens ht))
  | @parsed path l r text parsed o ht hSource ih =>
    have hFile := Runs.parsed (l := l) ht hSource
    refine List.forall_mem_cons.2 ⟨?_, ?_⟩
    · cases hResult : o.2 with
      | ok => exact .inl (hFile.hasWhole hTask hResult)
      | error e =>
        rw [hResult] at hFile
        exact .inr (.here ht hFile)
    · intro x hx
      exact (ih trivial x hx).imp_right (.later (.text ht))
  | opened hl hReading hFinished _ ih =>
    intro x hx
    exact (ih hl x hx).imp_right (.later (.opened hl hReading hFinished))
  | pathOpened hl hFinished _ ih =>
    intro x hx
    exact (ih hl x hx).imp_right (.later (.pathOpened hl hFinished))
  | nil | refused | noTokens | unreadable | missing | cycle | skipped | notFound | pathSkipped =>
    intro x hx
    cases hx

/-- What is done in the course of a run has a run itself, which finishes no other files. -/
theorem Leads.exists_run (hLeads : Leads files task r task' r') (h : Runs files task r parsed o) :
    ∃ parsed' o', Runs files task' r' parsed' o' ∧ o'.1.finished ⊆ o.1.finished := by
  cases hLeads with
  | declared hd hWritten =>
    cases h with
    | refused hd' => cases hd.symm.trans hd'
    | struct hd' hRest | enumeration hd' hRest | config hd' hRest =>
      cases hd.symm.trans hd'
      exact ⟨_, _, hRest, List.Subset.refl _⟩
    | included hd' | notIncluded hd' =>
      cases hd.symm.trans hd'
      cases hWritten
  | inclusion hd =>
    cases h with
    | refused hd' | struct hd' | enumeration hd' | config hd' => cases hd.symm.trans hd'
    | included hd' hInclusion hRest =>
      cases hd.symm.trans hd'
      exact ⟨_, _, hInclusion, hRest.finished_subset⟩
    | notIncluded hd' hInclusion =>
      cases hd.symm.trans hd'
      exact ⟨_, _, hInclusion, List.Subset.refl _⟩
  | included hd hInclusion =>
    cases h with
    | refused hd' | struct hd' | enumeration hd' | config hd' => cases hd.symm.trans hd'
    | included hd' hInclusion' hRest =>
      cases hd.symm.trans hd'
      cases (hInclusion.unique hInclusion').2
      exact ⟨_, _, hRest, List.Subset.refl _⟩
    | notIncluded hd' hInclusion' =>
      cases hd.symm.trans hd'
      cases (hInclusion.unique hInclusion').2
  | tokens ht =>
    cases h with
    | noTokens ht' => cases ht.symm.trans ht'
    | tokens ht' hRest =>
      cases ht.symm.trans ht'
      exact ⟨_, _, hRest, List.Subset.refl _⟩
  | text ht =>
    cases h with
    | unreadable ht' => cases ht.symm.trans ht'
    | parsed ht' hSource =>
      cases ht.symm.trans ht'
      exact ⟨_, _, hSource, List.subset_append_left _ _⟩
  | opened hl hReading hFinished =>
    cases h with
    | missing hl' => cases hl.symm.trans hl'
    | cycle hl' hMem | skipped hl' _ hMem =>
      cases hl.symm.trans hl'
      contradiction
    | opened hl' _ _ hFile =>
      cases hl.symm.trans hl'
      exact ⟨_, _, hFile, List.Subset.refl _⟩
  | pathOpened hl hFinished =>
    cases h with
    | notFound hl' => cases hl.symm.trans hl'
    | pathSkipped hl' hMem =>
      cases hl.symm.trans hl'
      contradiction
    | pathOpened hl' _ hFile =>
      cases hl.symm.trans hl'
      exact ⟨_, _, hFile, List.Subset.refl _⟩

theorem BreaksOff.mem_finished (h : BreaksOff files task r l) (hRun : Runs files task r parsed o) :
    l ∈ o.1.finished := by
  induction h generalizing parsed o with
  | here ht _ =>
    cases hRun with
    | unreadable ht' => cases ht.symm.trans ht'
    | parsed _ _ => exact List.mem_append_right _ List.mem_cons_self
  | later hLeads _ ih =>
    obtain ⟨parsed', o', hRun', hSub⟩ := hLeads.exists_run hRun
    exact hSub (ih hRun')

/-! ## Sessions -/

/-- What a call reads, if it reads at all. -/
def Call.task? : Call → Option Task
  | .source text file => some (.source text file)
  | .path path => some (.path path)
  | .announce _ => none

/-- One of the calls of a session broke off the reading of the file at `l`. -/
def BrokeOff (files : FileSystem) (calls : List Call) (l : Location) : Prop :=
  ∃ before call after task, calls = before ++ call :: after ∧ call.task? = some task ∧
    BreaksOff files task (session files before) l

theorem BrokeOff.append {calls : List Call} (h : BrokeOff files calls l) (more : List Call) :
    BrokeOff files (calls ++ more) l := by
  obtain ⟨before, call, after, task, rfl, hTask, hBreaks⟩ := h
  exact ⟨before, call, after ++ more, task, by simp, hTask, hBreaks⟩

theorem session_concat (files : FileSystem) (calls : List Call) (call : Call) :
    session files (calls ++ [call]) = (call.perform files (session files calls)).1 := by
  simp [session]

/-- A call between files that reads has a run. -/
theorem Call.exists_run (files : FileSystem) {call : Call} (hTask : call.task? = some task)
    (hr : r.AtRest) :
    ∃ parsed, Runs files task r parsed (call.perform files r) ∧ Located files task := by
  cases call with
  | source text file =>
    obtain rfl := Option.some.inj hTask
    obtain ⟨parsed, h⟩ := runs_readSource files r text file hr.reading
    exact ⟨parsed, h, trivial⟩
  | path path =>
    obtain rfl := Option.some.inj hTask
    obtain ⟨parsed, h⟩ := runs_readPath files r path hr.reading
    exact ⟨parsed, h, trivial⟩
  | announce path => cases hTask

theorem Call.finished_of_no_task {call : Call} (hTask : call.task? = none) :
    (call.perform files r).1.finished = r.finished := by
  cases call with
  | source | path => cases hTask
  | announce path =>
    obtain ⟨ts, h⟩ := announcePath_model files r path
    rw [Call.perform, h]

/-- Every finished file was read to its end, or a reading of it broke off. -/
theorem session_hasWhole (files : FileSystem) (calls : List Call) :
    ∀ l ∈ (session files calls).finished,
      HasWhole files l (session files calls).model ∨ BrokeOff files calls l := by
  induction calls using List.reverseRecOn with
  | nil => simp [session]
  | append_singleton calls call ih =>
    have hRest := session_atRest files calls
    have hExtends := (hRest.perform files call).2
    have hOld : ∀ l ∈ (session files calls).finished,
        HasWhole files l (session files (calls ++ [call])).model ∨
          BrokeOff files (calls ++ [call]) l := by
      intro l hl
      rw [session_concat]
      exact (ih l hl).imp (fun h => h.mono hExtends) (fun h => h.append [call])
    cases hTask : call.task? with
    | none =>
      rw [session_concat, Call.finished_of_no_task hTask]
      rwa [session_concat] at hOld
    | some task =>
      obtain ⟨parsed, hRun, hLocated⟩ := Call.exists_run files hTask hRest
      intro l hl
      rw [session_concat, hRun.finished_perm.mem_iff, List.mem_append] at hl
      rcases hl with hl | hl
      · exact hOld l hl
      · obtain ⟨x, hx, rfl⟩ := List.mem_map.1 hl
        rw [session_concat]
        exact (hRun.hasWhole_or_breaksOff hLocated x hx).imp_right
          (fun h => ⟨calls, call, [], task, rfl, hTask, h⟩)

theorem session_finished_subset (files : FileSystem) (calls more : List Call) :
    (session files calls).finished ⊆ (session files (calls ++ more)).finished := by
  induction more using List.reverseRecOn with
  | nil => simp
  | append_singleton more call ih =>
    refine List.Subset.trans ih ?_
    rw [← List.append_assoc, session_concat]
    cases hTask : call.task? with
    | none => rw [Call.finished_of_no_task hTask]; exact List.Subset.refl _
    | some task =>
      obtain ⟨parsed, hRun, _⟩ := Call.exists_run files hTask (session_atRest files _)
      exact hRun.finished_subset

/-- A file of which a reading broke off is finished all the same. -/
theorem BrokeOff.mem_finished {calls : List Call} (h : BrokeOff files calls l) :
    l ∈ (session files calls).finished := by
  obtain ⟨before, call, after, task, rfl, hTask, hBreaks⟩ := h
  obtain ⟨parsed, hRun, _⟩ := Call.exists_run files hTask (session_atRest files before)
  have hMem := hBreaks.mem_finished hRun
  rw [← session_concat] at hMem
  simpa using session_finished_subset files (before ++ [call]) after hMem

/-- Such a file is skipped, which counts as a success. -/
theorem BrokeOff.readPath_eq {calls : List Call} (h : BrokeOff files calls l)
    (hl : files.resolve path = .ok l) :
    readPath files (session files calls) path = (session files calls, .ok ()) := by
  obtain ⟨parsed, hRun⟩ :=
    runs_readPath files (session files calls) path (session_atRest files calls).reading
  exact (hRun.unique (.pathSkipped hl h.mem_finished)).2

/-- Reading a file after any calls. If no reading of the file broke off so far, a success means that
the model has all that the file declares. If one did, reading the file is reported as a success and
does nothing. -/
theorem readPath_hasWhole (files : FileSystem) (calls : List Call) {path : Path} {l : Location}
    (hl : files.resolve path = .ok l) :
    (¬ BrokeOff files calls l → (readPath files (session files calls) path).2 = .ok () →
      HasWhole files l (readPath files (session files calls) path).1.model) ∧
    (BrokeOff files calls l →
      readPath files (session files calls) path = (session files calls, .ok ())) := by
  refine ⟨?_, fun hBroke => hBroke.readPath_eq hl⟩
  intro hWhole ho
  obtain ⟨parsed, hRun⟩ :=
    runs_readPath files (session files calls) path (session_atRest files calls).reading
  generalize readPath files (session files calls) path = o at *
  cases hRun with
  | notFound => cases ho
  | pathSkipped hl' hFinished =>
    obtain rfl := Except.ok.inj (hl.symm.trans hl')
    exact (session_hasWhole files calls l hFinished).resolve_right hWhole
  | pathOpened hl' _ hFile =>
    obtain rfl := Except.ok.inj (hl.symm.trans hl')
    exact hFile.hasWhole hl ho

/-- A file with a type that nothing declares, and one that can be read. -/
def brokenTree : FileTree where
  entries :=
    [(["bad"], .file (.text "struct A \x7b B: b; \x7d")),
      (["good"], .file (.text "enum E \x7b X \x7d struct G \x7b E: e; \x7d"))]

theorem resolve_bad : brokenTree.resolve ⟨"bad"⟩ = .ok ["bad"] := rfl

theorem brokeOff_bad : BrokeOff brokenTree [.path ⟨"bad"⟩] ["bad"] := by
  have hError : (readPath brokenTree {} ⟨"bad"⟩).2.isOk = false := by decide +kernel
  obtain ⟨parsed, hRun⟩ := runs_readPath brokenTree {} ⟨"bad"⟩ rfl
  refine ⟨[], .path ⟨"bad"⟩, [], .path ⟨"bad"⟩, rfl, rfl, ?_⟩
  generalize readPath brokenTree {} ⟨"bad"⟩ = o at *
  cases hRun with
  | notFound hl => cases resolve_bad.symm.trans hl
  | pathSkipped _ hFinished => cases hFinished
  | pathOpened hl hNew hFile =>
    cases resolve_bad.symm.trans hl
    refine .later (.pathOpened hl hNew) ?_
    obtain ⟨r, _ | e⟩ := o
    · exact .here rfl hFile
    · cases hError

/-- After a failure, the file that broke off is skipped, and the other one is read whole. -/
theorem brokenTree_readings :
    (¬ BrokeOff brokenTree [.path ⟨"bad"⟩] ["good"] ∧
      (readPath brokenTree (session brokenTree [.path ⟨"bad"⟩]) ⟨"good"⟩).2 = .ok () ∧
      HasWhole brokenTree ["good"]
        (readPath brokenTree (session brokenTree [.path ⟨"bad"⟩]) ⟨"good"⟩).1.model) ∧
    readPath brokenTree (session brokenTree [.path ⟨"bad"⟩]) ⟨"bad"⟩ =
      (session brokenTree [.path ⟨"bad"⟩], .ok ()) := by
  have hFinished : (session brokenTree [.path ⟨"bad"⟩]).finished = [["bad"]] := by decide +kernel
  have hWhole : ¬ BrokeOff brokenTree [.path ⟨"bad"⟩] ["good"] := by
    intro h
    have hMem := h.mem_finished
    rw [hFinished] at hMem
    exact absurd hMem (by decide)
  have hOk : (readPath brokenTree (session brokenTree [.path ⟨"bad"⟩]) ⟨"good"⟩).2 = .ok () :=
    eq_ok_of_isOk (by decide +kernel)
  exact ⟨⟨hWhole, hOk, (readPath_hasWhole brokenTree _ rfl).1 hWhole hOk⟩,
    (readPath_hasWhole brokenTree _ resolve_bad).2 brokeOff_bad⟩

/-- The second reading of the file is a success, but its struct is not declared. -/
theorem broken_file_reported_read :
    ∃ r, readPath brokenTree (session brokenTree [.path ⟨"bad"⟩]) ⟨"bad"⟩ = (r, .ok ()) ∧
      brokenTree.entry? ["bad"] = some (.file (.text "struct A \x7b B: b; \x7d")) ∧
      (∃ s, .struct s ∈ topLevelOf "struct A \x7b B: b; \x7d" ∧ s.name = "A") ∧
      r.model.isDeclared "A" = false := by
  have hTop : (topLevelOf "struct A \x7b B: b; \x7d").map unplaced = [.struct {
      name := "A"
      members := [{ owner := .schema, type := .named "B", name := "b" }, Member.key] }] := by
    decide +kernel
  have hModel : (session brokenTree [.path ⟨"bad"⟩]).model.isDeclared "A" = false := by
    decide +kernel
  refine ⟨_, brokeOff_bad.readPath_eq resolve_bad, rfl, ?_, hModel⟩
  obtain ⟨d, hd, hSame⟩ := List.mem_map.1 (hTop ▸ List.mem_cons_self)
  cases d with
  | struct s => exact ⟨s, hd, congrArg Struct.name (Declaration.struct.inj hSame)⟩
  | enumeration | config | includes => cases hSame

end Reader

end EntitySchema
