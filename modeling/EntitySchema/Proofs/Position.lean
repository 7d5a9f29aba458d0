import EntitySchema.Proofs.Recognition

/-!
Positions are carried along and never looked at. Tokens that differ only in where they stand derive
the same entities, up to the positions in them, and so are read in the same way.
-/

namespace EntitySchema

/-! ## Entities without positions -/

def Member.unplaced (m : Member) : Member :=
  { m with position := none }

def Struct.unplaced (s : Struct) : Struct :=
  { s with members := s.members.map Member.unplaced, position := none }

def Enumeration.unplaced (e : Enumeration) : Enumeration :=
  { e with position := none }

@[simp] theorem Struct.unplaced_name (s : Struct) : s.unplaced.name = s.name := rfl

@[simp] theorem Enumeration.unplaced_name (e : Enumeration) : e.unplaced.name = e.name := rfl

namespace Derivation

open Grammar

/-! ## Tokens with the same text -/

/-- The tokens differ at most in where they stand. -/
inductive SameText : List Token → List Token → Prop
  | nil : SameText [] []
  | cons {t : Token} {ts us : List Token} (p : Position) :
      SameText ts us → SameText (t :: ts) ({ t with position := p } :: us)

variable {ts us : List Token}

theorem SameText.refl (ts : List Token) : SameText ts ts := by
  induction ts with
  | nil => exact SameText.nil
  | cons t ts ih => exact SameText.cons t.position ih

theorem SameText.append_left {front : List Token} (h : SameText (front ++ ts) us) :
    ∃ front' ts', us = front' ++ ts' ∧ SameText front front' ∧ SameText ts ts' := by
  induction front generalizing us with
  | nil => exact ⟨[], us, rfl, SameText.nil, h⟩
  | cons t front ih =>
    cases h with
    | cons p h =>
      obtain ⟨front', ts', rfl, hFront, hts⟩ := ih h
      exact ⟨_ :: front', ts', rfl, SameText.cons p hFront, hts⟩

theorem SameText.joined_eq (h : SameText ts us) : joined us = joined ts := by
  induction h with
  | nil => rfl
  | cons p _ ih => simp only [joined, ih]

theorem SameText.map_text (h : SameText ts us) : us.map Token.text = ts.map Token.text := by
  induction h with
  | nil => rfl
  | cons p _ ih => simp only [List.map_cons, ih]

/-- What holds of the tokens wherever they stand. -/
theorem SameText.forall {P : Token → Prop} (h : SameText ts us)
    (hP : ∀ t p, P t → P { t with position := p }) (hts : ∀ t ∈ ts, P t) : ∀ t ∈ us, P t := by
  induction h with
  | nil => simp
  | cons p _ ih =>
    rw [List.forall_mem_cons] at hts ⊢
    exact ⟨hP _ p hts.1, ih hts.2⟩

theorem SameText.wordsNonempty (h : SameText ts us) (hw : WordsNonempty ts) : WordsNonempty us :=
  h.forall (fun _ _ ht => ht) hw

/-! ## Derivations -/

/-- A name in the tokens that is a type, or new, in the one model is so in the other. -/
structure Admits (model model' : Model) (ts : List Token) : Prop where
  types : ∀ t ∈ ts, model.isTypeName t.text → model'.isTypeName t.text
  new : ∀ t ∈ ts, model.isDeclared t.text = false → model'.isDeclared t.text = false

theorem Admits.of_subset {model model' : Model} (h : Admits model model' ts) (hs : us ⊆ ts) :
    Admits model model' us :=
  ⟨fun t ht => h.types t (hs ht), fun t ht => h.new t (hs ht)⟩

variable {words : List String} {model model' : Model}

theorem IsType.congr {type : TypeExpr} (h : IsType words model ts type) (hs : SameText ts us)
    (hm : Admits model model' ts) : IsType words model' us type := by
  induction h generalizing us with
  | @array keyword left right inner element hk hl _ hr ih =>
    obtain _ | ⟨_, _ | ⟨_, hs⟩⟩ := hs
    obtain ⟨inner', _, rfl, hInner, _ | ⟨_, _ | _⟩⟩ := hs.append_left
    exact IsType.array hk hl (ih hInner (hm.of_subset (fun t ht => by simp [ht]))) hr
  | scalar hq hs' =>
    obtain _ | ⟨_, _ | _⟩ := hs
    exact IsType.scalar hq hs'
  | @named t ht hWords hName =>
    obtain _ | ⟨_, _ | _⟩ := hs
    exact IsType.named ht hWords (hm.types t List.mem_cons_self hName)

theorem IsModifier.congr {type : TypeExpr} {m : Modifier} (h : IsModifier type ts m)
    (hs : SameText ts us) : IsModifier type us m := by
  cases h with
  | flag hk hm =>
    obtain _ | ⟨_, _ | _⟩ := hs
    exact IsModifier.flag hk hm
  | bound hk hm hArray hl hq hn hr =>
    obtain _ | ⟨_, _ | ⟨_, _ | ⟨_, _ | ⟨_, _ | _⟩⟩⟩⟩ := hs
    exact IsModifier.bound hk hm hArray hl hq hn hr
  | reference hk hl hStruct hDot hField hr =>
    obtain _ | ⟨_, _ | ⟨_, _ | ⟨_, _ | ⟨_, _ | ⟨_, _ | ⟨_, _ | _⟩⟩⟩⟩⟩⟩ := hs
    exact IsModifier.reference hk hl hStruct hDot hField hr
  | ownReference hk hType =>
    obtain _ | ⟨_, _ | _⟩ := hs
    exact IsModifier.ownReference hk hType
  | description hk hl hr =>
    obtain _ | ⟨_, _ | ⟨_, _ | ⟨_, _ | ⟨_, _ | _⟩⟩⟩⟩ := hs
    exact IsModifier.description hk hl hr
  | quotedDefault hk hl hq hr =>
    obtain _ | ⟨_, _ | ⟨_, _ | ⟨_, _ | ⟨_, _ | _⟩⟩⟩⟩ := hs
    exact IsModifier.quotedDefault hk hl hq hr
  | @wordDefault keyword left right texts hk hl hne hWords hr =>
    obtain _ | ⟨_, _ | ⟨_, hs⟩⟩ := hs
    obtain ⟨texts', _, rfl, hTexts, _ | ⟨_, _ | _⟩⟩ := hs.append_left
    have hne' : texts' ≠ [] := by
      rintro rfl
      cases hTexts
      exact hne rfl
    rw [← hTexts.joined_eq]
    exact IsModifier.wordDefault hk hl hne' (hTexts.forall (fun _ _ ht => ht) hWords) hr

theorem AreModifiers.congr {type : TypeExpr} {ms : List Modifier} (h : AreModifiers type ts ms)
    (hs : SameText ts us) : AreModifiers type us ms := by
  induction h generalizing us with
  | nil =>
    cases hs
    exact AreModifiers.nil
  | cons hc hm _ ih =>
    obtain _ | ⟨_, hs⟩ := hs
    obtain ⟨_, _, rfl, hUsed, hRest⟩ := hs.append_left
    exact AreModifiers.cons hc (hm.congr hUsed) (ih hRest)

theorem unplaced_apply (m : Member) (x : Modifier) : (x.apply m).unplaced = x.apply m.unplaced := by
  cases x <;> rfl

theorem unplaced_foldl_apply (xs : List Modifier) (m : Member) :
    (xs.foldl Modifier.apply m).unplaced = xs.foldl Modifier.apply m.unplaced := by
  induction xs generalizing m with
  | nil => rfl
  | cons x xs ih => rw [List.foldl_cons, ih, unplaced_apply, List.foldl_cons]

theorem IsMember.congr {m : Member} (h : IsMember words model ts m) (hs : SameText ts us)
    (hm : Admits model model' ts) :
    ∃ m', IsMember words model' us m' ∧ m'.unplaced = m.unplaced := by
  cases h with
  | intro hType hc hName hKey hms hSemicolon =>
    obtain ⟨_, _, rfl, hTypeTokens, _ | ⟨_, _ | ⟨_, hs'⟩⟩⟩ := hs.append_left
    obtain ⟨_, _, rfl, hModifiers, _ | ⟨_, _ | _⟩⟩ := hs'.append_left
    refine ⟨_, IsMember.intro (hType.congr hTypeTokens (hm.of_subset (by simp))) hc hName hKey
      (hms.congr hModifiers) hSemicolon, ?_⟩
    rw [unplaced_foldl_apply, unplaced_foldl_apply]
    rfl

theorem AreMembers.congr {ms : List Member} (h : AreMembers words model ts ms)
    (hs : SameText ts us) (hm : Admits model model' ts) :
    ∃ ms', AreMembers words model' us ms' ∧
      ms'.map Member.unplaced = ms.map Member.unplaced := by
  induction h generalizing us with
  | nil =>
    cases hs
    exact ⟨[], AreMembers.nil, rfl⟩
  | cons hMember _ ih =>
    obtain ⟨_, _, rfl, hUsed, hRest⟩ := hs.append_left
    obtain ⟨m', hm', hSame⟩ := hMember.congr hUsed (hm.of_subset (by simp))
    obtain ⟨ms', hms', hSames⟩ := ih hRest (hm.of_subset (by simp))
    exact ⟨m' :: ms', AreMembers.cons hm' hms', by rw [List.map_cons, List.map_cons, hSame, hSames]⟩

theorem IsValue.congr {last : Option Int} {v : EnumValue} (h : IsValue last ts v)
    (hs : SameText ts us) : IsValue last us v := by
  cases h with
  | explicit hName hUnknown he hq hi =>
    obtain _ | ⟨_, _ | ⟨_, _ | ⟨_, _ | _⟩⟩⟩ := hs
    exact IsValue.explicit hName hUnknown he hq hi
  | first hName hUnknown =>
    obtain _ | ⟨_, _ | _⟩ := hs
    exact IsValue.first hName hUnknown
  | next hName hUnknown hNext =>
    obtain _ | ⟨_, _ | _⟩ := hs
    exact IsValue.next hName hUnknown hNext

theorem AreValues.congr {last : Option Int} {vs : List EnumValue} (h : AreValues last ts vs)
    (hs : SameText ts us) : AreValues last us vs := by
  induction h generalizing us with
  | nil =>
    cases hs
    exact AreValues.nil
  | single hv => exact AreValues.single (hv.congr hs)
  | cons hv hc _ ih =>
    obtain ⟨_, _, rfl, hUsed, _ | ⟨_, hRest⟩⟩ := hs.append_left
    exact AreValues.cons (hv.congr hUsed) hc (ih hRest)

theorem Balanced.congr (h : Balanced ts) (hs : SameText ts us) : Balanced us := by
  induction h generalizing us with
  | nil =>
    cases hs
    exact Balanced.nil
  | word hOpen hClose _ ih =>
    obtain _ | ⟨_, hs⟩ := hs
    exact Balanced.word hOpen hClose (ih hs)
  | block hl _ hr _ ihInner ihRest =>
    obtain _ | ⟨_, hs⟩ := hs
    obtain ⟨_, _, rfl, hInner, _ | ⟨_, hRest⟩⟩ := hs.append_left
    exact Balanced.block hl (ihInner hInner) hr (ihRest hRest)

theorem optionalSemicolon_congr (h : IsOptionalSemicolon ts) (hs : SameText ts us) :
    IsOptionalSemicolon us := by
  rcases h with rfl | ⟨t, rfl, ht⟩
  · cases hs
    exact Or.inl rfl
  · obtain _ | ⟨p, _ | _⟩ := hs
    exact Or.inr ⟨{ t with position := p }, rfl, ht⟩

theorem IsNewName.congr {name : Token} (h : IsNewName model name)
    (hNew : model'.isDeclared name.text = false) (p : Position) :
    IsNewName model' { name with position := p } :=
  ⟨h.identifier, h.notReserved, hNew⟩

theorem map_name_unplaced (ms : List Member) :
    (ms.map Member.unplaced).map Member.name = ms.map Member.name := by
  rw [List.map_map]
  rfl

theorem IsStruct.congr {s : Struct} (h : IsStruct words model ts s) (hs : SameText ts us)
    (hm : Admits model model' ts) :
    ∃ s', IsStruct words model' us s' ∧ s'.unplaced = s.unplaced := by
  cases h with
  | @intro keyword name left right body finish ms hk hNew hl hBody hDistinct hr hFinish =>
    obtain _ | ⟨_, _ | ⟨p, _ | ⟨_, hs⟩⟩⟩ := hs
    obtain ⟨_, _, rfl, hBodies, _ | ⟨_, hFinishes⟩⟩ := hs.append_left
    obtain ⟨ms', hms', hSame⟩ := hBody.congr hBodies (hm.of_subset (fun t ht => by simp [ht]))
    have hNames : ms'.map Member.name = ms.map Member.name := by
      rw [← map_name_unplaced, hSame, map_name_unplaced]
    refine ⟨_, IsStruct.intro hk (hNew.congr (hm.new name (by simp) hNew.notDeclared) p) hl hms'
      (hNames ▸ hDistinct) hr (optionalSemicolon_congr hFinish hFinishes), ?_⟩
    simp [Struct.unplaced, hSame]

theorem IsEnum.congr {e : Enumeration} (h : IsEnum model ts e) (hs : SameText ts us)
    (hm : Admits model model' ts) : ∃ e', IsEnum model' us e' ∧ e'.unplaced = e.unplaced := by
  cases h with
  | @intro keyword name left right body finish vs hk hNew hl hBody hDistinct hr hFinish =>
    obtain _ | ⟨_, _ | ⟨p, _ | ⟨_, hs⟩⟩⟩ := hs
    obtain ⟨_, _, rfl, hBodies, _ | ⟨_, hFinishes⟩⟩ := hs.append_left
    exact ⟨_, IsEnum.intro hk (hNew.congr (hm.new name (by simp) hNew.notDeclared) p) hl
      (hBody.congr hBodies) hDistinct hr (optionalSemicolon_congr hFinish hFinishes), rfl⟩

theorem IsConfig.congr (h : IsConfig ts) (hs : SameText ts us) : IsConfig us := by
  cases h with
  | intro hk hl hBody hr =>
    obtain _ | ⟨_, _ | ⟨_, hs⟩⟩ := hs
    obtain ⟨_, _, rfl, hBodies, _ | ⟨_, _ | _⟩⟩ := hs.append_left
    exact IsConfig.intro hk hl (hBody.congr hBodies) hr

/-! ## Reading -/

theorem closes_congr {used used' rest rest' : List Token} (h : Closes used rest)
    (hUsed : SameText used used') (hRest : SameText rest rest') : Closes used' rest' := by
  rcases h with ⟨t, hLast, ht⟩ | hNext
  · obtain ⟨front, rfl⟩ := List.getLast?_eq_some_iff.1 hLast
    obtain ⟨front', _, rfl, _, _ | ⟨p, _ | _⟩⟩ := hUsed.append_left
    exact Or.inl ⟨{ t with position := p }, by simp, ht⟩
  · refine Or.inr ?_
    cases hRest with
    | nil => exact hNext
    | @cons t _ _ p _ => exact notBefore_cons (hNext t rfl)

theorem includePath_congr {written : String} {rest : List Token}
    (h : includePath ts = .ok (written, rest)) (hs : SameText ts us) :
    ∃ rest', includePath us = .ok (written, rest') ∧ SameText rest rest' := by
  induction hs generalizing written rest with
  | nil => cases h
  | @cons t ts us p hs ih =>
    have hSame : ({ t with position := p } : Token).is ";" = t.is ";" := rfl
    simp only [includePath, hSame] at h ⊢
    by_cases hEnd : t.is ";" = true
    · simp only [hEnd, if_true, Except.ok.injEq, Prod.mk.injEq] at h ⊢
      obtain ⟨rfl, rfl⟩ := h
      exact ⟨us, ⟨rfl, rfl⟩, hs⟩
    · simp only [hEnd, if_false, Bool.false_eq_true, bind_eq_ok_iff, Except.ok.injEq,
        Prod.mk.injEq, Prod.exists] at h ⊢
      obtain ⟨text, rest, hMore, rfl, rfl⟩ := h
      obtain ⟨rest', hMore', hRest⟩ := ih hMore
      exact ⟨rest', ⟨text, rest', hMore', rfl, rfl⟩, hRest⟩

/-- The path that a declaration includes, if it is an inclusion. -/
def written? : Declaration → Option String
  | .includes _ path => some path
  | _ => none

/-- The declaration without positions. -/
def unplaced : Declaration → Declaration
  | .struct s => .struct s.unplaced
  | .enumeration e => .enumeration e.unplaced
  | .config => .config
  | .includes _ path => .includes default path

theorem written?_unplaced (d : Declaration) : written? (unplaced d) = written? d := by
  cases d <;> rfl

theorem declaration_include {t : Token} {d : Declaration} {rest : List Token}
    (ht : t.is "include") :
    declaration model t ts = .ok (d, rest) ↔
      ∃ written, includePath ts = .ok (written, rest) ∧ written ≠ "" ∧
        d = .includes t.position written := by
  simp only [declaration, ht, if_true, bind_eq_ok_iff, Prod.exists]
  constructor
  · rintro ⟨path, after, hPath, h⟩
    split at h
    · cases h
    · rename_i hne
      simp only [Except.ok.injEq, Prod.mk.injEq] at h
      obtain ⟨rfl, rfl⟩ := h
      exact ⟨path, hPath, hne, rfl⟩
  · rintro ⟨path, hPath, hne, rfl⟩
    exact ⟨path, rest, hPath, by simp [hne]⟩

/-- One declaration is read in the same way wherever its tokens stand, and in every model that
admits its names. -/
theorem declaration_congr {t u : Token} {d : Declaration} {rest : List Token}
    (h : declaration model t ts = .ok (d, rest)) (hs : SameText (t :: ts) (u :: us))
    (hw : WordsNonempty (t :: ts)) (hm : Admits model model' (t :: ts)) :
    ∃ d' rest', declaration model' u us = .ok (d', rest') ∧ unplaced d' = unplaced d ∧
      SameText rest rest' := by
  rcases declaration_cases h with ⟨s, used, rfl, hUsed, hStruct, hNext⟩ |
    ⟨e, used, rfl, hUsed, hEnum, hNext⟩ | ⟨used, rfl, hUsed, hConfig⟩ | ⟨path, rfl, ht⟩
  · rw [hUsed] at hs hm hw
    obtain ⟨used', rest', hUs, hSame, hRest⟩ := hs.append_left
    obtain ⟨s', hs', hPlaces⟩ := hStruct.congr hSame (hm.of_subset (by simp))
    have hNonempty := hSame.wordsNonempty (fun t ht => hw t (by simp [ht]))
    obtain ⟨keyword, more, rfl, hd⟩ :=
      declaration_struct hs' hNonempty (closes_congr hNext hSame hRest)
    obtain ⟨rfl, rfl⟩ := List.cons.inj hUs
    exact ⟨_, rest', hd, congrArg Declaration.struct hPlaces, hRest⟩
  · rw [hUsed] at hs hm
    obtain ⟨used', rest', hUs, hSame, hRest⟩ := hs.append_left
    obtain ⟨e', he', hPlaces⟩ := hEnum.congr hSame (hm.of_subset (by simp))
    obtain ⟨keyword, more, rfl, hd⟩ :=
      declaration_enumeration he' (closes_congr hNext hSame hRest)
    obtain ⟨rfl, rfl⟩ := List.cons.inj hUs
    exact ⟨_, rest', hd, congrArg Declaration.enumeration hPlaces, hRest⟩
  · rw [hUsed] at hs
    obtain ⟨used', rest', hUs, hSame, hRest⟩ := hs.append_left
    obtain ⟨keyword, more, rfl, _, hd⟩ :=
      config_complete model' rest' (hConfig.congr hSame)
    obtain ⟨rfl, rfl⟩ := List.cons.inj hUs
    exact ⟨_, rest', hd, rfl, hRest⟩
  · obtain _ | ⟨p, hs⟩ := hs
    obtain ⟨written, hPath, hne, hd⟩ := (declaration_include ht).1 h
    obtain ⟨rest', hPath', hRest⟩ := includePath_congr hPath hs
    obtain ⟨_, rfl⟩ : t.position = t.position ∧ path = written := by simpa using hd
    have ht' : ({ t with position := p } : Token).is "include" := ht
    exact ⟨_, rest', (declaration_include ht').2 ⟨path, hPath', hne, rfl⟩, rfl, hRest⟩

end Derivation

end EntitySchema
