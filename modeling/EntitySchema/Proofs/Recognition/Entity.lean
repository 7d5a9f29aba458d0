import EntitySchema.Proofs.Recognition.Member

/-!
Reading structs and enums follows the grammar. The loops over members and values add to what they
have so far, so their statements are about any such start; the names of all of it stay distinct.
-/

namespace EntitySchema.Grammar

open EntitySchema.Derivation

variable {model : Model} {ts rest used : List Token}

/-! ## Structs -/

/-- A word that is no name is not the first token of anything that starts with a name. -/
theorem not_is_of_isIdentifier {t : Token} {word : String} (h : isIdentifier t)
    (hw : isName word = false) : t.is word = false := by
  rw [Bool.eq_false_iff]
  intro ht
  obtain ⟨_, rfl⟩ := Token.is_iff.1 ht
  simp [isIdentifier, hw] at h

theorem isType_head {words : List String} {type : TypeExpr} (h : IsType words model used type) :
    ∃ t more, used = t :: more ∧ isIdentifier t := by
  cases h with
  | array hk _ _ _ => exact ⟨_, _, rfl, isIdentifier_of_is hk (by decide)⟩
  | scalar hq hs =>
    refine ⟨_, _, rfl, ?_⟩
    unfold isIdentifier
    rw [hq, ← keyword_of_ofKeyword? hs, isName_keyword]
    rfl
  | named hName _ _ => exact ⟨_, _, rfl, hName⟩

theorem isMember_head {words : List String} {m : Member} (h : IsMember words model used m) :
    ∃ t more, used = t :: more ∧ isIdentifier t := by
  cases h with
  | intro hType _ _ _ _ _ =>
    obtain ⟨t, more, rfl, ht⟩ := isType_head hType
    exact ⟨t, _, rfl, ht⟩

theorem members_sound {s s' : Struct} (h : members model.isTypeName s ts = .ok (s', rest)) :
    ∃ used right ms, ts = used ++ right :: rest ∧ right.is "\x7d" ∧
      AreMembers typeWords model used ms ∧ s' = { s with members := s.members ++ ms } ∧
      ((s.members.map Member.name).Nodup → ((s.members ++ ms).map Member.name).Nodup) := by
  fun_induction members model.isTypeName s ts generalizing rest with
  | case1 => simp at h
  | case2 s t after ht =>
    simp only [Except.ok.injEq, Prod.mk.injEq] at h
    obtain ⟨rfl, rfl⟩ := h
    exact ⟨[], t, [], rfl, ht, AreMembers.nil, by simp, by simp⟩
  | case3 => simp at h
  | case4 => simp at h
  | case5 s t ts _ name m after hm s2 hs2 ih =>
    obtain ⟨used, hUsed, hMember⟩ := member_sound hm
    obtain ⟨hNew, rfl⟩ := addMember?_eq_some.1 hs2
    obtain ⟨others, right, ms, rfl, hr, hOthers, rfl, hDistinct⟩ := ih h
    refine ⟨used ++ others, right, m :: ms, by rw [hUsed, List.append_assoc], hr,
      AreMembers.cons hMember hOthers, by simp, ?_⟩
    intro hs
    have hNext : ((s.members ++ [m]).map Member.name).Nodup := by
      rw [List.map_append]
      exact nodup_snoc hs hNew
    simpa using hDistinct hNext

theorem members_complete {s : Struct} {right : Token} {ms : List Member}
    (h : AreMembers typeWords model used ms) (hw : WordsNonempty used) (hr : right.is "\x7d")
    (hDistinct : ((s.members ++ ms).map Member.name).Nodup) :
    members model.isTypeName s (used ++ right :: rest) =
      .ok ({ s with members := s.members ++ ms }, rest) := by
  induction h generalizing s with
  | nil =>
    unfold members
    simp [hr]
  | @cons used others m ms hm hms ih =>
    have hOthers : WordsNonempty others := fun t ht => hw t (by simp [ht])
    have hUsed : WordsNonempty used := fun t ht => hw t (by simp [ht])
    -- A member starts with a name, so the loop does not take it for the closing brace.
    obtain ⟨t, more, rfl, ht⟩ := isMember_head hm
    obtain ⟨name, hMember⟩ : ∃ name, member model.isTypeName
        (t :: more ++ (others ++ right :: rest)) = .ok ((name, m), others ++ right :: rest) :=
      member_complete hm hUsed
    have hNew : s.addMember? m = some { s with members := s.members ++ [m] } := by
      refine addMember?_eq_some.2 ⟨?_, rfl⟩
      intro hMem
      rw [List.map_append, List.nodup_append] at hDistinct
      exact hDistinct.2.2 _ hMem _ (by simp) rfl
    have hRest :=
      ih (s := { s with members := s.members ++ [m] }) hOthers (by simpa using hDistinct)
    rw [List.append_assoc, List.cons_append] at *
    unfold members
    rw [if_neg (by rw [not_is_of_isIdentifier ht (by decide)]; simp)]
    split
    · rename_i he
      rw [hMember] at he
      cases he
    · rename_i name' m' after he
      rw [hMember] at he
      cases he
      simp only [hNew]
      simpa using hRest

theorem newName_eq_ok {expected : Expected} {name : Token} :
    newName model expected ts = .ok (name, rest) ↔ ts = name :: rest ∧ IsNewName model name := by
  simp only [newName, bind_eq_ok_iff, Prod.exists, identifier_eq_ok]
  constructor
  · rintro ⟨t, more, ⟨rfl, ht⟩, h⟩
    split at h
    · simp at h
    · split at h
      · simp at h
      · rename_i hReserved hDeclared
        simp only [Except.ok.injEq, Prod.mk.injEq] at h
        obtain ⟨rfl, rfl⟩ := h
        exact ⟨rfl, ht, by simpa using hReserved, by simpa using hDeclared⟩
  · rintro ⟨rfl, hNew⟩
    refine ⟨name, rest, ⟨rfl, hNew.identifier⟩, ?_⟩
    simp [hNew.notReserved, hNew.notDeclared]

/-- The key is appended to a struct without one. -/
theorem close_eq {s : Struct} (h : ∀ m ∈ s.members, m.name ≠ keyName) :
    s.close = { s with members := s.members ++ [Member.key] } := by
  have hNew : s.addMember? Member.key = some { s with members := s.members ++ [Member.key] } := by
    refine addMember?_eq_some.2 ⟨?_, rfl⟩
    intro hMem
    obtain ⟨m, hm, hName⟩ := List.mem_map.1 hMem
    exact h m hm hName
  simp [Struct.close, Struct.addMember, hNew]

theorem struct_sound {keyword : Token} {s : Struct} (hk : keyword.is "struct")
    (h : struct model ts = .ok (s, rest)) :
    ∃ used, keyword :: ts = used ++ rest ∧ IsStruct typeWords model used s ∧ Closes used rest := by
  simp only [struct, bind_eq_ok_iff, Prod.exists, newName_eq_ok, expect_eq_ok, Except.ok.injEq,
    Prod.mk.injEq] at h
  obtain ⟨name, _, ⟨rfl, hNew⟩, _, ⟨left, rfl, hl⟩, s', after, hMembers, rfl, rfl⟩ := h
  obtain ⟨body, right, ms, rfl, hr, hBody, rfl, hDistinct⟩ := members_sound hMembers
  obtain ⟨finish, hAfter, hFinish, hNext⟩ :=
    optionalSemicolon_split (keyword :: name :: left :: (body ++ [right])) after
  refine ⟨keyword :: name :: left :: (body ++ right :: finish), ?_, ?_, by simpa using hNext⟩
  · simp only [List.cons_append, List.append_assoc, ← hAfter]
  · rw [close_eq (by simpa using areMembers_name hBody)]
    exact IsStruct.intro hk hNew hl hBody (by simpa using hDistinct) hr hFinish

theorem struct_complete {s : Struct} (h : IsStruct typeWords model used s)
    (hw : WordsNonempty used) (hNext : Closes used rest) :
    ∃ keyword more, used = keyword :: more ∧ keyword.is "struct" ∧
      struct model (more ++ rest) = .ok (s, rest) := by
  cases h with
  | @intro keyword name left right body finish ms hk hNew hl hBody hDistinct hr hFinish =>
    have hNonempty : WordsNonempty body := fun t ht => hw t (by simp [ht])
    refine ⟨keyword, _, rfl, hk, ?_⟩
    simp only [List.cons_append, List.append_assoc, struct, bind_eq_ok_iff, Prod.exists,
      newName_eq_ok, expect_eq_ok]
    refine ⟨name, _, ⟨rfl, hNew⟩, _, ⟨left, rfl, hl⟩, _, _,
      members_complete hBody hNonempty hr (by simpa using hDistinct), ?_⟩
    have hAfter : optionalSemicolon (finish ++ rest) = rest :=
      optionalSemicolon_append (keyword :: name :: left :: body) hFinish hr hNext
    rw [close_eq (by simpa using areMembers_name hBody), hAfter]
    rfl

/-! ## Enums -/

theorem implicitValue_eq_some {last : Option Int} {i : Int} : implicitValue last = some i ↔
    (last = none ∧ i = 0) ∨ ∃ previous, last = some previous ∧ previous < Number.maxSigned ∧
      i = previous + 1 := by
  rcases last with _ | previous
  · simp [implicitValue, eq_comm]
  · simp only [implicitValue]
    split <;> grind

/-- A value starts with its name, and its number is what follows. -/
theorem valueNumber_sound {name : Token} {last : Option Int} {i : Int} (hName : isIdentifier name)
    (hUnknown : name.text ≠ unknownName) (h : valueNumber name last ts = .ok (i, rest)) :
    ∃ used, name :: ts = used ++ rest ∧ IsValue last used ⟨name.text, i⟩ := by
  have implicit : valueNumber.implicit name last ts = .ok (i, rest) →
      ∃ used, name :: ts = used ++ rest ∧ IsValue last used ⟨name.text, i⟩ := by
    intro h
    simp only [valueNumber.implicit] at h
    split at h
    · rename_i value hValue
      simp only [Except.ok.injEq, Prod.mk.injEq] at h
      obtain ⟨rfl, rfl⟩ := h
      rcases implicitValue_eq_some.1 hValue with ⟨rfl, rfl⟩ | ⟨previous, rfl, hp, rfl⟩
      · exact ⟨[name], rfl, IsValue.first hName hUnknown⟩
      · exact ⟨[name], rfl, IsValue.next hName hUnknown hp⟩
    · simp at h
  cases ts with
  | nil => exact implicit h
  | cons equals ts =>
    simp only [valueNumber] at h
    split at h
    · rename_i he
      obtain ⟨number, rfl, hq, hn⟩ := number_eq_ok.1 h
      exact ⟨[name, equals, number], rfl, IsValue.explicit hName hUnknown he hq hn⟩
    · exact implicit h

theorem isValue_head {last : Option Int} {v : EnumValue} (h : IsValue last used v) :
    ∃ name more, used = name :: more ∧ isIdentifier name ∧ name.text ≠ unknownName ∧
      v.name = name.text := by
  cases h with
  | explicit hName hUnknown _ _ _ => exact ⟨_, _, rfl, hName, hUnknown, rfl⟩
  | first hName hUnknown => exact ⟨_, _, rfl, hName, hUnknown, rfl⟩
  | next hName hUnknown _ => exact ⟨_, _, rfl, hName, hUnknown, rfl⟩

theorem valueNumber_complete {name : Token} {more : List Token} {last : Option Int}
    {v : EnumValue} (h : IsValue last (name :: more) v) (hNext : NotBefore "=" rest) :
    valueNumber name last (more ++ rest) = .ok (v.value, rest) := by
  have implicit : ∀ {i : Int}, implicitValue last = some i →
      valueNumber name last rest = .ok (i, rest) := by
    intro i hi
    cases rest with
    | nil => simp [valueNumber, valueNumber.implicit, hi]
    | cons t rest =>
      have ht : t.is "=" = false := hNext t rfl
      simp [valueNumber, valueNumber.implicit, hi, ht]
  cases h with
  | explicit _ _ he hq hn =>
    simp only [List.cons_append, List.nil_append, valueNumber, he, if_true]
    exact number_eq_ok.2 ⟨_, rfl, hq, hn⟩
  | first _ _ => exact implicit (implicitValue_eq_some.2 (Or.inl ⟨rfl, rfl⟩))
  | next _ _ hp => exact implicit (implicitValue_eq_some.2 (Or.inr ⟨_, rfl, hp, rfl⟩))

theorem addValue?_eq_some {e e' : Enumeration} {name : String} {i : Int} :
    e.addValue? name i = some e' ↔
      name ∉ e.values.map EnumValue.name ∧ e' = { e with values := e.values ++ [⟨name, i⟩] } := by
  unfold Enumeration.addValue?
  split <;> grind

theorem values_sound {e e' : Enumeration} {last : Option Int}
    (h : values e last ts = .ok (e', rest)) :
    ∃ used right vs, ts = used ++ right :: rest ∧ right.is "\x7d" ∧ AreValues last used vs ∧
      e' = { e with values := e.values ++ vs } ∧
      ((e.values.map EnumValue.name).Nodup → ((e.values ++ vs).map EnumValue.name).Nodup) := by
  fun_induction values e last ts generalizing rest with
  | case1 => simp at h
  | case2 e last t after ht =>
    simp only [Except.ok.injEq, Prod.mk.injEq] at h
    obtain ⟨rfl, rfl⟩ := h
    exact ⟨[], t, [], rfl, ht, AreValues.nil, by simp, by simp⟩
  | case3 => simp at h
  | case4 => simp at h
  | case5 => simp at h
  | case6 => simp at h
  | case7 => simp at h
  | case8 e last t ts _ hName hUnknown value e2 he2 comma more hv hComma _ ih =>
    obtain ⟨used, hUsed, hValue⟩ := valueNumber_sound (by simpa using hName) hUnknown hv
    obtain ⟨hNew, rfl⟩ := addValue?_eq_some.1 he2
    obtain ⟨others, right, vs, rfl, hr, hOthers, rfl, hDistinct⟩ := ih h
    refine ⟨used ++ comma :: others, right, ⟨t.text, value⟩ :: vs, by simp [hUsed], hr,
      AreValues.cons hValue hComma hOthers, by simp, ?_⟩
    intro he
    have hNext : ((e.values ++ [EnumValue.mk t.text value]).map EnumValue.name).Nodup := by
      rw [List.map_append]
      exact nodup_snoc he hNew
    simpa using hDistinct hNext
  | case9 e last t ts _ hName hUnknown value e2 he2 right more hv _ hr =>
    obtain ⟨used, hUsed, hValue⟩ := valueNumber_sound (by simpa using hName) hUnknown hv
    obtain ⟨hNew, rfl⟩ := addValue?_eq_some.1 he2
    simp only [Except.ok.injEq, Prod.mk.injEq] at h
    obtain ⟨rfl, rfl⟩ := h
    refine ⟨used, right, [⟨t.text, value⟩], hUsed, hr, AreValues.single hValue, rfl, ?_⟩
    intro he
    rw [List.map_append]
    exact nodup_snoc he hNew
  | case10 => simp at h

/-- One value is read and added; then a comma or the closing brace decides how it goes on. -/
theorem values_step {e : Enumeration} {last : Option Int} {v : EnumValue} {after : Token}
    (h : IsValue last used v) (hNew : v.name ∉ e.values.map EnumValue.name)
    (hAfter : after.is "," ∨ after.is "\x7d") :
    values e last (used ++ after :: rest) =
      if after.is "," then values { e with values := e.values ++ [v] } (some v.value) rest
      else .ok ({ e with values := e.values ++ [v] }, rest) := by
  obtain ⟨name, more, rfl, hName, hUnknown, hv⟩ := isValue_head h
  have hNext : NotBefore "=" (after :: rest) := by
    rcases hAfter with ha | ha
    · exact notBefore_cons (Token.is_ne ha (by decide))
    · exact notBefore_cons (Token.is_ne ha (by decide))
  have hNumber := valueNumber_complete h hNext
  have hAdd : e.addValue? name.text v.value = some { e with values := e.values ++ [v] } := by
    refine addValue?_eq_some.2 ⟨hv ▸ hNew, ?_⟩
    rw [← hv]
  rw [List.cons_append]
  conv => lhs; unfold values
  -- Not the closing brace, a name, and not the reserved one.
  rw [if_neg (by rw [not_is_of_isIdentifier hName (by decide)]; simp), if_neg (by simp [hName]),
    if_neg hUnknown]
  split
  · rename_i he
    rw [hNumber] at he
    cases he
  · rename_i value after' he
    rw [hNumber] at he
    cases he
    simp only [hAdd]
    rcases hAfter with ha | ha
    · simp [ha]
    · simp [ha, Token.is_ne ha (by decide : "\x7d" ≠ ",")]

theorem values_complete {e : Enumeration} {last : Option Int} {right : Token} {vs : List EnumValue}
    (h : AreValues last used vs) (hr : right.is "\x7d")
    (hDistinct : ((e.values ++ vs).map EnumValue.name).Nodup) :
    values e last (used ++ right :: rest) =
      .ok ({ e with values := e.values ++ vs }, rest) := by
  have hNew : ∀ {e : Enumeration} {v : EnumValue} {vs : List EnumValue},
      ((e.values ++ v :: vs).map EnumValue.name).Nodup → v.name ∉ e.values.map EnumValue.name := by
    intro e v vs hDistinct hMem
    rw [List.map_append, List.nodup_append] at hDistinct
    exact hDistinct.2.2 _ hMem _ (by simp) rfl
  induction h generalizing e with
  | nil =>
    unfold values
    simp [hr]
  | single hv =>
    rw [values_step hv (hNew hDistinct) (Or.inr hr),
      Token.is_ne hr (by decide : "\x7d" ≠ ",")]
    rfl
  | @cons last used others v vs comma hv hc _ ih =>
    have hRest := ih (e := { e with values := e.values ++ [v] }) (by simpa using hDistinct)
    rw [List.append_assoc, List.cons_append, values_step hv (hNew hDistinct) (Or.inl hc), hc,
      if_pos rfl]
    simpa using hRest

theorem areValues_name {last : Option Int} {vs : List EnumValue} (h : AreValues last used vs) :
    ∀ v ∈ vs, v.name ≠ unknownName := by
  have single : ∀ {last used v}, IsValue last used v → v.name ≠ unknownName := by
    intro last used v hv
    obtain ⟨name, more, rfl, _, hUnknown, hName⟩ := isValue_head hv
    exact hName ▸ hUnknown
  induction h with
  | nil => simp
  | single hv => simpa using single hv
  | cons hv _ _ ih =>
    intro w hMem
    rcases List.mem_cons.1 hMem with rfl | hMem
    · exact single hv
    · exact ih w hMem

/-- `Unknown` is appended to an enum without it. -/
theorem enum_close_eq {e : Enumeration} (h : ∀ v ∈ e.values, v.name ≠ unknownName) :
    e.close = { e with values := e.values ++ [⟨unknownName, -1⟩] } := by
  have hNew : e.addValue? unknownName (-1) =
      some { e with values := e.values ++ [⟨unknownName, -1⟩] } := by
    refine addValue?_eq_some.2 ⟨?_, rfl⟩
    intro hMem
    obtain ⟨v, hv, hName⟩ := List.mem_map.1 hMem
    exact h v hv hName
  simp [Enumeration.close, Enumeration.addValue, hNew]

theorem enumeration_sound {keyword : Token} {e : Enumeration} (hk : keyword.is "enum")
    (h : enumeration model ts = .ok (e, rest)) :
    ∃ used, keyword :: ts = used ++ rest ∧ IsEnum model used e ∧ Closes used rest := by
  simp only [enumeration, bind_eq_ok_iff, Prod.exists, newName_eq_ok, expect_eq_ok,
    Except.ok.injEq, Prod.mk.injEq] at h
  obtain ⟨name, _, ⟨rfl, hNew⟩, _, ⟨left, rfl, hl⟩, e', after, hValues, rfl, rfl⟩ := h
  obtain ⟨body, right, vs, rfl, hr, hBody, rfl, hDistinct⟩ := values_sound hValues
  obtain ⟨finish, hAfter, hFinish, hNext⟩ :=
    optionalSemicolon_split (keyword :: name :: left :: (body ++ [right])) after
  refine ⟨keyword :: name :: left :: (body ++ right :: finish), ?_, ?_, by simpa using hNext⟩
  · simp only [List.cons_append, List.append_assoc, ← hAfter]
  · rw [enum_close_eq (by simpa using areValues_name hBody)]
    exact IsEnum.intro hk hNew hl hBody (by simpa using hDistinct) hr hFinish

theorem enumeration_complete {e : Enumeration} (h : IsEnum model used e)
    (hNext : Closes used rest) :
    ∃ keyword more, used = keyword :: more ∧ keyword.is "enum" ∧
      enumeration model (more ++ rest) = .ok (e, rest) := by
  cases h with
  | @intro keyword name left right body finish vs hk hNew hl hBody hDistinct hr hFinish =>
    refine ⟨keyword, _, rfl, hk, ?_⟩
    simp only [List.cons_append, List.append_assoc, enumeration, bind_eq_ok_iff, Prod.exists,
      newName_eq_ok, expect_eq_ok]
    refine ⟨name, _, ⟨rfl, hNew⟩, _, ⟨left, rfl, hl⟩, _, _,
      values_complete hBody hr (by simpa using hDistinct), ?_⟩
    have hAfter : optionalSemicolon (finish ++ rest) = rest :=
      optionalSemicolon_append (keyword :: name :: left :: body) hFinish hr hNext
    rw [enum_close_eq (by simpa using areValues_name hBody), hAfter]
    rfl

end EntitySchema.Grammar
