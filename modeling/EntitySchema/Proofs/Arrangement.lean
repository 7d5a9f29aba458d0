import EntitySchema.Proofs.Blocks
import EntitySchema.Proofs.Validity
import Mathlib.Data.List.Perm.Basic

/-!
The order of declarations. What a block declares depends on the model before it only in so far as
its name must be new and the names in its types must be known. All names of a source are announced
before it is read, and a checked source uses no others, so its blocks may stand in any order, and
config blocks may be put between them. The main result says that such a change of a source changes
the order of its structs and enums and nothing else.
-/

namespace EntitySchema

namespace Grammar

open EntitySchema.Derivation

/-! ## What a declaration needs of the model -/

/-- The struct or enum that is declared. -/
def Declaration.name? : Declaration → Option String
  | struct s => some s.name
  | enumeration e => some e.name
  | _ => none

def Declaration.struct? : Declaration → Option Struct
  | struct s => some s
  | _ => none

def Declaration.enum? : Declaration → Option Enumeration
  | enumeration e => some e
  | _ => none

/-- The structs and enums that members are typed with. -/
def Declaration.typeNames : Declaration → List String
  | struct s => s.members.filterMap (fun m => m.type.innermostName?)
  | _ => []

/-- The declaration can be made in the model: its name is new, and the names in its types are
known. -/
structure Declaration.Fits (model : Model) (d : Declaration) : Prop where
  name : ∀ n, d.name? = some n → model.isDeclared n = false
  types : ∀ n ∈ d.typeNames, model.isTypeName n = true

section

variable {known known' : String → Bool} {ts rest : List Token}

theorem typeExpr_transfer {type : TypeExpr} (h : typeExpr known ts = .ok (type, rest))
    (hKnown : ∀ n, type.innermostName? = some n → known' n = true) :
    typeExpr known' ts = .ok (type, rest) := by
  fun_induction typeExpr known ts generalizing type rest with
  | case1 => cases h
  | case2 => cases h
  | case3 t ht left inner hl ih =>
    obtain ⟨⟨element, after⟩, hElement, close, hClose, h⟩ := by
      simpa only [bind_eq_ok_iff] using h
    obtain ⟨rfl, rfl⟩ : TypeExpr.array element = type ∧ close = rest := by simpa using h
    have hInner := ih hElement hKnown
    simp only [typeExpr, ht, hl, if_true, bind_eq_ok_iff]
    exact ⟨_, hInner, _, hClose, rfl⟩
  | case4 => cases h
  | case5 => cases h
  | case6 t after hArray hName s hs =>
    unfold typeExpr
    rw [if_neg hArray, if_neg hName, hs]
    exact h
  | case7 t after hArray hName hs hk =>
    obtain ⟨rfl, rfl⟩ : TypeExpr.named t.text = type ∧ after = rest := by simpa using h
    unfold typeExpr
    rw [if_neg hArray, if_neg hName, hs]
    exact if_pos (hKnown t.text rfl)
  | case8 => cases h

/-- Modifiers leave the type of a member as it is. -/
theorem foldl_apply_type (ms : List Modifier) (m : Member) :
    (ms.foldl Modifier.apply m).type = m.type := by
  induction ms generalizing m with
  | nil => rfl
  | cons x ms ih => rw [List.foldl_cons, ih, apply_type]

theorem member_transfer {x : Token × Member} (h : member known ts = .ok (x, rest))
    (hKnown : ∀ n, x.2.type.innermostName? = some n → known' n = true) :
    member known' ts = .ok (x, rest) := by
  unfold member at h ⊢
  simp only [bind_eq_ok_iff] at h ⊢
  obtain ⟨⟨type, after⟩, hType, hRest⟩ := h
  refine ⟨⟨type, after⟩, typeExpr_transfer hType ?_, hRest⟩
  obtain ⟨_, _, ⟨name, _⟩, _, hRest⟩ := hRest
  split at hRest
  · cases hRest
  · obtain ⟨⟨ms, _⟩, _, hLast⟩ := bind_eq_ok_iff.1 hRest
    obtain ⟨rfl, _⟩ : (name, ms.foldl Modifier.apply _) = x ∧ _ := by simpa using hLast
    rwa [foldl_apply_type] at hKnown

theorem subset_members {s s' : Struct} (h : members known s ts = .ok (s', rest)) :
    s.members ⊆ s'.members := by
  fun_induction members known s ts with
  | case1 => cases h
  | case2 s =>
    obtain ⟨rfl, _⟩ : s = s' ∧ _ := by simpa using h
    exact fun _ hm => hm
  | case3 => cases h
  | case4 => cases h
  | case5 s t ts _ name m after _ s₂ hAdd ih =>
    obtain ⟨_, rfl⟩ := addMember?_eq_some.1 hAdd
    exact fun x hx => ih h (List.mem_append_left [m] hx)

theorem members_transfer {s s' : Struct} (h : members known s ts = .ok (s', rest))
    (hKnown : ∀ m ∈ s'.members, ∀ n, m.type.innermostName? = some n → known' n = true) :
    members known' s ts = .ok (s', rest) := by
  induction hn : ts.length using Nat.strongRecOn generalizing ts s with
  | ind len ih =>
    cases ts with
    | nil =>
      rw [members] at h
      cases h
    | cons t ts =>
      rw [members_cons] at h ⊢
      split at h
      · rename_i ht
        rw [if_pos ht]
        exact h
      · rename_i ht
        rw [if_neg ht]
        obtain ⟨⟨⟨name, m⟩, after⟩, hMember, hAfter⟩ := bind_eq_ok_iff.1 h
        have hShorter := member_shorter hMember
        unfold membersAfter at hAfter
        dsimp only at hAfter
        split at hAfter
        · cases hAfter
        · rename_i s₂ hAdd
          have hLast : m ∈ s'.members := by
            obtain ⟨_, rfl⟩ := addMember?_eq_some.1 hAdd
            exact subset_members hAfter (List.mem_append_right _ List.mem_cons_self)
          refine bind_eq_ok_iff.2 ⟨_, member_transfer hMember (hKnown m hLast), ?_⟩
          unfold membersAfter
          dsimp only
          rw [hAdd]
          exact ih after.length (hn ▸ hShorter) hAfter rfl

end

variable {model model' : Model} {ts rest : List Token}

theorem newName_transfer {expected : Expected} {name : Token}
    (h : newName model expected ts = .ok (name, rest))
    (hNew : model'.isDeclared name.text = false) :
    newName model' expected ts = .ok (name, rest) := by
  obtain ⟨rfl, hName⟩ := newName_eq_ok.1 h
  exact newName_eq_ok.2 ⟨rfl, hName.identifier, hName.notReserved, hNew⟩

theorem struct_transfer {s : Struct} (h : struct model ts = .ok (s, rest))
    (hNew : model'.isDeclared s.name = false)
    (hTypes : ∀ m ∈ s.members, ∀ n, m.type.innermostName? = some n → model'.isTypeName n = true) :
    struct model' ts = .ok (s, rest) := by
  simp only [struct, bind_eq_ok_iff, Prod.exists] at h ⊢
  obtain ⟨name, _, hName, _, hLeft, body, _, hBody, hLast⟩ := h
  obtain ⟨rfl, rfl⟩ : body.close = s ∧ _ := by simpa using hLast
  -- The struct has the name that was read, and its key is the last of its members.
  obtain ⟨_, _, ms, _, _, hMembers, hStruct, _⟩ := members_sound hBody
  have hClose : body.close = { body with members := body.members ++ [Member.key] } := by
    apply close_eq
    rw [hStruct]
    simpa using areMembers_name hMembers
  have hBodyName : body.name = name.text := by rw [hStruct]
  rw [hClose] at hNew hTypes
  refine ⟨name, _, newName_transfer hName (hBodyName ▸ hNew), _, hLeft, body, _, ?_, rfl⟩
  exact members_transfer hBody (fun m hm => hTypes m (List.mem_append_left _ hm))

theorem enumeration_transfer {e : Enumeration} (h : enumeration model ts = .ok (e, rest))
    (hNew : model'.isDeclared e.name = false) : enumeration model' ts = .ok (e, rest) := by
  simp only [enumeration, bind_eq_ok_iff, Prod.exists] at h ⊢
  obtain ⟨name, _, hName, _, hLeft, body, _, hBody, hLast⟩ := h
  obtain ⟨rfl, rfl⟩ : body.close = e ∧ _ := by simpa using hLast
  obtain ⟨_, _, vs, _, _, hValues, hEnum, _⟩ := values_sound hBody
  have hClose : body.close = { body with values := body.values ++ [⟨unknownName, -1⟩] } := by
    apply enum_close_eq
    rw [hEnum]
    simpa using areValues_name hValues
  have hBodyName : body.name = name.text := by rw [hEnum]
  rw [hClose] at hNew
  exact ⟨name, _, newName_transfer hName (hBodyName ▸ hNew), _, hLeft, body, _, hBody, rfl⟩

/-- What is read as a declaration in one model is read so in every model that it fits. -/
theorem declaration_transfer {t : Token} {d : Declaration}
    (h : declaration model t ts = .ok (d, rest)) (hFits : d.Fits model') :
    declaration model' t ts = .ok (d, rest) := by
  unfold declaration at h ⊢
  by_cases hInclude : t.is "include" = true
  · rw [if_pos hInclude] at h ⊢
    exact h
  · rw [if_neg hInclude] at h ⊢
    by_cases hStruct : t.is "struct" = true
    · rw [if_pos hStruct] at h ⊢
      obtain ⟨⟨s, after⟩, hs, hLast⟩ := bind_eq_ok_iff.1 h
      obtain ⟨rfl, rfl⟩ : Declaration.struct s = d ∧ after = rest := by simpa using hLast
      refine bind_eq_ok_iff.2 ⟨_, struct_transfer hs (hFits.name s.name rfl) ?_, rfl⟩
      intro m hm n hn
      exact hFits.types n (List.mem_filterMap.2 ⟨m, hm, hn⟩)
    · rw [if_neg hStruct] at h ⊢
      by_cases hEnum : t.is "enum" = true
      · rw [if_pos hEnum] at h ⊢
        obtain ⟨⟨e, after⟩, he, hLast⟩ := bind_eq_ok_iff.1 h
        obtain ⟨rfl, rfl⟩ : Declaration.enumeration e = d ∧ after = rest := by simpa using hLast
        exact bind_eq_ok_iff.2 ⟨_, enumeration_transfer he (hFits.name e.name rfl), rfl⟩
      · rw [if_neg hEnum] at h ⊢
        exact h

theorem fits_of_declaration {t : Token} {d : Declaration}
    (h : declaration model t ts = .ok (d, rest)) : d.Fits model := by
  rcases declaration_cases h with ⟨s, used, rfl, _, hStruct, _⟩ | ⟨e, used, rfl, _, hEnum, _⟩ |
    ⟨used, rfl, _⟩ | ⟨path, rfl, _⟩
  · obtain ⟨⟨_, _, ms, hs, hMembers, _⟩, hNew⟩ := hStruct.declared
    refine ⟨?_, ?_⟩
    · intro n hn
      obtain rfl := Option.some.inj hn
      rw [Bool.eq_false_iff]
      exact fun h => hNew (Model.isDeclared_iff.1 h)
    · intro n hn
      obtain ⟨m, hm, hType⟩ := List.mem_filterMap.1 hn
      rw [hs] at hm
      rcases List.mem_append.1 hm with hm | hm
      · exact ((hMembers m hm).type n hType).2.2
      · obtain rfl := List.mem_singleton.1 hm
        cases hType
  · refine ⟨?_, nofun⟩
    intro n hn
    obtain rfl := Option.some.inj hn
    rw [Bool.eq_false_iff]
    exact fun h => hEnum.declared.2 (Model.isDeclared_iff.1 h)
  · exact ⟨nofun, nofun⟩
  · exact ⟨nofun, nofun⟩

/-! ## What a block declares -/

/-- The block declares this in some model. -/
def Declares (block : List Token) (d : Declaration) : Prop :=
  ∃ model, readBlock model block = some d

variable {block : List Token} {d : Declaration}

theorem readBlock_eq_some_iff :
    readBlock model block = some d ↔ Declares block d ∧ d.Fits model := by
  cases block with
  | nil => exact ⟨nofun, fun ⟨⟨_, h⟩, _⟩ => nomatch h⟩
  | cons t ts =>
    constructor
    · intro h
      obtain ⟨rest, hd⟩ := readBlock_cons_eq_some.1 h
      exact ⟨⟨model, h⟩, fits_of_declaration hd⟩
    · rintro ⟨⟨model', h⟩, hFits⟩
      obtain ⟨rest, hd⟩ := readBlock_cons_eq_some.1 h
      exact readBlock_cons_eq_some.2 ⟨rest, declaration_transfer hd hFits⟩

/-! ## Runs -/

/-- Each of the declarations fits the model that those before it lead to. -/
def FitInTurn : Model → List Declaration → Prop
  | _, [] => True
  | model, d :: ds => d.Fits model ∧ FitInTurn (d.declareIn model) ds

theorem readBlocks_eq_some_iff {blocks : List (List Token)} {final : Model} :
    readBlocks model blocks = some final ↔
      ∃ ds, List.Forall₂ Declares blocks ds ∧ FitInTurn model ds ∧
        final = ds.foldl Declaration.declareIn model := by
  induction blocks generalizing model with
  | nil =>
    constructor
    · intro h
      exact ⟨[], .nil, trivial, (Option.some.inj h).symm⟩
    · rintro ⟨ds, h, _, rfl⟩
      cases h
      rfl
  | cons block blocks ih =>
    rw [readBlocks, Option.bind_eq_some_iff]
    constructor
    · rintro ⟨d, hd, hRest⟩
      obtain ⟨hDeclares, hFits⟩ := readBlock_eq_some_iff.1 hd
      obtain ⟨ds, hds, hTurn, hFinal⟩ := ih.1 hRest
      exact ⟨d :: ds, .cons hDeclares hds, ⟨hFits, hTurn⟩, hFinal⟩
    · rintro ⟨_, _ | ⟨hDeclares, hds⟩, hTurn, hFinal⟩
      exact ⟨_, readBlock_eq_some_iff.2 ⟨hDeclares, hTurn.1⟩, ih.2 ⟨_, hds, hTurn.2, hFinal⟩⟩

theorem isDeclared_declareIn {n : String} :
    (d.declareIn model).isDeclared n = true ↔ model.isDeclared n = true ∨ d.name? = some n := by
  rw [Model.isDeclared_iff, Model.isDeclared_iff]
  cases d with
  | struct s =>
    simp [Declaration.declareIn, Declaration.name?, Model.mem_names_declareStruct, eq_comm]
  | enumeration e =>
    simp [Declaration.declareIn, Declaration.name?, Model.mem_names_declareEnum, eq_comm]
  | config => simp [Declaration.declareIn, Declaration.name?]
  | includes => simp [Declaration.declareIn, Declaration.name?]

theorem isTypeName_declareIn {n : String} :
    (d.declareIn model).isTypeName n = true ↔ model.isTypeName n = true ∨ d.name? = some n := by
  have hExtends : model.Extends (d.declareIn model) := by
    cases d with
    | struct s => exact Model.declareStruct_extends model s
    | enumeration e => exact Model.declareEnum_extends model e
    | config => exact Model.Extends.refl model
    | includes => exact Model.Extends.refl model
  have hPending : ∀ n ∈ (d.declareIn model).pending, n ∈ model.pending := by
    intro n hn
    cases d with
    | struct s => exact (List.mem_filter.1 hn).1
    | enumeration e => exact (List.mem_filter.1 hn).1
    | config => exact hn
    | includes => exact hn
  constructor
  · intro h
    rw [Model.isTypeName_iff, ← Model.isDeclared_iff, isDeclared_declareIn] at h
    rcases h with (h | h) | h
    · exact Or.inl (Model.isTypeName_iff.2 (Or.inl (Model.isDeclared_iff.1 h)))
    · exact Or.inr h
    · exact Or.inl (Model.isTypeName_iff.2 (Or.inr (hPending n h)))
  · rintro (h | h)
    · exact hExtends.typeNames n h
    · have hDeclared : (d.declareIn model).isDeclared n = true :=
        isDeclared_declareIn.2 (Or.inr h)
      exact Model.isTypeName_iff.2 (Or.inl (Model.isDeclared_iff.1 hDeclared))

/-- Declarations whose names are announced fit one after the other, in whatever order, if no name is
there twice and all names in their types are announced too. -/
theorem fitInTurn_iff {ds : List Declaration}
    (hNames : ∀ d ∈ ds, ∀ n, d.name? = some n → model.isTypeName n = true) :
    FitInTurn model ds ↔ (ds.filterMap Declaration.name?).Nodup ∧
      (∀ n ∈ ds.filterMap Declaration.name?, model.isDeclared n = false) ∧
      ∀ d ∈ ds, ∀ n ∈ d.typeNames, model.isTypeName n = true := by
  induction ds generalizing model with
  | nil => simp [FitInTurn]
  | cons d ds ih =>
    obtain ⟨hName, hOthers⟩ := List.forall_mem_cons.1 hNames
    -- The name of the declaration is announced, so the names that can be types stay the same.
    have hTypes : ∀ n, (d.declareIn model).isTypeName n = true ↔ model.isTypeName n = true := by
      intro n
      rw [isTypeName_declareIn]
      exact or_iff_left_of_imp (hName n)
    have hRest : FitInTurn (d.declareIn model) ds ↔ _ :=
      ih (fun d' hd' n hn => (hTypes n).2 (hOthers d' hd' n hn))
    have hNew : ∀ n, (d.declareIn model).isDeclared n = false ↔
        model.isDeclared n = false ∧ d.name? ≠ some n := by
      intro n
      simp only [Bool.eq_false_iff, ne_eq, isDeclared_declareIn, not_or]
    rw [FitInTurn, hRest, List.forall_mem_cons]
    simp only [hTypes, hNew]
    cases hd : d.name? with
    | none =>
      rw [List.filterMap_cons_none hd]
      constructor
      · rintro ⟨hFits, hDistinct, hFresh, hKnown⟩
        exact ⟨hDistinct, fun n hn => (hFresh n hn).1, hFits.types, hKnown⟩
      · rintro ⟨hDistinct, hFresh, hFirst, hKnown⟩
        have hFits : d.Fits model := ⟨fun n hn => by simp [hd] at hn, hFirst⟩
        exact ⟨hFits, hDistinct, fun n hn => ⟨hFresh n hn, nofun⟩, hKnown⟩
    | some name =>
      rw [List.filterMap_cons_some hd, List.nodup_cons, List.forall_mem_cons]
      constructor
      · rintro ⟨hFits, hDistinct, hFresh, hKnown⟩
        exact ⟨⟨fun hn => (hFresh name hn).2 rfl, hDistinct⟩,
          ⟨hFits.name name hd, fun n hn => (hFresh n hn).1⟩, hFits.types, hKnown⟩
      · rintro ⟨⟨hOther, hDistinct⟩, ⟨hFirstNew, hFresh⟩, hFirst, hKnown⟩
        have hFits : d.Fits model := by
          refine ⟨fun n hn => ?_, hFirst⟩
          obtain rfl : name = n := by simpa [hd] using hn
          exact hFirstNew
        refine ⟨hFits, hDistinct, fun n hn => ⟨hFresh n hn, ?_⟩, hKnown⟩
        rintro ⟨⟩
        exact hOther hn

/-! ## Config blocks -/

/-- The block declares a struct or an enum. -/
def isEntity (block : List Token) : Bool :=
  !block.head?.any (fun t => t.is "config")

theorem isConfig_of_isBlock (h : IsBlock block) (hEntity : isEntity block = false) :
    IsConfig block := by
  cases h with
  | struct hk => simp [isEntity, Token.is_ne hk (by decide : "struct" ≠ "config")] at hEntity
  | enumeration hk => simp [isEntity, Token.is_ne hk (by decide : "enum" ≠ "config")] at hEntity
  | config h => exact h

/-- Config blocks can be left out. -/
theorem readBlocks_filter {blocks : List (List Token)} (h : ∀ b ∈ blocks, IsBlock b) :
    readBlocks model (blocks.filter isEntity) = readBlocks model blocks := by
  induction blocks generalizing model with
  | nil => rfl
  | cons block blocks ih =>
    obtain ⟨hBlock, hBlocks⟩ := List.forall_mem_cons.1 h
    cases hEntity : isEntity block with
    | true =>
      rw [List.filter_cons_of_pos hEntity, readBlocks, readBlocks]
      simp only [ih hBlocks]
    | false =>
      have hConfig := isConfig_of_isBlock hBlock hEntity
      obtain ⟨t, ts, rfl, _, hd⟩ := config_complete model [] hConfig
      have hRead : readBlock model (t :: ts) = some .config := by
        simpa using ((declaration_block hBlock (Or.inr (notBefore_nil ";"))).1 hd).1
      rw [List.filter_cons_of_neg (by simp [hEntity]), ih hBlocks, readBlocks, hRead]
      rfl

/-! ## Names of blocks -/

/-- The name in a block of this kind. -/
def nameAfter (kind : String) : List Token → Option String
  | keyword :: name :: _ => if keyword.is kind then some name.text else none
  | _ => none

/-- A block starts with the word for what it declares, and the name follows. -/
theorem Declares.cases (h : Declares block d) :
    (∃ s keyword name rest, d = .struct s ∧ block = keyword :: name :: rest ∧ keyword.is "struct" ∧
      isIdentifier name ∧ name.text = s.name) ∨
    (∃ e keyword name rest, d = .enumeration e ∧ block = keyword :: name :: rest ∧
      keyword.is "enum" ∧ isIdentifier name ∧ name.text = e.name) ∨
    (d.name? = none ∧ ∃ t ts, block = t :: ts ∧ t.is "struct" = false ∧ t.is "enum" = false) := by
  obtain ⟨model, h⟩ := h
  cases block with
  | nil => cases h
  | cons t ts =>
    obtain ⟨rest, hd⟩ := readBlock_cons_eq_some.1 h
    rcases declaration_cases hd with ⟨s, used, rfl, hUsed, hStruct, _⟩ |
      ⟨e, used, rfl, hUsed, hEnum, _⟩ | ⟨used, rfl, hUsed, hConfig⟩ | ⟨path, rfl, ht⟩
    · cases hStruct with
      | intro hk hNew _ _ _ _ _ =>
        exact Or.inl ⟨_, _, _, _, rfl, hUsed, hk, hNew.identifier, rfl⟩
    · cases hEnum with
      | intro hk hNew _ _ _ _ _ =>
        exact Or.inr (Or.inl ⟨_, _, _, _, rfl, hUsed, hk, hNew.identifier, rfl⟩)
    · cases hConfig with
      | intro hk _ _ _ =>
        obtain ⟨rfl, _⟩ := List.cons.inj hUsed
        exact Or.inr (Or.inr ⟨rfl, t, ts, rfl, Token.is_ne hk (by decide),
          Token.is_ne hk (by decide)⟩)
    · exact Or.inr (Or.inr ⟨rfl, t, ts, rfl, Token.is_ne ht (by decide),
        Token.is_ne ht (by decide)⟩)

theorem Declares.nameAfter_struct (h : Declares block d) :
    nameAfter "struct" block = d.struct?.map Struct.name := by
  rcases h.cases with ⟨s, keyword, name, rest, rfl, rfl, hk, _, hName⟩ |
    ⟨e, keyword, name, rest, rfl, rfl, hk, _, _⟩ | ⟨hNone, t, ts, rfl, ht, _⟩
  · simp [nameAfter, hk, hName, Declaration.struct?]
  · simp [nameAfter, Token.is_ne hk (by decide : "enum" ≠ "struct"), Declaration.struct?]
  · cases d with
    | struct s => cases hNone
    | enumeration e => cases hNone
    | config => cases ts <;> simp [nameAfter, ht, Declaration.struct?]
    | includes => cases ts <;> simp [nameAfter, ht, Declaration.struct?]

theorem Declares.nameAfter_enum (h : Declares block d) :
    nameAfter "enum" block = d.enum?.map Enumeration.name := by
  rcases h.cases with ⟨s, keyword, name, rest, rfl, rfl, hk, _, _⟩ |
    ⟨e, keyword, name, rest, rfl, rfl, hk, _, hName⟩ | ⟨hNone, t, ts, rfl, _, ht⟩
  · simp [nameAfter, Token.is_ne hk (by decide : "struct" ≠ "enum"), Declaration.enum?]
  · simp [nameAfter, hk, hName, Declaration.enum?]
  · cases d with
    | struct s => cases hNone
    | enumeration e => cases hNone
    | config => cases ts <;> simp [nameAfter, ht, Declaration.enum?]
    | includes => cases ts <;> simp [nameAfter, ht, Declaration.enum?]

/-! ## Announced names -/

/-- A block ends with a brace or a semicolon. -/
theorem isBlock_last (h : IsBlock block) :
    ∃ front t, block = front ++ [t] ∧ isIdentifier t = false := by
  have hMark : ∀ {t : Token} {word : String}, t.is word → isName word = false →
      isIdentifier t = false := by
    intro t word ht hWord
    obtain ⟨_, rfl⟩ := Token.is_iff.1 ht
    simp [isIdentifier, hWord]
  have hClose : ∀ (front : List Token) {right : Token} {finish : List Token}, right.is "\x7d" →
      IsOptionalSemicolon finish →
      ∃ front' t, front ++ right :: finish = front' ++ [t] ∧ isIdentifier t = false := by
    rintro front right finish hr (rfl | ⟨semicolon, rfl, hs⟩)
    · exact ⟨front, right, rfl, hMark hr (by decide)⟩
    · exact ⟨front ++ [right], semicolon, by simp, hMark hs (by decide)⟩
  cases h with
  | @struct keyword name left right body finish _ _ _ _ hr hFinish =>
    exact hClose (keyword :: name :: left :: body) hr hFinish
  | @enumeration keyword name left right body finish _ _ _ _ hr hFinish =>
    exact hClose (keyword :: name :: left :: body) hr hFinish
  | config hConfig =>
    cases hConfig with
    | @intro keyword left right body _ _ _ hr =>
      exact hClose (keyword :: left :: body) hr (Or.inl rfl)

theorem announcedNames_flatten {blocks : List (List Token)} (h : ∀ b ∈ blocks, IsBlock b) :
    Printer.announcedNames blocks.flatten = blocks.flatMap Printer.announcedNames := by
  induction blocks with
  | nil => rfl
  | cons block blocks ih =>
    obtain ⟨hBlock, hBlocks⟩ := List.forall_mem_cons.1 h
    obtain ⟨front, t, rfl, ht⟩ := isBlock_last hBlock
    have hAlone := Printer.announcedNames_separator ht front []
    rw [List.flatten_cons, List.flatMap_cons, List.append_assoc, List.singleton_append,
      Printer.announcedNames_separator ht, ih hBlocks, hAlone]
    simp [Printer.announcedNames]

/-- The name of a declaration is announced by its block. -/
theorem Declares.mem_announcedNames (h : Declares block d) {n : String} (hn : d.name? = some n) :
    n ∈ Printer.announcedNames block := by
  rcases h.cases with ⟨s, keyword, name, rest, rfl, rfl, hk, hName, hText⟩ |
    ⟨e, keyword, name, rest, rfl, rfl, hk, hName, hText⟩ | ⟨hNone, _⟩
  · obtain rfl : s.name = n := Option.some.inj hn
    simp [Printer.announcedNames, hk, hName, hText]
  · obtain rfl : e.name = n := Option.some.inj hn
    simp [Printer.announcedNames, hk, hName, hText]
  · rw [hNone] at hn
    cases hn

/-! ## Models of declarations -/

/-- The structs and enums of some declarations. -/
def assembled (ds : List Declaration) : Model :=
  { structs := ds.filterMap Declaration.struct?, enums := ds.filterMap Declaration.enum? }

theorem foldl_declareIn (ds : List Declaration) (model : Model) :
    (ds.foldl Declaration.declareIn model).structs =
        model.structs ++ ds.filterMap Declaration.struct? ∧
      (ds.foldl Declaration.declareIn model).enums =
        model.enums ++ ds.filterMap Declaration.enum? := by
  induction ds generalizing model with
  | nil => simp
  | cons d ds ih =>
    obtain ⟨hStructs, hEnums⟩ := ih (d.declareIn model)
    rw [List.foldl_cons, hStructs, hEnums]
    cases d <;> simp [List.filterMap_cons, Declaration.declareIn, Declaration.struct?,
      Declaration.enum?, Model.declareStruct, Model.declareEnum]

theorem perm_names_assembled (ds : List Declaration) :
    (assembled ds).names.Perm (ds.filterMap Declaration.name?) := by
  induction ds with
  | nil => exact .nil
  | cons d ds ih =>
    unfold Model.names assembled at ih ⊢
    cases d with
    | struct s => exact ih.cons s.name
    | enumeration e => exact List.perm_middle.trans (ih.cons e.name)
    | config => exact ih
    | includes => exact ih

end Grammar

/-! ## Rules of rearranged models -/

namespace Model

variable {model model' : Model}

/-- The models have the same structs and the same enums up to positions and up to their order. -/
structure Rearranged (model model' : Model) : Prop where
  structs : (model.structs.map Struct.unplaced).Perm (model'.structs.map Struct.unplaced)
  enums : (model.enums.map Enumeration.unplaced).Perm (model'.enums.map Enumeration.unplaced)

namespace Rearranged

theorem symm (h : model.Rearranged model') : model'.Rearranged model :=
  ⟨h.structs.symm, h.enums.symm⟩

theorem exists_struct (h : model.Rearranged model') {s : Struct} (hs : s ∈ model.structs) :
    ∃ s' ∈ model'.structs, s'.unplaced = s.unplaced :=
  List.mem_map.1 (h.structs.mem_iff.1 (List.mem_map_of_mem hs))

theorem perm_names (h : model.Rearranged model') : model.names.Perm model'.names := by
  have hStructs := h.structs.map Struct.name
  have hEnums := h.enums.map Enumeration.name
  rw [List.map_map, List.map_map] at hStructs hEnums
  exact hStructs.append hEnums

end Rearranged

end Model

theorem Struct.exists_member_of_unplaced {s s' : Struct} (h : s'.unplaced = s.unplaced)
    {m : Member} (hm : m ∈ s.members) : ∃ m' ∈ s'.members, m'.unplaced = m.unplaced := by
  have hMembers : s'.members.map Member.unplaced = s.members.map Member.unplaced :=
    congrArg Struct.members h
  have hMem : m.unplaced ∈ s'.members.map Member.unplaced := hMembers ▸ List.mem_map_of_mem hm
  exact List.mem_map.1 hMem

/-- Positions play no part in the rules. -/
theorem Member.KeepsRules.of_unplaced {model : Model} {s : Struct} {m m' : Member}
    (h : m.KeepsRules model s) (hSame : m'.unplaced = m.unplaced) : m'.KeepsRules model s := by
  have hm : m' = { m with position := m'.position } := by
    obtain ⟨⟩ := m
    obtain ⟨⟩ := m'
    simpa [Member.unplaced] using hSame
  rw [hm]
  exact { h with }

/-- The rules look up what structs and enums there are, not where they stand. -/
theorem Model.Valid.rearranged {model model' : Model} (h : model.Valid)
    (hSame : model.Rearranged model') (hNames : model'.structNames.Nodup) : model'.Valid := by
  have hCovered : model.Covered model' := by
    refine ⟨fun n hn => hSame.perm_names.mem_iff.1 hn, ?_⟩
    intro n t field ht hField
    obtain ⟨t', ht', hUnplaced⟩ := hSame.exists_struct (struct?_mem ht)
    have hName : t'.name = n :=
      (Printer.structName_eq_of_unplaced hUnplaced).trans (struct?_name ht)
    refine ⟨t', hName ▸ struct?_of_mem hNames ht', ?_⟩
    obtain ⟨m, hm, hFound⟩ := List.any_eq_true.1 hField
    obtain ⟨m', hm', hMember⟩ := Struct.exists_member_of_unplaced hUnplaced hm
    have hMemberName : m'.unplaced.name = m.unplaced.name := congrArg Member.name hMember
    change m'.name = m.name at hMemberName
    exact List.any_eq_true.2 ⟨m', hm', by rw [hMemberName]; exact hFound⟩
  -- A member of the one model is a member of the other, in a struct of the same name.
  have hBack : ∀ s' ∈ model'.structs, ∀ m' ∈ s'.members, ∃ s ∈ model.structs,
      s'.name = s.name ∧ ∃ m ∈ s.members, m'.unplaced = m.unplaced := by
    intro s' hs' m' hm'
    obtain ⟨s, hs, hUnplaced⟩ := hSame.symm.exists_struct hs'
    obtain ⟨m, hm, hMember⟩ := Struct.exists_member_of_unplaced hUnplaced hm'
    exact ⟨s, hs, (Printer.structName_eq_of_unplaced hUnplaced).symm, m, hm, hMember.symm⟩
  have hFields : ∀ {m' m : Member}, m'.unplaced = m.unplaced →
      m'.type = m.type ∧ m'.reference = m.reference := by
    intro m' m hMember
    simp only [Member.unplaced, Member.mk.injEq] at hMember
    tauto
  refine ⟨?_, ?_⟩
  · intro s' hs' m' hm'
    obtain ⟨s, hs, hName, m, hm, hMember⟩ := hBack s' hs' m' hm'
    exact ((h.members s hs m hm).mono hCovered hName).of_unplaced hMember
  · intro s₁' hs₁' m₁' hm₁' s₂' hs₂' m₂' hm₂' hOther h₁ h₂
    obtain ⟨s₁, hs₁, hName₁, m₁, hm₁, hMember₁⟩ := hBack s₁' hs₁' m₁' hm₁'
    obtain ⟨s₂, hs₂, hName₂, m₂, hm₂, hMember₂⟩ := hBack s₂' hs₂' m₂' hm₂'
    obtain ⟨hType₁, hReference₁⟩ := hFields hMember₁
    obtain ⟨hType₂, hReference₂⟩ := hFields hMember₂
    rw [hType₁, hName₂] at h₁
    rw [hType₂, hName₁] at h₂
    rw [hName₁, hName₂] at hOther
    rw [hReference₁, hReference₂]
    exact h.noCycle s₁ hs₁ m₁ hm₁ s₂ hs₂ m₂ hm₂ hOther h₁ h₂

/-! ## Sources as tokens -/

open EntitySchema.Derivation Grammar

/-- The model of a source that is given by its tokens. -/
def readTokens (ts : List Token) (files : FileSystem := {}) : Except ReadError Model :=
  match Reader.declarations (Reader.inclusionIn files) inputName
      { model := Reader.announceTokens {} ts } ts with
  | (r, .ok ()) => .ok r.model
  | (_, .error e) => .error e

/-- Reads and checks a source that is given by its tokens. -/
def compileTokens (ts : List Token) (files : FileSystem := {}) : Except CompileError Model :=
  checked (readTokens ts files)

theorem readModel_eq_readTokens {source : String} {ts : List Token} {files : FileSystem}
    (h : tokenize inputName.text source = .ok ts) :
    readModel source files = readTokens ts files := by
  unfold readModel Reader.readSource Reader.sourceWith
  rw [h]
  rfl

theorem compile_eq_compileTokens {source : String} {ts : List Token} {files : FileSystem}
    (h : tokenize inputName.text source = .ok ts) :
    compile source files = compileTokens ts files := by
  unfold compile
  rw [readModel_eq_readTokens h]
  rfl

theorem compileTokens_eq_ok_iff {ts : List Token} {files : FileSystem} {model : Model} :
    compileTokens ts files = .ok model ↔ readTokens ts files = .ok model ∧ model.Valid := by
  rw [← Model.validate_eq_ok_iff]
  unfold compileTokens checked
  cases readTokens ts files with
  | error e => simp
  | ok read =>
    simp only [Except.ok.injEq]
    split
    · rename_i v hValid
      constructor
      · exact nofun
      · rintro ⟨rfl, h⟩
        rw [hValid] at h
        cases h
    · rename_i hValid
      rw [Except.ok.injEq]
      exact ⟨fun h => ⟨h, h ▸ hValid⟩, fun h => h.1⟩

theorem readTokens_eq_ok_iff {ts : List Token} {files : FileSystem} {model : Model} :
    readTokens ts files = .ok model ↔ ∃ r : Reader, r.model = model ∧
      Reader.declarations (Reader.inclusionIn files) inputName
        { model := Reader.announceTokens {} ts } ts = (r, .ok ()) := by
  unfold readTokens
  split
  · rename_i r hRun
    simp [hRun]
  · rename_i r e hRun
    simp [hRun]

theorem readTokens_blocks_iff {blocks : List (List Token)} {files : FileSystem} {model : Model}
    (h : ∀ b ∈ blocks, IsBlock b) :
    readTokens blocks.flatten files = .ok model ↔
      readBlocks (Reader.announceTokens {} blocks.flatten) blocks = some model := by
  simp only [readTokens_eq_ok_iff, Reader.declarations_blocks_iff h]
  constructor
  · rintro ⟨r, rfl, final, hFinal, rfl⟩
    exact hFinal
  · intro hFinal
    exact ⟨_, rfl, model, hFinal, rfl⟩

/-- An announced name can be a type. -/
theorem isTypeName_announceTokens {model : Model} {ts : List Token} {n : String}
    (hn : n ∈ Printer.announcedNames ts) :
    (Reader.announceTokens model ts).isTypeName n = true := by
  rw [Printer.announceTokens_eq, Model.isTypeName_iff]
  obtain ⟨hStructs, hEnums, hPending⟩ :=
    Printer.foldl_announce (Printer.announcedNames ts) model
  by_cases hDeclared : n ∈ model.names
  · left
    rw [Model.names, hStructs, hEnums]
    exact hDeclared
  · exact Or.inr ((hPending n).2 (Or.inr ⟨hn, hDeclared⟩))

/-- The announced model has no entities, and every name of a declaration is announced. -/
theorem announceTokens_blocks {blocks : List (List Token)} {ds : List Declaration}
    (h : ∀ b ∈ blocks, IsBlock b) (hds : List.Forall₂ Declares (blocks.filter isEntity) ds) :
    (Reader.announceTokens {} blocks.flatten).structs = [] ∧
      (Reader.announceTokens {} blocks.flatten).enums = [] ∧
      ∀ d ∈ ds, ∀ n, d.name? = some n →
        (Reader.announceTokens {} blocks.flatten).isTypeName n = true := by
  obtain ⟨hStructs, hEnums, _⟩ :=
    Printer.foldl_announce (Printer.announcedNames blocks.flatten) {}
  rw [← Printer.announceTokens_eq] at hStructs hEnums
  refine ⟨hStructs, hEnums, ?_⟩
  intro d hd n hn
  obtain ⟨block, hBlock, hDeclares⟩ := exists_of_mem_right hds hd
  apply isTypeName_announceTokens
  rw [announcedNames_flatten h]
  exact List.mem_flatMap.2 ⟨block, List.mem_of_mem_filter hBlock, hDeclares.mem_announcedNames hn⟩

/-- A source that consists of blocks is accepted if each of them declares something, no name is
declared twice and the rules hold of all structs and enums together. -/
theorem compileTokens_blocks_iff {blocks : List (List Token)} {files : FileSystem} {model : Model}
    (h : ∀ b ∈ blocks, IsBlock b) :
    compileTokens blocks.flatten files = .ok model ↔
      ∃ ds, List.Forall₂ Declares (blocks.filter isEntity) ds ∧
        (ds.filterMap Declaration.name?).Nodup ∧ (assembled ds).Valid ∧
        model = ds.foldl Declaration.declareIn (Reader.announceTokens {} blocks.flatten) := by
  rw [compileTokens_eq_ok_iff, readTokens_blocks_iff h, ← readBlocks_filter h,
    readBlocks_eq_some_iff]
  -- The final model has the entities of the declarations, and these alone the rules look at.
  have hFinal : ∀ {ds : List Declaration},
      List.Forall₂ Declares (blocks.filter isEntity) ds →
      (ds.filterMap Declaration.name?).Nodup →
      ((ds.foldl Declaration.declareIn (Reader.announceTokens {} blocks.flatten)).Valid ↔
        (assembled ds).Valid) := by
    intro ds hds hDistinct
    obtain ⟨hNoStructs, hNoEnums, _⟩ := announceTokens_blocks h hds
    obtain ⟨hStructs, hEnums⟩ := foldl_declareIn ds (Reader.announceTokens {} blocks.flatten)
    rw [hNoStructs, List.nil_append] at hStructs
    rw [hNoEnums, List.nil_append] at hEnums
    have hSame : (assembled ds).Rearranged
        (ds.foldl Declaration.declareIn (Reader.announceTokens {} blocks.flatten)) := by
      refine ⟨?_, ?_⟩
      · rw [hStructs]
        exact .refl _
      · rw [hEnums]
        exact .refl _
    have hNames : (assembled ds).structNames.Nodup :=
      (List.nodup_append.1 ((perm_names_assembled ds).nodup_iff.2 hDistinct)).1
    constructor
    · intro hValid
      exact hValid.rearranged hSame.symm hNames
    · intro hValid
      refine hValid.rearranged hSame ?_
      rw [Model.structNames, hStructs]
      exact hNames
  constructor
  · rintro ⟨⟨ds, hds, hTurn, rfl⟩, hValid⟩
    obtain ⟨_, _, hAnnounced⟩ := announceTokens_blocks h hds
    obtain ⟨hDistinct, _⟩ := (fitInTurn_iff hAnnounced).1 hTurn
    exact ⟨ds, hds, hDistinct, (hFinal hds hDistinct).1 hValid, rfl⟩
  · rintro ⟨ds, hds, hDistinct, hValid, rfl⟩
    obtain ⟨hNoStructs, hNoEnums, hAnnounced⟩ := announceTokens_blocks h hds
    refine ⟨⟨ds, hds, (fitInTurn_iff hAnnounced).2 ⟨hDistinct, ?_, ?_⟩, rfl⟩,
      (hFinal hds hDistinct).2 hValid⟩
    · intro n _
      simp [Model.isDeclared, Model.hasStruct, Model.hasEnum, hNoStructs, hNoEnums]
    · -- A type of an accepted model is declared, so it is announced.
      intro d hd n hn
      cases d with
      | struct s =>
        obtain ⟨m, hm, hType⟩ := List.mem_filterMap.1 hn
        have hs : s ∈ (assembled ds).structs := List.mem_filterMap.2 ⟨_, hd, rfl⟩
        have hName := (hValid.members s hs m hm).type n hType
        rw [(perm_names_assembled ds).mem_iff] at hName
        obtain ⟨d', hd', hn'⟩ := List.mem_filterMap.1 hName
        exact hAnnounced d' hd' n hn'
      | enumeration e => cases hn
      | config => cases hn
      | includes => cases hn

/-! ## Blocks in another place -/

namespace Derivation

variable {ts us : List Token}

theorem SameText.symm (h : SameText ts us) : SameText us ts := by
  induction h with
  | nil => exact .nil
  | @cons t ts us p _ ih => exact .cons t.position ih

theorem sameText_iff :
    SameText ts us ↔
      ts.map (fun t => (t.text, t.quoted)) = us.map (fun t => (t.text, t.quoted)) := by
  constructor
  · intro h
    induction h with
    | nil => rfl
    | cons p _ ih => rw [List.map_cons, List.map_cons, ih]
  · intro h
    induction ts generalizing us with
    | nil =>
      obtain rfl := List.map_eq_nil_iff.1 h.symm
      exact .nil
    | cons t ts ih =>
      obtain ⟨u, us, rfl, hu, hus⟩ := List.map_eq_cons_iff.1 h.symm
      obtain ⟨hText, hQuoted⟩ := Prod.mk.inj hu
      have hPlaced : u = { t with position := u.position } := by rw [← hText, ← hQuoted]
      rw [hPlaced]
      exact .cons u.position (ih hus.symm)

instance (ts us : List Token) : Decidable (SameText ts us) :=
  decidable_of_iff _ sameText_iff.symm

theorem SameText.alike (h : SameText ts us) : List.Forall₂ (Token.Alike .positions) ts us := by
  induction h with
  | nil => exact .nil
  | cons p _ ih => exact .cons ⟨rfl, rfl, fun _ => rfl, rfl⟩ ih

end Derivation

theorem Struct.unplaced_erase (s : Struct) : (s.erase .positions).unplaced = s.unplaced := by
  have hMember : ∀ m : Member, (m.erase .positions).unplaced = m.unplaced := by
    intro m
    simp [Member.erase, Member.unplaced, Erasure.positions]
  simp [Struct.erase, Struct.unplaced, hMember]

theorem Enumeration.unplaced_erase (e : Enumeration) :
    (e.erase .positions).unplaced = e.unplaced := rfl

namespace Grammar

variable {block : List Token} {d d' : Declaration}

/-- Wherever a block stands, it declares the same but for positions. -/
theorem readBlock_congr {model model' : Model} {block' : List Token}
    (hModel : model.erase .positions = model'.erase .positions) (hBlock : IsBlock block)
    (h : readBlock model block = some d) (hText : SameText block block') :
    ∃ d', readBlock model' block' = some d' ∧ SameDeclaration .positions d d' := by
  cases hText with
  | nil => cases h
  | @cons t ts us p hText =>
    have ht : t.Alike .positions { t with position := p } := ⟨rfl, rfl, fun _ => rfl, rfl⟩
    have hAgree : Agree _ _ (declaration model t ts) (declaration model' _ us) :=
      declaration_agree hModel ht (not_include_of_isBlock hBlock) hText.alike
    obtain ⟨rest, hd⟩ := readBlock_cons_eq_some.1 h
    rw [hd] at hAgree
    obtain ⟨⟨d', rest'⟩, hd', hSame, _⟩ := hAgree.ok_left
    exact ⟨d', readBlock_cons_eq_some.2 ⟨rest', hd'⟩, hSame⟩

theorem Declares.congr {block' : List Token} (hBlock : IsBlock block) (h : Declares block d)
    (hText : SameText block block') :
    ∃ d', Declares block' d' ∧ SameDeclaration .positions d d' := by
  obtain ⟨model, h⟩ := h
  obtain ⟨d', hd', hSame⟩ := readBlock_congr rfl hBlock h hText
  exact ⟨d', ⟨model, hd'⟩, hSame⟩

/-- The entities that are declared, up to positions. -/
theorem SameDeclaration.entities (h : SameDeclaration .positions d d') :
    d.struct?.map Struct.unplaced = d'.struct?.map Struct.unplaced ∧
      d.enum?.map Enumeration.unplaced = d'.enum?.map Enumeration.unplaced := by
  cases d with
  | struct s =>
    obtain ⟨s', rfl, hs⟩ := h.struct_left
    refine ⟨congrArg some ?_, rfl⟩
    rw [← s.unplaced_erase, hs, s'.unplaced_erase]
  | enumeration e =>
    obtain ⟨e', rfl, he⟩ := h.enumeration_left
    refine ⟨rfl, congrArg some ?_⟩
    rw [← e.unplaced_erase, he, e'.unplaced_erase]
  | config =>
    obtain rfl := h.config_left
    exact ⟨rfl, rfl⟩
  | includes =>
    cases d' <;> cases h
    exact ⟨rfl, rfl⟩

/-- Declarations in another order and in other places make a rearranged model. -/
theorem rearranged_assembled {ds moved ds' : List Declaration} (hPerm : ds.Perm moved)
    (hSame : List.Forall₂ (SameDeclaration .positions) moved ds') :
    (assembled ds).Rearranged (assembled ds') := by
  refine ⟨?_, ?_⟩
  · simp only [assembled, List.map_filterMap]
    refine (hPerm.filterMap _).trans (.of_eq ?_)
    exact filterMap_eq_of_forall₂ hSame (fun hd => hd.entities.1)
  · simp only [assembled, List.map_filterMap]
    refine (hPerm.filterMap _).trans (.of_eq ?_)
    exact filterMap_eq_of_forall₂ hSame (fun hd => hd.entities.2)

end Grammar

/-! ## Arrangements -/

/-- The same structs and enums in some order, standing in whatever places of the sources. Config
blocks may be put in and left out. -/
def Rearrangement (blocks blocks' : List (List Token)) : Prop :=
  ∃ moved, (blocks.filter isEntity).Perm moved ∧
    List.Forall₂ SameText moved (blocks'.filter isEntity)

section

variable {blocks blocks' : List (List Token)}

theorem Rearrangement.symm (h : Rearrangement blocks blocks') : Rearrangement blocks' blocks := by
  obtain ⟨moved, hPerm, hText⟩ := h
  obtain ⟨moved', hText', hPerm'⟩ := List.perm_comp_forall₂ hPerm hText
  exact ⟨moved', hPerm'.symm, hText'.flip.imp (fun _ _ hs => hs.symm)⟩

/-- Rearranged blocks declare the same, in another order and in other places. -/
theorem Rearrangement.declares {ds : List Declaration} (h : Rearrangement blocks blocks')
    (hBlocks : ∀ b ∈ blocks, IsBlock b)
    (hds : List.Forall₂ Declares (blocks.filter isEntity) ds) :
    ∃ ds', List.Forall₂ Declares (blocks'.filter isEntity) ds' ∧
      (assembled ds).Rearranged (assembled ds') := by
  obtain ⟨moved, hPerm, hText⟩ := h
  obtain ⟨ds₁, hds₁, hPerm₁⟩ := List.perm_comp_forall₂ hPerm.symm hds
  have hMoved : ∀ b ∈ moved, IsBlock b := by
    intro b hb
    exact hBlocks b (List.mem_of_mem_filter (hPerm.mem_iff.2 hb))
  have hCongr : ∀ {moved : List (List Token)} {ds₁ : List Declaration}
      {others : List (List Token)}, (∀ b ∈ moved, IsBlock b) → List.Forall₂ Declares moved ds₁ →
      List.Forall₂ SameText moved others → ∃ ds', List.Forall₂ Declares others ds' ∧
        List.Forall₂ (SameDeclaration .positions) ds₁ ds' := by
    intro moved ds₁ others hMoved hds₁ hText
    induction hText generalizing ds₁ with
    | nil =>
      cases hds₁
      exact ⟨[], .nil, .nil⟩
    | cons hs _ ih =>
      obtain _ | ⟨hd, hds₁⟩ := hds₁
      obtain ⟨hBlock, hMoved⟩ := List.forall_mem_cons.1 hMoved
      obtain ⟨d', hd', hSame⟩ := hd.congr hBlock hs
      obtain ⟨ds', hds', hSames⟩ := ih hMoved hds₁
      exact ⟨d' :: ds', .cons hd' hds', .cons hSame hSames⟩
  obtain ⟨ds', hds', hSame⟩ := hCongr hMoved hds₁ hText
  exact ⟨ds', hds', rearranged_assembled hPerm₁.symm hSame⟩

/-- The structs and enums stand in the model in the order of their blocks. -/
structure Model.InOrder (model : Model) (blocks : List (List Token)) : Prop where
  structs : model.structNames = blocks.filterMap (nameAfter "struct")
  enums : model.enums.map Enumeration.name = blocks.filterMap (nameAfter "enum")

/-- Entities of an accepted source. -/
theorem entities_of_compileTokens {model : Model} {ds : List Declaration}
    (h : ∀ b ∈ blocks, IsBlock b) (hds : List.Forall₂ Declares (blocks.filter isEntity) ds)
    (hModel : model = ds.foldl Declaration.declareIn (Reader.announceTokens {} blocks.flatten)) :
    model.structs = (assembled ds).structs ∧ model.enums = (assembled ds).enums ∧
      model.InOrder blocks := by
  obtain ⟨hNoStructs, hNoEnums, _⟩ := announceTokens_blocks h hds
  obtain ⟨hStructs, hEnums⟩ := foldl_declareIn ds (Reader.announceTokens {} blocks.flatten)
  rw [← hModel, hNoStructs, List.nil_append] at hStructs
  rw [← hModel, hNoEnums, List.nil_append] at hEnums
  have hConfig : ∀ kind, kind ≠ "config" →
      (blocks.filter isEntity).filterMap (nameAfter kind) = blocks.filterMap (nameAfter kind) := by
    intro kind hKind
    rw [List.filterMap_filter]
    apply List.filterMap_congr
    intro block _
    split
    · rfl
    · rename_i hEntity
      rcases block with _ | ⟨t, _ | ⟨name, rest⟩⟩
      · rfl
      · rfl
      · have ht : t.is "config" = true := by simpa [isEntity] using hEntity
        simp [nameAfter, Token.is_ne ht (Ne.symm hKind)]
  refine ⟨hStructs, hEnums, ?_, ?_⟩
  · rw [Model.structNames, hStructs, List.map_filterMap, ← hConfig "struct" (by decide)]
    exact (filterMap_eq_of_forall₂ hds (fun hd => hd.nameAfter_struct)).symm
  · rw [hEnums, List.map_filterMap, ← hConfig "enum" (by decide)]
    exact (filterMap_eq_of_forall₂ hds (fun hd => hd.nameAfter_enum)).symm

/-- A rearrangement of an accepted source is accepted. -/
theorem Rearrangement.compileTokens {files : FileSystem} {model : Model}
    (h : Rearrangement blocks blocks') (hBlocks : ∀ b ∈ blocks, IsBlock b)
    (hBlocks' : ∀ b ∈ blocks', IsBlock b)
    (hModel : compileTokens blocks.flatten files = .ok model) :
    ∃ model', compileTokens blocks'.flatten files = .ok model' ∧ model.Rearranged model' ∧
      model.InOrder blocks ∧ model'.InOrder blocks' := by
  obtain ⟨ds, hds, hDistinct, hValid, hFinal⟩ := (compileTokens_blocks_iff hBlocks).1 hModel
  obtain ⟨ds', hds', hSame⟩ := h.declares hBlocks hds
  have hNames : (assembled ds').names.Nodup :=
    hSame.perm_names.nodup_iff.1 ((perm_names_assembled ds).nodup_iff.2 hDistinct)
  have hModel' : EntitySchema.compileTokens blocks'.flatten files =
      .ok (ds'.foldl Declaration.declareIn (Reader.announceTokens {} blocks'.flatten)) :=
    (compileTokens_blocks_iff hBlocks').2 ⟨ds', hds', (perm_names_assembled ds').nodup_iff.1 hNames,
      hValid.rearranged hSame (List.nodup_append.1 hNames).1, rfl⟩
  obtain ⟨hStructs, hEnums, hOrder⟩ := entities_of_compileTokens hBlocks hds hFinal
  obtain ⟨hStructs', hEnums', hOrder'⟩ := entities_of_compileTokens hBlocks' hds' rfl
  refine ⟨_, hModel', ⟨?_, ?_⟩, hOrder, hOrder'⟩
  · rw [hStructs, hStructs']
    exact hSame.structs
  · rw [hEnums, hEnums']
    exact hSame.enums

/-- The order of declarations does not matter, nor do config blocks. A source is accepted in one
arrangement of its blocks if it is in another, and its models have the same structs and enums, each
in the order of their blocks. -/
theorem compileTokens_rearranged {files : FileSystem} (hBlocks : ∀ b ∈ blocks, IsBlock b)
    (hBlocks' : ∀ b ∈ blocks', IsBlock b) (h : Rearrangement blocks blocks') :
    ((∃ model, compileTokens blocks.flatten files = .ok model) ↔
      ∃ model', compileTokens blocks'.flatten files = .ok model') ∧
    ∀ model model', compileTokens blocks.flatten files = .ok model →
      compileTokens blocks'.flatten files = .ok model' →
      model.Rearranged model' ∧ model.InOrder blocks ∧ model'.InOrder blocks' := by
  refine ⟨⟨?_, ?_⟩, ?_⟩
  · rintro ⟨model, hModel⟩
    obtain ⟨model', hModel', _⟩ := h.compileTokens hBlocks hBlocks' hModel
    exact ⟨model', hModel'⟩
  · rintro ⟨model', hModel'⟩
    obtain ⟨model, hModel, _⟩ := h.symm.compileTokens hBlocks' hBlocks hModel'
    exact ⟨model, hModel⟩
  · intro model model' hModel hModel'
    obtain ⟨other, hOther, hSame⟩ := h.compileTokens hBlocks hBlocks' hModel
    rw [hModel'] at hOther
    obtain rfl := Except.ok.inj hOther
    exact hSame

end

/-- A struct with a member typed by the enum `B`, which is declared elsewhere. -/
def holderBlock (column : Nat) : List Token :=
  [Reader.wordAt column "struct", Reader.wordAt (column + 7) "A",
    Reader.wordAt (column + 9) "\x7b", Reader.wordAt (column + 11) "B",
    Reader.wordAt (column + 12) ":", Reader.wordAt (column + 14) "b",
    Reader.wordAt (column + 15) ";", Reader.wordAt (column + 17) "\x7d"]

def heldBlock (column : Nat) : List Token :=
  [Reader.wordAt column "enum", Reader.wordAt (column + 5) "B", Reader.wordAt (column + 7) "\x7b",
    Reader.wordAt (column + 9) "V", Reader.wordAt (column + 11) "\x7d"]

/-- A config block that announces a name which nothing declares. -/
def remarkBlock (column : Nat) : List Token :=
  [Reader.wordAt column "config", Reader.wordAt (column + 7) "\x7b",
    Reader.wordAt (column + 9) "struct", Reader.wordAt (column + 16) "C",
    Reader.wordAt (column + 18) "\x7d"]

theorem isIdentifier_wordAt {text : String} (h : isName text) (column : Nat) :
    isIdentifier (Reader.wordAt column text) := by
  simpa [isIdentifier, Reader.wordAt] using h

theorem wordAt_is (column : Nat) (text : String) : (Reader.wordAt column text).is text := by
  simp [Token.is, Reader.wordAt]

theorem isBlock_holderBlock (column : Nat) : IsBlock (holderBlock column) := by
  have hType : TypeForm [Reader.wordAt (column + 11) "B"] :=
    .word (isIdentifier_wordAt (by decide) _) (Token.is_ne (wordAt_is _ "B") (by decide))
  have hMember : MemberForm ([Reader.wordAt (column + 11) "B"] ++ Reader.wordAt (column + 12) ":" ::
      Reader.wordAt (column + 14) "b" :: ([] ++ [Reader.wordAt (column + 15) ";"])) :=
    .intro hType (wordAt_is _ ":") (isIdentifier_wordAt (by decide) _) .nil (wordAt_is _ ";")
  exact .struct (wordAt_is _ "struct") (isIdentifier_wordAt (by decide) _) (wordAt_is _ "\x7b")
    (.cons hMember .nil) (wordAt_is _ "\x7d") (Or.inl rfl)

theorem isBlock_heldBlock (column : Nat) : IsBlock (heldBlock column) := by
  have hValue : ValueForm [Reader.wordAt (column + 9) "V"] :=
    .plain (isIdentifier_wordAt (by decide) _)
  exact .enumeration (wordAt_is _ "enum") (isIdentifier_wordAt (by decide) _) (wordAt_is _ "\x7b")
    (.single hValue) (wordAt_is _ "\x7d") (Or.inl rfl)

theorem isBlock_remarkBlock (column : Nat) : IsBlock (remarkBlock column) := by
  have hBody : Balanced [Reader.wordAt (column + 9) "struct", Reader.wordAt (column + 16) "C"] :=
    .word (Token.is_ne (wordAt_is _ "struct") (by decide))
      (Token.is_ne (wordAt_is _ "struct") (by decide))
      (.word (Token.is_ne (wordAt_is _ "C") (by decide)) (Token.is_ne (wordAt_is _ "C") (by decide))
        .nil)
  exact .config (.intro (wordAt_is _ "config") (wordAt_is _ "\x7b") hBody (wordAt_is _ "\x7d"))

/-- The enum after the struct that uses it and after a config block, and before it. -/
theorem compile_arrangements :
    Rearrangement [holderBlock 1, remarkBlock 20, heldBlock 40] [heldBlock 1, holderBlock 14] ∧
      ((∃ model, compile "struct A \x7b B: b; \x7d config \x7b struct C \x7d enum B \x7b V \x7d" =
          .ok model) ↔
        ∃ model', compile "enum B \x7b V \x7d struct A \x7b B: b; \x7d" = .ok model') ∧
      (compile "enum B \x7b V \x7d struct A \x7b B: b; \x7d").isOk = true := by
  have hBlocks : ∀ b ∈ [holderBlock 1, remarkBlock 20, heldBlock 40], IsBlock b := by
    simp [isBlock_holderBlock, isBlock_heldBlock, isBlock_remarkBlock]
  have hBlocks' : ∀ b ∈ [heldBlock 1, holderBlock 14], IsBlock b := by
    simp [isBlock_holderBlock, isBlock_heldBlock]
  have hHeld : SameText (heldBlock 40) (heldBlock 1) := by decide
  have hHolder : SameText (holderBlock 1) (holderBlock 14) := by decide
  have hRearranged : Rearrangement [holderBlock 1, remarkBlock 20, heldBlock 40]
      [heldBlock 1, holderBlock 14] :=
    ⟨[heldBlock 40, holderBlock 1], .swap _ _ _, .cons hHeld (.cons hHolder .nil)⟩
  have hTokens : tokenize inputName.text
      "struct A \x7b B: b; \x7d config \x7b struct C \x7d enum B \x7b V \x7d" =
        .ok [holderBlock 1, remarkBlock 20, heldBlock 40].flatten := by
    decide +kernel
  have hTokens' : tokenize inputName.text "enum B \x7b V \x7d struct A \x7b B: b; \x7d" =
      .ok [heldBlock 1, holderBlock 14].flatten := by
    decide +kernel
  refine ⟨hRearranged, ?_, by decide +kernel⟩
  rw [compile_eq_compileTokens hTokens, compile_eq_compileTokens hTokens']
  exact (compileTokens_rearranged hBlocks hBlocks' hRearranged).1

end EntitySchema
