import EntitySchema.Proofs.Validity

/-!
Which violation is reported. The rules of members are checked in the order of their declarations,
and the first member that breaks one is the one that is named. Structs that hold each other are
looked at only when all members keep their rules.
-/

namespace EntitySchema

/-! ## The rule that a member breaks -/

/-- The violation tells of a rule that the member of `s` breaks, and names the member. -/
inductive Member.Breaks (model : Model) (s : Struct) (m : Member) : Violation → Prop
  | element : m.type = .array (.named "") →
      Breaks model s m (.emptyArrayElement (Rules.site s m))
  | type {n : String} : m.type.innermostName? = some n → n ∉ model.names →
      Breaks model s m (.unknownType (Rules.site s m) n)
  | self : m.type = .named s.name → m.reference = none →
      Breaks model s m (.selfReference (Rules.site s m))
  | key : m.primaryKey = true → m.isOwnKey = false →
      Breaks model s m (.userPrimaryKey (Rules.site s m))
  | bounds {min max : Nat} : m.minItems = some min → m.maxItems = some max → max < min →
      Breaks model s m (.invalidItemBounds (Rules.site s m) min max)
  | struct {r : Reference} : m.reference = some r → r.struct ∉ model.structNames →
      Breaks model s m (.unknownReferenceStruct (Rules.site s m) r.struct)
  | field {r : Reference} {t : Struct} : m.reference = some r →
      model.struct? r.struct = some t → t.hasMember r.field = false →
      Breaks model s m (.unknownReferenceField (Rules.site s m) r)

namespace Rules

variable {model : Model} {s : Struct} {m : Member} {v : Violation}

end Rules

/-! ## The violation of a model -/

namespace Model

variable {model : Model} {v : Violation}

/-- The member of `s` breaks a rule, and no member that is declared before it does. -/
def IsFirstOffender (model : Model) (s : Struct) (m : Member) : Prop :=
  ∃ before after ms ms', model.structs = before ++ s :: after ∧ s.members = ms ++ m :: ms' ∧
    (∀ t ∈ before, ∀ k ∈ t.members, k.KeepsRules model t) ∧
    (∀ k ∈ ms, k.KeepsRules model s) ∧ ¬ m.KeepsRules model s

theorem IsFirstOffender.mem {s : Struct} {m : Member} (h : model.IsFirstOffender s m) :
    s ∈ model.structs ∧ m ∈ s.members := by
  obtain ⟨before, after, ms, ms', hStructs, hMembers, _⟩ := h
  rw [hStructs, hMembers]
  exact ⟨List.mem_append_right _ List.mem_cons_self, List.mem_append_right _ List.mem_cons_self⟩

end Model

end EntitySchema
