import EntitySchema.Model.StructGraph
import EntitySchema.Number.Decimal

/-!
The rules that a model has to keep before anything is generated from it, checked once all files have
been read.
-/

namespace EntitySchema

/-- The member that breaks a rule. -/
structure MemberSite where
  position : Option Position
  struct : String
  field : String
  deriving DecidableEq, Repr

/-- A rule that the model breaks, and where. -/
inductive Violation where
  | selfReference (site : MemberSite)
  | unresolvedCycle (a aField b bField : String)
  | emptyArrayElement (site : MemberSite)
  | unknownType (site : MemberSite) (type : String)
  | unknownReferenceStruct (site : MemberSite) (target : String)
  | unknownReferenceField (site : MemberSite) (target : Reference)
  | userPrimaryKey (site : MemberSite)
  | invalidItemBounds (site : MemberSite) (min max : Nat)
  deriving DecidableEq, Repr

namespace MemberSite

/-- The place in front of a message, if it is known. -/
def place (site : MemberSite) : String :=
  match site.position with
  | some position => position.render ++ ": "
  | none => ""

def quoted (site : MemberSite) : String :=
  "`" ++ site.struct ++ "." ++ site.field ++ "`"

end MemberSite

def Violation.message : Violation → String
  | selfReference site =>
    site.place ++ site.quoted ++
      " embeds its own struct; mark it `reference` to store a link instead"
  | unresolvedCycle a aField b bField =>
    "`" ++ a ++ "." ++ aField ++ "` and `" ++ b ++ "." ++ bField ++
      "` embed each other; add `reference` to one side, either `" ++ b ++ ": " ++ aField ++
      ": reference;` in `" ++ a ++ "` or `" ++ a ++ ": " ++ bField ++ ": reference;` in `" ++
      b ++ "`"
  | emptyArrayElement site =>
    site.place ++ "array member " ++ site.quoted ++ " has no element type"
  | unknownType site type => site.place ++ site.quoted ++ " has unknown type `" ++ type ++ "`"
  | unknownReferenceStruct site target =>
    site.place ++ site.quoted ++ " references unknown struct `" ++ target ++ "`"
  | unknownReferenceField site target =>
    site.place ++ site.quoted ++ " references `" ++ target.render ++ "`, which `" ++
      target.struct ++ "` does not declare"
  | userPrimaryKey site =>
    site.place ++ site.quoted ++
      " is marked `primary_key`; every struct already has the synthesized `id` key"
  | invalidItemBounds site min max =>
    site.place ++ site.quoted ++ " has min_items(" ++ Number.decimal min ++
      ") greater than max_items(" ++ Number.decimal max ++ ")"

namespace Rules

def site (s : Struct) (m : Member) : MemberSite :=
  ⟨m.position, s.name, m.name⟩

/-- The elements of an array have a type. -/
def checkElement (s : Struct) (m : Member) : Except Violation Unit :=
  if m.type = .array (.named "") then .error (.emptyArrayElement (site s m)) else .ok ()

/-- The type is made of scalars and of structs and enums of the model. -/
def checkType (model : Model) (s : Struct) (m : Member) : Except Violation Unit :=
  match m.type.innermostName? with
  | some name =>
    if model.isDeclared name then .ok () else .error (.unknownType (site s m) name)
  | none => .ok ()

/-- No struct holds itself, but it may refer to itself. -/
def checkSelf (s : Struct) (m : Member) : Except Violation Unit :=
  if m.type.named? = some s.name ∧ m.reference = none then .error (.selfReference (site s m))
  else .ok ()

/-- No member but the key that structs get by themselves is a primary key. -/
def checkKey (s : Struct) (m : Member) : Except Violation Unit :=
  if m.primaryKey && !m.isOwnKey then .error (.userPrimaryKey (site s m)) else .ok ()

/-- The least number of items is not above the greatest. -/
def checkBounds (s : Struct) (m : Member) : Except Violation Unit :=
  match m.minItems, m.maxItems with
  | some min, some max =>
    if max < min then .error (.invalidItemBounds (site s m) min max) else .ok ()
  | _, _ => .ok ()

/-- A reference leads to a field of a struct of the model. -/
def checkReference (model : Model) (s : Struct) (m : Member) : Except Violation Unit :=
  match m.reference with
  | none => .ok ()
  | some r =>
    match model.struct? r.struct with
    | none => .error (.unknownReferenceStruct (site s m) r.struct)
    | some target =>
      if target.hasMember r.field then .ok () else .error (.unknownReferenceField (site s m) r)

/-- All rules of one member, in the order in which their violations are reported. -/
def checkMember (model : Model) (s : Struct) (m : Member) : Except Violation Unit := do
  checkElement s m
  checkType model s m
  checkSelf s m
  checkKey s m
  checkBounds s m
  checkReference model s m

/-- Two structs do not hold each other, unless one of the two fields is a reference. -/
def checkCycle (a b : Edge) : Except Violation Unit :=
  if a.explicit || b.explicit then .ok ()
  else .error (.unresolvedCycle a.source a.field b.source b.field)

end Rules

/-- Checks every rule, those of the members first. The first violation is reported. -/
def Model.validate (model : Model) : Except Violation Unit := do
  model.structs.forM (fun s => s.members.forM (Rules.checkMember model s))
  (StructGraph.ofModel model).mutualPairs.forM (fun (a, b) => Rules.checkCycle a b)

end EntitySchema
