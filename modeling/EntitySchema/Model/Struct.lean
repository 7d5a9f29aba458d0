import EntitySchema.Model.Member

/-!
Structs, and the contributions that generators make to them. Contributions never change what is
there: a member, an operation, a requirement, a hook or a mark is appended, or it is refused because
it is there already.
-/

namespace EntitySchema

/-- What a generated operation does. Backends choose its body by the role; the model holds no
code. -/
inductive Role where
  | toSerialized
  | fromSerialized
  | insert
  | update
  | delete
  | load
  deriving DecidableEq, Repr, Inhabited

/-- An operation that a generator asks for on a struct. -/
structure Operation where
  owner : Owner
  role : Role
  name : String
  description : Option String := none
  deriving DecidableEq, Repr, Inhabited

inductive HookPoint where
  | beforeGetter
  | beforeSetter
  deriving DecidableEq, Repr, Inhabited

/-- A call that a generator wants made before the body of an accessor. -/
structure Hook where
  owner : Owner
  point : HookPoint
  action : Role
  deriving DecidableEq, Repr, Inhabited

/-- A library that the emitted code needs. -/
structure Requirement where
  owner : Owner
  path : String
  deriving DecidableEq, Repr, Inhabited

/-- The mark of a struct that implements the capability of a generator. -/
structure CapabilityMark where
  owner : String
  name : String
  deriving DecidableEq, Repr, Inhabited

structure Struct where
  name : String
  members : List Member := []
  operations : List Operation := []
  requirements : List Requirement := []
  hooks : List Hook := []
  capabilities : List CapabilityMark := []
  position : Option Position := none
  deriving DecidableEq, Repr, Inhabited

namespace Struct

def member? (s : Struct) (name : String) : Option Member :=
  s.members.find? (fun m => m.name == name)

def hasMember (s : Struct) (name : String) : Bool :=
  s.members.any (fun m => m.name == name)

/-- Appends a member, unless one of the same name is there. -/
def addMember? (s : Struct) (m : Member) : Option Struct :=
  if s.hasMember m.name then none else some { s with members := s.members ++ [m] }

def addMember (s : Struct) (m : Member) : Struct :=
  (s.addMember? m).getD s

/-- Appends an operation, unless its owner has one of the same name here. -/
def addOperation? (s : Struct) (f : Operation) : Option Struct :=
  if s.operations.any (fun g => g.owner == f.owner && g.name == f.name) then none
  else some { s with operations := s.operations ++ [f] }

def addOperation (s : Struct) (f : Operation) : Struct :=
  (s.addOperation? f).getD s

/-- Appends a requirement, unless it is there. -/
def addRequirement? (s : Struct) (r : Requirement) : Option Struct :=
  if s.requirements.contains r then none
  else some { s with requirements := s.requirements ++ [r] }

def addRequirement (s : Struct) (r : Requirement) : Struct :=
  (s.addRequirement? r).getD s

/-- Appends a hook, unless it is there. -/
def addHook? (s : Struct) (h : Hook) : Option Struct :=
  if s.hooks.contains h then none else some { s with hooks := s.hooks ++ [h] }

def addHook (s : Struct) (h : Hook) : Struct :=
  (s.addHook? h).getD s

/-- Appends the mark of a capability, unless it is there. -/
def implement? (s : Struct) (c : CapabilityMark) : Option Struct :=
  if s.capabilities.contains c then none
  else some { s with capabilities := s.capabilities ++ [c] }

def implement (s : Struct) (c : CapabilityMark) : Struct :=
  (s.implement? c).getD s

def implements (s : Struct) (capability : String) : Bool :=
  s.capabilities.any (fun c => c.name == capability)

def operationWithRole? (s : Struct) (role : Role) : Option Operation :=
  s.operations.find? (fun f => f.role == role)

def hooksAt (s : Struct) (point : HookPoint) : List Hook :=
  s.hooks.filter (fun h => h.point == point)

def primaryKey? (s : Struct) : Option Member :=
  s.members.find? (fun m => m.primaryKey)

/-- Closes the struct: its key is appended. -/
def close (s : Struct) : Struct :=
  s.addMember Member.key

end Struct

end EntitySchema
