import EntitySchema.Model

/-!
The links between the structs of a model, and the order in which structs can be stored so that each
comes after those whose key it holds.
-/

namespace EntitySchema

inductive EdgeKind where
  /-- The member has the target as its type. -/
  | field
  /-- The member is an array of the target. -/
  | array
  /-- The member has another type and refers to a field of the target. -/
  | reference
  deriving DecidableEq, Repr

/-- A link from one struct to another, made by a member. -/
structure Edge where
  source : String
  field : String
  target : String
  kind : EdgeKind
  /-- The member carries a reference. -/
  explicit : Bool
  deriving DecidableEq, Repr

structure StructGraph where
  nodes : List String
  edges : List Edge
  deriving DecidableEq, Repr

namespace StructGraph

/-- The link that a member of `s` makes, if it makes one. -/
def edgeOf? (model : Model) (s : Struct) (m : Member) : Option Edge :=
  match m.type.innermostName?.filter model.hasStruct with
  | some target =>
    some {
      source := s.name
      field := m.name
      target
      kind := if m.type.isArray then .array else .field
      explicit := m.reference.isSome }
  | none =>
    match m.reference with
    | some r =>
      if model.hasStruct r.struct then
        some { source := s.name, field := m.name, target := r.struct, kind := .reference
               explicit := true }
      else none
    | none => none

def ofModel (model : Model) : StructGraph where
  nodes := model.structNames
  edges := model.structs.flatMap (fun s => s.members.filterMap (edgeOf? model s))

def edgesFrom (g : StructGraph) (node : String) : List Edge :=
  g.edges.filter (fun e => e.source == node)

/-- A field that holds another struct itself. -/
def isDirect (e : Edge) : Bool :=
  e.kind == .field && e.source != e.target

/-- The edge leads back to where the other one starts, and the other way round. -/
def facing (a b : Edge) : Bool :=
  a.source == b.target && a.target == b.source

/-- Every pair of elements, each pair once and in the order of the list. -/
def pairs {α : Type} : List α → List (α × α)
  | [] => []
  | a :: rest => rest.map (fun b => (a, b)) ++ pairs rest

/-- The pairs of fields by which two structs hold each other. -/
def mutualPairs (g : StructGraph) : List (Edge × Edge) :=
  (pairs (g.edges.filter isDirect)).filter (fun (a, b) => facing a b)

/-! ## Levels -/

/-- The struct that holds a key, and the struct whose key it holds. The key of an array stands with
the elements. -/
def dependency (e : Edge) : String × String :=
  match e.kind with
  | .array => (e.target, e.source)
  | .field | .reference => (e.source, e.target)

/-- The other structs whose keys a struct holds. -/
def dependencies (g : StructGraph) (node : String) : List String :=
  (g.edges.filter (fun e => e.source != e.target && (dependency e).1 == node)).map
    (fun e => (dependency e).2)

/-- A struct is free when none of its dependencies remains. -/
def isFree (dependencies : String → List String) (remaining : List String) (node : String) : Bool :=
  (dependencies node).all (fun d => !remaining.contains d)

/-- The structs that are free to go. -/
def free (dependencies : String → List String) (remaining : List String) : List String :=
  remaining.filter (isFree dependencies remaining)

/-- The structs that have to wait. -/
def waiting (dependencies : String → List String) (remaining : List String) : List String :=
  remaining.filter (fun node => !isFree dependencies remaining node)

theorem waiting_shorter {dependencies : String → List String} {remaining : List String}
    (h : free dependencies remaining ≠ []) :
    (waiting dependencies remaining).length < remaining.length := by
  obtain ⟨n, hn, hFree⟩ : ∃ n ∈ remaining, isFree dependencies remaining n = true := by
    simpa [free, List.filter_eq_nil_iff] using h
  exact List.length_filter_lt_length_iff_exists.2 ⟨n, hn, by simp [hFree]⟩

/-- Splits `remaining` into levels: the structs that are free go first, then those that are free
without them, and so on. What is left when no struct is free is the last level. -/
def levelsOf (dependencies : String → List String) (remaining : List String) :
    List (List String) :=
  if free dependencies remaining = [] then
    if remaining = [] then [] else [remaining]
  else free dependencies remaining :: levelsOf dependencies (waiting dependencies remaining)
termination_by remaining.length
decreasing_by exact waiting_shorter ‹_›

/-- The structs by level, each level in ascending order. A struct comes after those whose keys it
holds; structs on a cycle, or behind one, are together on the last level. -/
def levels (g : StructGraph) : List (List String) :=
  levelsOf g.dependencies ((g.nodes.mergeSort (fun a b => decide (a ≤ b))).eraseDups)

/-- The structs in the order of their levels. -/
def ordered (g : StructGraph) : List String :=
  g.levels.flatten

end StructGraph

end EntitySchema
