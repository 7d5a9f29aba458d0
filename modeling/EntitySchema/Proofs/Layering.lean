import EntitySchema.Model.StructGraph
import EntitySchema.Proofs.Lists
import Mathlib.Data.Fintype.Pigeonhole
import Mathlib.Logic.Relation
import Mathlib.Order.Monotone.Basic

/-!
The order of structs by levels. Every struct stands in it once. The main statement says exactly when
a struct comes after one that it depends on: always, but for dependencies that lead into a cycle.
Those are on the last level, in ascending order.
-/

namespace EntitySchema

namespace StructGraph

open Relation

/-! ## Cycles -/

/-- The node is on a cycle or behind one. -/
def Tangled (r : String → String → Prop) (a : String) : Prop :=
  ∃ c, ReflTransGen r a c ∧ TransGen r c c

section Tangled

variable {r r' : String → String → Prop} {a b : String}

theorem Tangled.exists_step (h : Tangled r a) : ∃ b, r a b ∧ Tangled r b := by
  obtain ⟨c, hReach, hCycle⟩ := h
  rcases ReflTransGen.cases_head hReach with rfl | ⟨b, hab, hbc⟩
  · obtain ⟨b, hab, hba⟩ := TransGen.head'_iff.1 hCycle
    exact ⟨b, hab, a, hba, hCycle⟩
  · exact ⟨b, hab, c, hbc, hCycle⟩

/-- Only the steps from nodes that can be reached matter, and of further ones only those that lead
into a cycle. -/
theorem Tangled.congr (hStep : ∀ c, ReflTransGen r a c → ∀ d, r c d → r' c d)
    (hBack : ∀ c, ReflTransGen r a c → ∀ d, r' c d → Tangled r' d → r c d) :
    Tangled r a ↔ Tangled r' a := by
  have hReach : ∀ {c}, ReflTransGen r a c → ∀ {d}, ReflTransGen r c d → ReflTransGen r' c d := by
    intro c hc d hcd
    induction hcd with
    | refl => exact .refl
    | tail hcd hNext ih => exact ih.tail (hStep _ (hc.trans hcd) _ hNext)
  -- All nodes on the way into a cycle are tangled.
  have hReach' : ∀ {e}, TransGen r' e e → ∀ {c}, ReflTransGen r' c e → ReflTransGen r a c →
      ReflTransGen r c e := by
    intro e hCycle c hce
    induction hce using ReflTransGen.head_induction_on with
    | refl => exact fun _ => .refl
    | @head c d hNext hde ih =>
      intro hc
      have hcd := hBack c hc d hNext ⟨e, hde, hCycle⟩
      exact .head hcd (ih (hc.tail hcd))
  constructor
  · rintro ⟨c, hc, hCycle⟩
    obtain ⟨d, hcd, hdc⟩ := TransGen.head'_iff.1 hCycle
    exact ⟨c, hReach .refl hc,
      TransGen.head'_iff.2 ⟨d, hStep c hc d hcd, hReach (hc.tail hcd) hdc⟩⟩
  · rintro ⟨c, hc', hCycle⟩
    have hc := hReach' hCycle hc' .refl
    obtain ⟨d, hcd', hdc⟩ := TransGen.head'_iff.1 hCycle
    have hcd := hBack c hc d hcd' ⟨c, hdc, hCycle⟩
    exact ⟨c, hc, TransGen.head'_iff.2 ⟨d, hcd, hReach' hCycle hdc (hc.tail hcd)⟩⟩

/-- Where each of finitely many nodes has a step to another of them, a walk comes round. -/
theorem tangled_of_stuck {nodes : List String} (hStuck : ∀ n ∈ nodes, ∃ d ∈ nodes, r n d)
    (ha : a ∈ nodes) : Tangled r a := by
  let next : {n // n ∈ nodes} → {n // n ∈ nodes} := fun n =>
    ⟨(hStuck n.1 n.2).choose, (hStuck n.1 n.2).choose_spec.1⟩
  let walk : ℕ → {n // n ∈ nodes} := fun k => next^[k] ⟨a, ha⟩
  have hStep : ∀ k, r (walk k) (walk (k + 1)) := by
    intro k
    have hNext : walk (k + 1) = next (walk k) := Function.iterate_succ_apply' next k _
    rw [hNext]
    exact (hStuck (walk k).1 (walk k).2).choose_spec.2
  have hWalk : ∀ {i j}, i < j → TransGen r (walk i) (walk j) := by
    intro i j hij
    exact Nat.rel_of_forall_rel_succ_of_lt (TransGen r) (f := fun k => (walk k).1)
      (fun k => .single (hStep k)) hij
  have hReach : ∀ i, ReflTransGen r a (walk i) := by
    intro i
    rcases Nat.eq_zero_or_pos i with rfl | hi
    · exact .refl
    · exact (hWalk hi).to_reflTransGen
  -- There are more positions on the walk than nodes, so it is at one node twice.
  obtain ⟨i, j, hNe, hSame⟩ := Finite.exists_ne_map_eq_of_infinite walk
  rcases Nat.lt_or_gt_of_ne hNe with hij | hji
  · exact ⟨walk i, hReach i, by simpa [hSame] using hWalk hij⟩
  · exact ⟨walk j, hReach j, by simpa [hSame] using hWalk hji⟩

end Tangled

/-! ## Levels -/

section Levels

variable {dependencies : String → List String} {remaining : List String} {a b : String}

/-- One struct depends on another. -/
def DependsOn (dependencies : String → List String) (a b : String) : Prop :=
  b ∈ dependencies a

theorem isFree_eq_false_iff {n : String} :
    isFree dependencies remaining n = false ↔ ∃ d ∈ remaining, DependsOn dependencies n d := by
  simp [isFree, DependsOn, and_comm]

theorem perm_levelsOf (dependencies : String → List String) (remaining : List String) :
    (levelsOf dependencies remaining).flatten.Perm remaining := by
  fun_induction levelsOf dependencies remaining with
  | case1 => simp
  | case2 => simp
  | case3 remaining _ ih =>
    rw [List.flatten_cons]
    exact (ih.append_left _).trans (List.filter_append_perm _ _)

/-- When no struct is free, all that remain are tangled. -/
theorem tangled_of_free_eq_nil (h : free dependencies remaining = []) (ha : a ∈ remaining) :
    Tangled (DependsOn dependencies) a :=
  tangled_of_stuck
    (fun n hn => isFree_eq_false_iff.1 (by simpa using List.filter_eq_nil_iff.1 h n hn)) ha

/-- The free structs leave, and no tangled one is among them. -/
theorem mem_waiting_of_tangled
    (hRemain : ∀ n, Tangled (DependsOn dependencies) n → n ∈ remaining) (n : String)
    (hn : Tangled (DependsOn dependencies) n) : n ∈ waiting dependencies remaining := by
  obtain ⟨d, hnd, hd⟩ := hn.exists_step
  have hWaits := isFree_eq_false_iff.2 ⟨d, hRemain d hd, hnd⟩
  exact List.mem_filter.2 ⟨hRemain n hn, by simp [hWaits]⟩

/-- A struct comes after one that it depends on, unless that one is tangled: then it is in the
order of their names. -/
theorem before_levelsOf_iff (hSorted : remaining.Pairwise (· < ·))
    (hRemain : ∀ n, Tangled (DependsOn dependencies) n → n ∈ remaining)
    (ha : a ∈ remaining) (hb : b ∈ remaining) (hab : DependsOn dependencies a b) :
    [b, a].Sublist (levelsOf dependencies remaining).flatten ↔
      (Tangled (DependsOn dependencies) b → b < a) := by
  fun_induction levelsOf dependencies remaining with
  | case1 => cases ha
  | case2 remaining hNone _ =>
    -- This is the last level, and what is on it is in ascending order.
    have hb' := tangled_of_free_eq_nil hNone hb
    simp only [List.flatten_cons, List.flatten_nil, List.append_nil, hb', forall_const]
    constructor
    · exact List.pairwise_iff_forall_sublist.1 hSorted
    · intro hLess
      rcases pair_sublist_or hb ha (Std.ne_of_lt hLess) with hBefore | hAfter
      · exact hBefore
      · exact absurd (List.pairwise_iff_forall_sublist.1 hSorted hAfter) (String.lt_asymm hLess)
  | case3 remaining _ ih =>
    -- `a` waits for `b`, which remains. Either `b` is on this level, or both are on later ones.
    have ha' : a ∈ waiting dependencies remaining :=
      List.mem_filter.2 ⟨ha, by simp [isFree_eq_false_iff.2 ⟨b, hb, hab⟩]⟩
    have hRest := perm_levelsOf dependencies (waiting dependencies remaining)
    rw [List.flatten_cons]
    cases hFree : isFree dependencies remaining b with
    | true =>
      have hb' : b ∈ free dependencies remaining := List.mem_filter.2 ⟨hb, hFree⟩
      -- What is tangled waits at every level, so a struct that is free is not.
      have hNot : ¬ Tangled (DependsOn dependencies) b := by
        intro hb
        have := (List.mem_filter.1 (mem_waiting_of_tangled hRemain b hb)).2
        simp [hFree] at this
      simp only [hNot, false_imp_iff, iff_true]
      exact (List.singleton_sublist.2 hb').append (List.singleton_sublist.2 (hRest.mem_iff.2 ha'))
    | false =>
      have hb' : b ∈ waiting dependencies remaining := List.mem_filter.2 ⟨hb, by simp [hFree]⟩
      have hNot : b ∉ free dependencies remaining := fun h => by
        simp [free, hFree] at h
      rw [← ih (hSorted.sublist List.filter_sublist) (mem_waiting_of_tangled hRemain) ha' hb']
      exact pair_sublist_append_iff hNot

end Levels

/-! ## The order of a graph -/

theorem pairwise_eraseDups :
    ∀ {names : List String}, names.Pairwise (· ≤ ·) → names.eraseDups.Pairwise (· < ·)
  | [], _ => .nil
  | n :: names, h => by
    obtain ⟨hFirst, hRest⟩ := List.pairwise_cons.1 h
    rw [List.eraseDups_cons, List.pairwise_cons]
    refine ⟨fun m hm => ?_, pairwise_eraseDups (hRest.sublist List.filter_sublist)⟩
    obtain ⟨hm, hNe⟩ := List.mem_filter.1 (List.mem_eraseDups.1 hm)
    exact Std.lt_of_le_of_ne (hFirst m hm) (by rintro rfl; simp at hNe)
termination_by names => names.length
decreasing_by exact Nat.lt_succ_of_le (List.length_filter_le _ _)

theorem pairwise_nodes (g : StructGraph) :
    ((g.nodes.mergeSort (fun a b => decide (a ≤ b))).eraseDups).Pairwise (· < ·) := by
  refine pairwise_eraseDups ?_
  refine (List.pairwise_mergeSort ?_ ?_ g.nodes).imp of_decide_eq_true
  · intro a b c hab hbc
    exact decide_eq_true (String.le_trans (of_decide_eq_true hab) (of_decide_eq_true hbc))
  · intro a b
    simpa using String.le_total a b

theorem mem_ordered {g : StructGraph} {n : String} : n ∈ g.ordered ↔ n ∈ g.nodes := by
  rw [ordered, levels, (perm_levelsOf _ _).mem_iff]
  simp

/-- With names in ascending order, nothing has to be sorted. -/
theorem ordered_of_pairwise {g : StructGraph} (h : g.nodes.Pairwise (· < ·)) :
    g.ordered = (levelsOf g.dependencies g.nodes.eraseDups).flatten := by
  have hSorted : g.nodes.Pairwise (fun a b => decide (a ≤ b) = true) :=
    h.imp (fun hab => decide_eq_true (Std.le_of_lt hab))
  rw [ordered, levels, List.mergeSort_of_pairwise hSorted]

theorem nodup_ordered (g : StructGraph) : g.ordered.Nodup :=
  (perm_levelsOf _ _).nodup_iff.2 ((pairwise_nodes g).imp Std.ne_of_lt)

/-- The key of the struct stands where the member is: the struct is its type, or the member is made
of no struct and refers to it. -/
def PointsTo (model : Model) (m : Member) (n : String) : Prop :=
  m.type = .named n ∨
    m.type.innermostName?.filter model.hasStruct = none ∧ m.reference.map Reference.struct = some n

/-- The member is an array of the struct, or an array of such arrays. -/
def HoldsMany (m : Member) (n : String) : Prop :=
  m.type.isArray = true ∧ m.type.innermostName? = some n

instance {m : Member} {n : String} : Decidable (HoldsMany m n) :=
  inferInstanceAs (Decidable (_ ∧ _))

/-- What the link of one member says. -/
theorem edgeOf?_depends_iff {model : Model} {s : Struct} {m : Member} {a b : String} :
    (∃ e, edgeOf? model s m = some e ∧ e.source ≠ e.target ∧ dependency e = (a, b)) ↔
      a ≠ b ∧ (s.name = a ∧ model.hasStruct b = true ∧ PointsTo model m b ∨
        s.name = b ∧ model.hasStruct a = true ∧ HoldsMany m a) := by
  unfold edgeOf? PointsTo HoldsMany
  cases hInner : m.type.innermostName?.filter model.hasStruct with
  | some n =>
    obtain ⟨hn, hStruct⟩ := Option.filter_eq_some_iff.1 hInner
    cases hType : m.type with
    | scalar => simp [hType, TypeExpr.innermostName?] at hn
    | named k =>
      obtain rfl : k = n := by simpa [hType, TypeExpr.innermostName?] using hn
      simp only [TypeExpr.isArray, dependency, Option.some.injEq, exists_eq_left']
      grind
    | array t =>
      simp only [hType] at hn
      simp only [TypeExpr.isArray, dependency, hn, Option.some.injEq, exists_eq_left']
      grind
  | none =>
    -- A type that is made of no struct is neither the struct nor an array of it.
    have hType : ∀ k, model.hasStruct k = true → m.type.innermostName? ≠ some k := by
      intro k hk hm
      simp [hm, hk] at hInner
    have hNamed : model.hasStruct b = true → m.type ≠ .named b := by
      intro hb hm
      exact hType b hb (by rw [hm, TypeExpr.innermostName?])
    cases m.reference with
    | none => grind
    | some r =>
      by_cases hStruct : model.hasStruct r.struct = true
      · simp only [if_pos hStruct, dependency, Option.map_some, Option.some.injEq, exists_eq_left']
        grind
      · simp only [if_neg hStruct, Option.map_some, Option.some.injEq]
        grind

/-- The struct stores the key of another one: it has a field or a reference that leads there, or
the other one has an array of it. -/
def StoresKeyOf (g : StructGraph) (a b : String) : Prop :=
  a ≠ b ∧ ∃ e ∈ g.edges, (e.kind ≠ .array ∧ e.source = a ∧ e.target = b) ∨
    (e.kind = .array ∧ e.source = b ∧ e.target = a)

theorem dependsOn_eq_storesKeyOf (g : StructGraph) :
    DependsOn g.dependencies = g.StoresKeyOf := by
  have hEdge : ∀ (e : Edge) (a b : String), e.source ≠ e.target ∧ dependency e = (a, b) ↔
      a ≠ b ∧ ((e.kind ≠ .array ∧ e.source = a ∧ e.target = b) ∨
        (e.kind = .array ∧ e.source = b ∧ e.target = a)) := by
    intro e a b
    unfold dependency
    cases e.kind <;> grind
  funext a b
  apply propext
  simp only [DependsOn, dependencies, StoresKeyOf, List.mem_map, List.mem_filter,
    Bool.and_eq_true, bne_iff_ne, beq_iff_eq]
  constructor
  · rintro ⟨e, ⟨he, hNe, ha⟩, hb⟩
    obtain ⟨hOther, hLink⟩ := (hEdge e a b).1 ⟨hNe, Prod.ext ha hb⟩
    exact ⟨hOther, e, he, hLink⟩
  · rintro ⟨hOther, e, he, hLink⟩
    obtain ⟨hNe, hPair⟩ := (hEdge e a b).2 ⟨hOther, hLink⟩
    exact ⟨e, ⟨he, hNe, congrArg Prod.fst hPair⟩, congrArg Prod.snd hPair⟩

theorem dependsOn_iff {model : Model} {a b : String} :
    DependsOn (ofModel model).dependencies a b ↔
      a ≠ b ∧ ((∃ s ∈ model.structs, s.name = a ∧ ∃ m ∈ s.members,
          model.hasStruct b = true ∧ PointsTo model m b) ∨
        ∃ s ∈ model.structs, s.name = b ∧ ∃ m ∈ s.members,
          model.hasStruct a = true ∧ HoldsMany m a) := by
  have hEdges : DependsOn (ofModel model).dependencies a b ↔
      ∃ s ∈ model.structs, ∃ m ∈ s.members, ∃ e, edgeOf? model s m = some e ∧
        e.source ≠ e.target ∧ dependency e = (a, b) := by
    simp only [DependsOn, dependencies, ofModel, List.mem_map, List.mem_filter, List.mem_flatMap,
      List.mem_filterMap, Bool.and_eq_true, bne_iff_ne, beq_iff_eq]
    constructor
    · rintro ⟨e, ⟨⟨s, hs, m, hm, he⟩, hNe, ha⟩, hb⟩
      exact ⟨s, hs, m, hm, e, he, hNe, Prod.ext ha hb⟩
    · rintro ⟨s, hs, m, hm, e, he, hNe, hab⟩
      exact ⟨e, ⟨⟨s, hs, m, hm, he⟩, hNe, by rw [hab]⟩, by rw [hab]⟩
  rw [hEdges]
  simp only [edgeOf?_depends_iff]
  constructor
  · rintro ⟨s, hs, m, hm, hNe, ⟨ha, hLink⟩ | ⟨hb, hLink⟩⟩
    · exact ⟨hNe, .inl ⟨s, hs, ha, m, hm, hLink⟩⟩
    · exact ⟨hNe, .inr ⟨s, hs, hb, m, hm, hLink⟩⟩
  · rintro ⟨hNe, ⟨s, hs, ha, m, hm, hLink⟩ | ⟨s, hs, hb, m, hm, hLink⟩⟩
    · exact ⟨s, hs, m, hm, hNe, .inl ⟨ha, hLink⟩⟩
    · exact ⟨s, hs, m, hm, hNe, .inr ⟨hb, hLink⟩⟩

/-- The links of a model are between its structs. -/
theorem mem_nodes_of_dependsOn {model : Model} {a b : String}
    (h : DependsOn (ofModel model).dependencies a b) :
    a ∈ (ofModel model).nodes ∧ b ∈ (ofModel model).nodes := by
  have hNode : ∀ {n}, model.hasStruct n = true → n ∈ (ofModel model).nodes := by
    intro n hn
    simpa [ofModel, Model.hasStruct, Model.structNames] using hn
  obtain ⟨-, ⟨s, hs, rfl, m, -, hb, -⟩ | ⟨s, hs, rfl, m, -, ha, -⟩⟩ := dependsOn_iff.1 h
  · exact ⟨List.mem_map_of_mem hs, hNode hb⟩
  · exact ⟨hNode ha, List.mem_map_of_mem hs⟩

theorem before_ordered_iff {model : Model} {a b : String}
    (hab : DependsOn (ofModel model).dependencies a b) :
    [b, a].Sublist (ofModel model).ordered ↔
      (Tangled (DependsOn (ofModel model).dependencies) b → b < a) := by
  obtain ⟨ha, hb⟩ := mem_nodes_of_dependsOn hab
  refine before_levelsOf_iff (pairwise_nodes _) (fun n hn => ?_) (by simpa using ha)
    (by simpa using hb) hab
  obtain ⟨d, hnd, -⟩ := hn.exists_step
  simpa using (mem_nodes_of_dependsOn hnd).1

end StructGraph

end EntitySchema
