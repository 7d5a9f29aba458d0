import EntitySchema.Schema.Grammar.Basic
import Mathlib.Data.List.Forall2
import Mathlib.Data.List.Perm.Basic

/-!
What holds of any lists, and of any steps that may fail.
-/

namespace EntitySchema

/-! ## Steps that may fail -/

theorem map_eq_ok_iff {ε α β : Type} {x : Except ε α} {f : α → β} {b : β} :
    x.map f = .ok b ↔ ∃ a, x = .ok a ∧ f a = b := by
  cases x <;> simp [Except.map]

theorem forM_eq_ok_iff {ε α : Type} {f : α → Except ε Unit} {l : List α} :
    l.forM f = .ok () ↔ ∀ a ∈ l, f a = .ok () := by
  induction l with
  | nil => simp [List.forM, pure, Except.pure]
  | cons a l ih =>
    have hStep : (a :: l).forM f = (f a >>= fun _ => l.forM f) := rfl
    rw [hStep, bind_eq_ok_iff, List.forall_mem_cons, ih]
    exact ⟨fun ⟨_, ha, hl⟩ => ⟨ha, hl⟩, fun ⟨ha, hl⟩ => ⟨(), ha, hl⟩⟩

theorem mapM_eq_ok_iff {ε α β : Type} {f : α → Except ε β} {as : List α} {bs : List β} :
    as.mapM f = .ok bs ↔ List.Forall₂ (fun a b => f a = .ok b) as bs := by
  induction as generalizing bs with
  | nil =>
    simp only [List.mapM_nil, pure, Except.pure, Except.ok.injEq]
    exact ⟨fun h => h ▸ .nil, fun h => by cases h; rfl⟩
  | cons a as ih =>
    simp only [List.mapM_cons, bind_eq_ok_iff, ih, pure, Except.pure, Except.ok.injEq]
    constructor
    · rintro ⟨b, hb, bs, hbs, rfl⟩
      exact .cons hb hbs
    · rintro (_ | ⟨hb, hbs⟩)
      exact ⟨_, hb, _, hbs, rfl⟩

theorem mapM_isOk {ε α β : Type} {f : α → Except ε β} {as : List α}
    (h : ∀ a ∈ as, ∃ b, f a = .ok b) : ∃ bs, as.mapM f = .ok bs := by
  induction as with
  | nil => exact ⟨[], rfl⟩
  | cons a as ih =>
    obtain ⟨⟨b, hb⟩, hRest⟩ := List.forall_mem_cons.1 h
    obtain ⟨bs, hbs⟩ := ih hRest
    exact ⟨b :: bs, mapM_eq_ok_iff.2 (.cons hb (mapM_eq_ok_iff.1 hbs))⟩

theorem map_mapM_cons {ε α β γ : Type} (f : α → Except ε (List β)) (g : β → γ) (a : α)
    (as : List α) :
    ((a :: as).mapM f).map (fun parts => parts.flatten.map g) =
      ((f a).map (List.map g)).bind (fun shown =>
        ((as.mapM f).map (fun parts => parts.flatten.map g)).map (shown ++ ·)) := by
  rw [List.mapM_cons]
  cases f a with
  | error e => rfl
  | ok part =>
    cases as.mapM f with
    | error e => rfl
    | ok parts => simp [bind, Except.bind, Except.map, pure, Except.pure]

/-- What steps return is shown in the same way if it is so for every step. -/
theorem map_mapM_congr {ε α α' β γ : Type} {f : α → Except ε (List β)} {f' : α' → Except ε (List β)}
    {g : β → γ} {as : List α} {as' : List α'}
    (h : List.Forall₂ (fun a a' => (f a).map (List.map g) = (f' a').map (List.map g)) as as') :
    (as.mapM f).map (fun parts => parts.flatten.map g) =
      (as'.mapM f').map (fun parts => parts.flatten.map g) := by
  induction h with
  | nil => rfl
  | cons hFirst _ ih => rw [map_mapM_cons, map_mapM_cons, hFirst, ih]

/-! ## Lists side by side -/

theorem exists_of_mem_right {α β : Type} {r : α → β → Prop} {as : List α} {bs : List β} {b : β}
    (h : List.Forall₂ r as bs) (hb : b ∈ bs) : ∃ a ∈ as, r a b := by
  induction h with
  | nil => cases hb
  | @cons a b' as bs hab _ ih =>
    rcases List.mem_cons.1 hb with rfl | hb
    · exact ⟨a, List.mem_cons_self, hab⟩
    · obtain ⟨a', ha', hr⟩ := ih hb
      exact ⟨a', List.mem_cons_of_mem a ha', hr⟩

theorem exists_mem_iff_of_forall₂ {α β : Type} {r : α → β → Prop} {as : List α} {bs : List β}
    (h : List.Forall₂ r as bs) {p : α → Prop} {q : β → Prop} (hpq : ∀ {a b}, r a b → (p a ↔ q b)) :
    (∃ a ∈ as, p a) ↔ ∃ b ∈ bs, q b := by
  induction h with
  | nil => simp
  | cons hab _ ih => simp only [List.exists_mem_cons_iff, hpq hab, ih]

theorem filterMap_eq_of_forall₂ {α β γ : Type} {r : α → β → Prop} {f : α → Option γ}
    {g : β → Option γ} {as : List α} {bs : List β} (h : List.Forall₂ r as bs)
    (hfg : ∀ {a b}, r a b → f a = g b) : as.filterMap f = bs.filterMap g := by
  induction h with
  | nil => rfl
  | cons hab _ ih => rw [List.filterMap_cons, List.filterMap_cons, hfg hab, ih]

theorem map_eq_of_forall₂ {α β γ : Type} {f : α → γ} {g : β → γ} {as : List α} {bs : List β}
    (h : List.Forall₂ (fun a b => f a = g b) as bs) : as.map f = bs.map g := by
  induction h with
  | nil => rfl
  | cons hab _ ih => rw [List.map_cons, List.map_cons, hab, ih]

/-! ## Parts of lists -/

/-- Something new at the end keeps a list free of repetitions. -/
theorem nodup_snoc {α : Type} {l : List α} {a : α} (h : l.Nodup) (ha : a ∉ l) :
    (l ++ [a]).Nodup := by
  rw [List.nodup_append]
  refine ⟨h, by simp, ?_⟩
  intro x hx y hy hxy
  rw [List.mem_singleton] at hy
  exact ha (hy ▸ hxy ▸ hx)

theorem pair_sublist_or {α : Type} {l : List α} {a b : α} (ha : a ∈ l) (hb : b ∈ l) (hNe : a ≠ b) :
    [a, b].Sublist l ∨ [b, a].Sublist l := by
  obtain ⟨xs, ys, rfl⟩ := List.append_of_mem ha
  rcases List.mem_append.1 hb with hb | hb
  · exact .inr ((List.singleton_sublist.2 hb).append (List.singleton_sublist.2 (by simp)))
  · have hb : b ∈ ys := (List.mem_cons.1 hb).resolve_left (Ne.symm hNe)
    exact .inl (((List.singleton_sublist.2 hb).cons_cons a).trans (List.sublist_append_right _ _))

theorem pair_sublist_append_iff {α : Type} {l l' : List α} {a b : α} (ha : a ∉ l) :
    [a, b].Sublist (l ++ l') ↔ [a, b].Sublist l' := by
  refine ⟨fun h => ?_, fun h => h.trans (List.sublist_append_right _ _)⟩
  obtain ⟨xs, ys, hSplit, hxs, hys⟩ := List.sublist_append_iff.1 h
  cases xs with
  | nil => exact hSplit ▸ hys
  | cons x xs =>
    obtain ⟨rfl, _⟩ := List.cons.inj hSplit
    exact absurd (hxs.subset List.mem_cons_self) ha

theorem eq_of_ascending {l l' : List String} (h : l.Pairwise (· < ·)) (h' : l'.Pairwise (· < ·))
    (hMem : ∀ n, n ∈ l ↔ n ∈ l') : l = l' := by
  refine List.Perm.eq_of_pairwise (fun a b _ _ hab hba => ?_) h h' ?_
  · exact absurd hba (String.lt_asymm hab)
  · exact (List.perm_ext_iff_of_nodup (h.imp Std.ne_of_lt) (h'.imp Std.ne_of_lt)).2 hMem

theorem not_mem_of_mem_splitOn {α : Type} [BEq α] [LawfulBEq α] {a : α} (xs : List α) :
    ∀ s ∈ xs.splitOn a, a ∉ s := by
  induction xs with
  | nil => simp
  | cons x xs ih =>
    rw [List.splitOn_cons_eq_if_modifyHead]
    split
    · simpa using ih
    · rename_i hx
      cases hs : xs.splitOn a with
      | nil => simp
      | cons s rest =>
        rw [hs, List.forall_mem_cons] at ih
        rw [List.modifyHead_cons, List.forall_mem_cons]
        refine ⟨?_, ih.2⟩
        simp only [beq_iff_eq] at hx
        simpa [eq_comm (a := a), hx] using ih.1

theorem range_two_mul (k : Nat) :
    List.range (2 * k) = (List.range k).flatMap (fun m => [2 * m, 2 * m + 1]) := by
  induction k with
  | zero => rfl
  | succ k ih =>
    rw [Nat.mul_succ, List.range_succ, List.range_succ, List.range_succ, ih, List.flatMap_append]
    simp

theorem length_le_length_flatMap {α β : Type} {f : α → List β} (h : ∀ a, 1 ≤ (f a).length)
    (as : List α) : as.length ≤ (as.flatMap f).length := by
  induction as with
  | nil => simp
  | cons a as ih =>
    have := h a
    simp only [List.flatMap_cons, List.length_append, List.length_cons]
    omega

/-- What is written without a code being the beginning of another one can be read again. -/
theorem flatMap_inj_of_prefix {α β : Type} {code : α → List β} {as bs : List α}
    (hSome : ∀ a, code a ≠ []) (hCode : ∀ a ∈ as, ∀ b ∈ bs, code a <+: code b ∨ code b <+: code a →
      a = b) (h : as.flatMap code = bs.flatMap code) : as = bs := by
  induction as generalizing bs with
  | nil =>
    cases bs with
    | nil => rfl
    | cons b bs =>
      rw [List.flatMap_nil, List.flatMap_cons, eq_comm, List.append_eq_nil_iff] at h
      exact absurd h.1 (hSome b)
  | cons a as ih =>
    cases bs with
    | nil =>
      rw [List.flatMap_nil, List.flatMap_cons, List.append_eq_nil_iff] at h
      exact absurd h.1 (hSome a)
    | cons b bs =>
      rw [List.flatMap_cons, List.flatMap_cons] at h
      -- Both codes stand at the beginning of one text.
      have hFirst : code a <+: code b ++ bs.flatMap code := h ▸ List.prefix_append _ _
      have hEither := List.prefix_or_prefix_of_prefix hFirst (List.prefix_append _ _)
      obtain rfl := hCode a List.mem_cons_self b List.mem_cons_self hEither
      rw [ih ?_ (List.append_cancel_left h)]
      intro a' ha' b' hb'
      exact hCode a' (List.mem_cons_of_mem _ ha') b' (List.mem_cons_of_mem _ hb')

theorem intercalate_append_self {α : Type} (separator : List α) {parts : List (List α)}
    (hParts : parts ≠ []) :
    separator.intercalate parts ++ separator = parts.flatMap (· ++ separator) := by
  induction parts with
  | nil => exact absurd rfl hParts
  | cons part parts ih =>
    cases parts with
    | nil => simp
    | cons part' parts =>
      rw [List.intercalate_cons_cons, List.flatMap_cons, ← ih (by simp)]
      simp only [List.append_assoc]

theorem flatMap_append_eq_iff {α β : Type} {f g : α → List β} {as : List α} :
    as.flatMap (fun a => f a ++ g a) = as.flatMap g ↔ ∀ a ∈ as, f a = [] := by
  constructor
  · intro h
    have hLength := (List.flatMap_append_perm as f g).length_eq
    rw [h, List.length_append] at hLength
    exact List.flatMap_eq_nil_iff.1 (List.eq_nil_of_length_eq_zero (by omega))
  · intro h
    refine List.flatMap_congr ?_
    intro a ha
    rw [h a ha, List.nil_append]

end EntitySchema
