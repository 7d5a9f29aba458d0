import EntitySchema.Proofs.ForeignKeys
import EntitySchema.Proofs.Lines
import EntitySchema.Proofs.OutputFiles
import Mathlib.Algebra.GroupWithZero.Nat
import Mathlib.Data.Finset.Basic
import Mathlib.Data.List.Sublists
import Mathlib.Data.Nat.Bitwise

/-!
The filtered queries. A table has one for every set of its columns that is not empty and leaves out
the key. How many there are is told before any is emitted, in numbers of 64 bits that stop at the
largest one, while the files are emitted only if no table has more than twenty such columns. The
main result says that both agree with what stands in the files.
-/

namespace EntitySchema

namespace Sql

open Text Number

/-! ## The count -/

theorem toNat_queryCountOf (n : Nat) : (queryCountOf n).toNat = min (2 ^ n - 1) (2 ^ 64 - 1) := by
  unfold queryCountOf
  split
  · rename_i hn
    have hPow : 2 ^ n < 2 ^ 64 := Nat.pow_lt_pow_right (by decide) hn
    have hShift : ((1 : UInt64) <<< UInt64.ofNat n).toNat = 2 ^ n := by
      rw [UInt64.toNat_shiftLeft, UInt64.toNat_ofNat_of_lt' (Nat.lt_trans hn (by decide)),
        Nat.mod_eq_of_lt hn, UInt64.toNat_one, Nat.one_shiftLeft, Nat.mod_eq_of_lt hPow]
    have hPos : 0 < 2 ^ n := Nat.two_pow_pos n
    rw [UInt64.toNat_sub_of_le, hShift, UInt64.toNat_one]
    · omega
    · rw [UInt64.le_iff_toNat_le, hShift, UInt64.toNat_one]
      omega
  · rename_i hn
    have hPow : 2 ^ 64 ≤ 2 ^ n := Nat.pow_le_pow_right (by decide) (by omega)
    have hLargest : largestCount.toNat = 2 ^ 64 - 1 := by decide
    omega

/-- The sum is the true one, unless it is too large. -/
theorem toNat_addCounts (a b : UInt64) :
    (addCounts a b).toNat = min (a.toNat + b.toNat) (2 ^ 64 - 1) := by
  have hLargest : largestCount.toNat = 2 ^ 64 - 1 := by decide
  have ha := a.toNat_lt
  have hb := b.toNat_lt
  -- A sum that wraps around is less than both of its parts.
  have hSum := UInt64.toNat_add a b
  unfold addCounts
  split
  · rename_i hLess
    rw [UInt64.lt_iff_toNat_lt] at hLess
    omega
  · rename_i hLess
    rw [UInt64.lt_iff_toNat_lt] at hLess
    omega

theorem toNat_foldl_addCounts (ns : List Nat) (start : UInt64) :
    ((ns.map queryCountOf).foldl addCounts start).toNat =
      min (start.toNat + (ns.map (fun n => 2 ^ n - 1)).sum) (2 ^ 64 - 1) := by
  induction ns generalizing start with
  | nil =>
    have hStart := start.toNat_lt
    simp only [List.map_nil, List.foldl_nil, List.sum_nil]
    omega
  | cons n ns ih =>
    -- What has come to the largest count stays there, so one clamp at the end does the same.
    rw [List.map_cons, List.foldl_cons, ih, toNat_addCounts, toNat_queryCountOf, List.map_cons,
      List.sum_cons]
    omega

theorem queryCount_eq (model : Model) :
    queryCount model =
      min (model.structs.map (fun s => 2 ^ (valueMembers model s).length - 1)).sum
        (2 ^ 64 - 1) := by
  have hFold := toNat_foldl_addCounts (model.structs.map (fun s => (valueMembers model s).length)) 0
  rw [List.map_map, List.map_map, UInt64.toNat_zero, Nat.zero_add] at hFold
  exact hFold

/-! ## Choices as sets -/

theorem choices_eq_sublists {α : Type} (as : List α) : choices as = as.sublists := by
  induction as with
  | nil => rfl
  | cons a as ih =>
    rw [choices, ih, List.sublists_cons]
    rfl

/-- What is chosen from different elements is found again among them by its set. -/
theorem filter_mem_toFinset {α : Type} [DecidableEq α] {as chosen : List α} (hNodup : as.Nodup)
    (h : chosen.Sublist as) : as.filter (· ∈ chosen.toFinset) = chosen := by
  have hSublist : chosen.Sublist (as.filter (· ∈ chosen.toFinset)) := by
    have hFilter := h.filter (fun a => decide (a ∈ chosen.toFinset))
    rwa [List.filter_eq_self.2 (by simp)] at hFilter
  have hPerm : chosen.Perm (as.filter (· ∈ chosen.toFinset)) := by
    rw [List.perm_ext_iff_of_nodup (h.nodup hNodup) (hNodup.filter _)]
    intro a
    simpa using fun ha => h.subset ha
  exact (hSublist.eq_of_length hPerm.length_eq).symm

theorem toFinset_filter_mem {α : Type} [DecidableEq α] {as : List α} {filter : Finset α}
    (h : filter ⊆ as.toFinset) : (as.filter (· ∈ filter)).toFinset = filter := by
  ext a
  simp only [List.mem_toFinset, List.mem_filter, decide_eq_true_eq, and_iff_right_iff_imp]
  exact fun ha => List.mem_toFinset.1 (h ha)

/-- The choice of nothing comes first, and it is the only one that is empty. -/
theorem mem_tail_choices {α : Type} {as chosen : List α} (hNodup : as.Nodup) :
    chosen ∈ (choices as).tail ↔ chosen ≠ [] ∧ chosen.Sublist as := by
  have hFirst : choices as = [] :: (choices as).tail := by
    induction as with
    | nil => rfl
    | cons a as ih =>
      rw [choices, ih (List.nodup_cons.1 hNodup).2]
      rfl
  have hAll : (choices as).Nodup := by
    rw [choices_eq_sublists]
    exact hNodup.sublists
  have hMem : chosen ∈ choices as ↔ chosen.Sublist as := by
    rw [choices_eq_sublists, List.mem_sublists]
  rw [hFirst] at hAll hMem
  rw [← hMem, List.mem_cons]
  constructor
  · intro h
    exact ⟨fun hNil => (List.nodup_cons.1 hAll).1 (hNil ▸ h), .inr h⟩
  · rintro ⟨hNe, hNil | h⟩
    · exact absurd hNil hNe
    · exact h

theorem nodup_tail_choices {α : Type} {as : List α} (hNodup : as.Nodup) :
    (choices as).tail.Nodup := by
  rw [choices_eq_sublists]
  exact hNodup.sublists.tail

theorem length_tail_choices {α : Type} (as : List α) :
    (choices as).tail.length = 2 ^ as.length - 1 := by
  rw [List.length_tail, choices_eq_sublists, List.length_sublists]

/-! ## Choices by masks -/

/-- The elements at the bits that are set in a mask. -/
def chosenBy {α : Type} (mask : UInt32) (as : List α) : List α :=
  (as.zipIdx.filter (fun x => mask &&& (1 <<< UInt32.ofNat x.2) != 0)).map Prod.fst

/-- The masks of some bits, from one on. -/
def masks (bits : Nat) : List UInt32 :=
  (List.range' 1 (((1 : UInt32) <<< UInt32.ofNat bits).toNat - 1)).map UInt32.ofNat

/-- The queries of a struct, one for every mask of its value columns. -/
def queriesByMask (model : Model) (s : Struct) : List Query :=
  (masks (valueNames model s).length).map (fun mask =>
    Query.ofChoice s.name (storedNames model s) (chosenBy mask (valueNames model s)))

/-- The elements at the bits that are set in a number. -/
def elementsAt {α : Type} (m : Nat) (as : List α) : List α :=
  (as.zipIdx.filter (fun x => m.testBit x.2)).map Prod.fst

/-- The first element is there by the lowest bit, and the others by the bits above it. -/
theorem elementsAt_cons {α : Type} (m : Nat) (a : α) (as : List α) :
    elementsAt m (a :: as) = (if m.testBit 0 then [a] else []) ++ elementsAt (m / 2) as := by
  have hShift : (as.zipIdx 1).filter (fun x => m.testBit x.2) =
      (as.zipIdx.filter (fun x => (m / 2).testBit x.2)).map (fun x => (x.1, x.2 + 1)) := by
    rw [List.zipIdx_succ, List.filter_map]
    simp only [Function.comp_def, Nat.testBit_succ]
  unfold elementsAt
  rw [List.zipIdx_cons, Nat.zero_add, List.filter_cons, hShift]
  split <;> simp

theorem choices_eq_elementsAt {α : Type} (as : List α) :
    choices as = (List.range (2 ^ as.length)).map (elementsAt · as) := by
  induction as with
  | nil => rfl
  | cons a as ih =>
    -- A choice without the first element and with it are those of a number and the next one.
    rw [choices, ih, List.length_cons, Nat.pow_succ', range_two_mul, List.map_flatMap,
      List.flatMap_map]
    refine List.flatMap_congr fun m _ => ?_
    have hHalf : (2 * m + 1) / 2 = m := by omega
    simp [elementsAt_cons, hHalf]

theorem toNat_one_shiftLeft {n : Nat} (h : n < 32) :
    ((1 : UInt32) <<< UInt32.ofNat n).toNat = 2 ^ n := by
  have hPow : 2 ^ n < 2 ^ 32 := Nat.pow_lt_pow_right (by decide) h
  rw [UInt32.toNat_shiftLeft, UInt32.toNat_ofNat_of_lt' (Nat.lt_trans h (by decide)),
    Nat.mod_eq_of_lt h, UInt32.toNat_one, Nat.one_shiftLeft, Nat.mod_eq_of_lt hPow]

theorem chosenBy_ofNat {α : Type} {m : Nat} (hm : m < 2 ^ 32) {as : List α}
    (has : as.length ≤ 32) : chosenBy (UInt32.ofNat m) as = elementsAt m as := by
  unfold chosenBy elementsAt
  refine congrArg (List.map Prod.fst) (List.filter_congr fun x hx => ?_)
  have hi : x.2 < 32 := Nat.lt_of_lt_of_le (List.snd_lt_of_mem_zipIdx hx) has
  have hAnd : (UInt32.ofNat m &&& (1 <<< UInt32.ofNat x.2)).toNat =
      (m.testBit x.2).toNat * 2 ^ x.2 := by
    rw [UInt32.toNat_and, toNat_one_shiftLeft hi, UInt32.toNat_ofNat_of_lt' hm, Nat.and_two_pow]
  have hZero : (UInt32.ofNat m &&& (1 <<< UInt32.ofNat x.2)) = 0 ↔ m.testBit x.2 = false := by
    rw [← UInt32.toNat_inj, hAnd, UInt32.toNat_zero, Nat.mul_eq_zero]
    simp
  rw [Bool.eq_iff_iff, bne_iff_ne, Ne, hZero, Bool.not_eq_false]

/-- As long as the masks fit 32 bits, they make all choices but the empty one, in their order. -/
theorem tail_choices_eq_masks {α : Type} {as : List α} (h : as.length < 32) :
    (choices as).tail = (masks as.length).map (chosenBy · as) := by
  rw [choices_eq_elementsAt, masks, toNat_one_shiftLeft h, List.map_map, ← List.map_tail,
    List.range_eq_range', List.tail_range']
  refine List.map_congr_left fun m hm => ?_
  have hPow : 2 ^ as.length < 2 ^ 32 := Nat.pow_lt_pow_right (by decide) h
  have hm : m < 2 ^ 32 := by
    have := (List.mem_range'_1.1 hm).2
    omega
  exact (chosenBy_ofNat hm (Nat.le_of_lt h)).symm

theorem queriesByMask_eq {model : Model} {s : Struct} (h : (valueMembers model s).length ≤ 20) :
    queriesByMask model s = queries model s := by
  have hFew : (valueNames model s).length < 32 := by
    rw [valueNames, List.length_map]
    omega
  rw [queriesByMask, queries, tail_choices_eq_masks hFew, List.map_map]
  rfl

/-! ## Lines of a file -/

/-- The statements of a text that look for rows. Each stands on a line of its own. -/
def selects (text : String) : List String :=
  (lines text).filter (fun line => "SELECT ".toList.isPrefixOf line.toList)

theorem renderNamed_eq (d : Dialect) (name : String) (s : Statement) :
    renderNamed d name s = unlines ["", "-- name: " ++ name, s.render d] := by
  have hStart : "\n-- name: " = "\n" ++ "-- name: " := by decide
  rw [renderNamed, hStart]
  simp only [unlines_cons, unlines_nil, String.append_assoc, String.append_empty,
    String.empty_append]

/-- The lines of a file of queries: of each query an empty one, its name and its statement. -/
theorem lines_queries {d : Dialect} {qs : List Query}
    (h : ∀ q ∈ qs, '\n' ∉ q.label.toList ∧ '\n' ∉ (q.statement.render d).toList) :
    lines (header ++ String.join (qs.map (fun q => renderNamed d q.label q.statement))) =
      "-- Generated by schemagen. Do not edit." ::
        (qs.flatMap (fun q => ["", "-- name: " ++ q.label, q.statement.render d]) ++ [""]) := by
  have hHeader : header = unlines ["-- Generated by schemagen. Do not edit."] := by decide
  simp only [renderNamed_eq]
  rw [hHeader, ← unlines_flatMap, ← unlines_append, lines_unlines_of_not_mem, List.singleton_append,
    List.cons_append]
  simp only [List.forall_mem_append, List.forall_mem_flatMap, List.forall_mem_cons]
  refine ⟨⟨by decide, by simp⟩, ?_⟩
  intro q hq
  obtain ⟨hLabel, hStatement⟩ := h q hq
  exact ⟨by decide, by simpa using hLabel, hStatement, by simp⟩

theorem selects_queries {d : Dialect} {qs : List Query}
    (h : ∀ q ∈ qs, '\n' ∉ q.label.toList ∧ '\n' ∉ (q.statement.render d).toList)
    (hSelect : ∀ q ∈ qs, "SELECT ".toList <+: (q.statement.render d).toList) :
    selects (header ++ String.join (qs.map (fun q => renderNamed d q.label q.statement))) =
      qs.map (fun q => q.statement.render d) := by
  rw [selects, lines_queries h, List.filter_cons_of_neg (by decide), List.filter_append,
    List.filter_flatMap, List.map_eq_flatMap]
  have hEach : ∀ q ∈ qs, ["", "-- name: " ++ q.label, q.statement.render d].filter
      (fun line => "SELECT ".toList.isPrefixOf line.toList) = [q.statement.render d] := by
    intro q hq
    rw [List.filter_cons_of_neg (by decide), List.filter_cons_of_neg (by simp),
      List.filter_cons_of_pos (by simpa using hSelect q hq), List.filter_nil]
  rw [List.flatMap_congr hEach]
  exact List.append_nil _

/-! ## Characters of a statement -/

section Characters

variable {c : Char} {d : Dialect}

theorem mem_encode {mark : Char} {cs : List Char} (h : c ∈ Doubled.encode mark cs) :
    c ∈ cs ∨ c = mark := by
  induction cs with
  | nil => cases h
  | cons a cs ih =>
    unfold Doubled.encode at h
    split at h <;> simp only [List.mem_cons] at h ⊢ <;> tauto

theorem not_mem_quote (hMark : c ≠ d.quoteMark) {name : String} (hName : c ∉ name.toList) :
    c ∉ (d.quote name).toList := by
  intro h
  simp only [Dialect.quote, Doubled.quote, String.toList_ofList, List.cons_append, List.mem_cons,
    List.mem_append, List.not_mem_nil, or_false] at h
  rcases h with h | h | h
  · exact hMark h
  · exact (mem_encode h).elim hName hMark
  · exact hMark h

theorem encode_eq_self {mark : Char} {cs : List Char} (h : mark ∉ cs) :
    Doubled.encode mark cs = cs := by
  induction cs with
  | nil => rfl
  | cons a cs ih =>
    rw [List.mem_cons, not_or] at h
    rw [Doubled.encode, if_neg (Ne.symm h.1), ih h.2]

theorem not_mem_placeholder (hDigit : c.isDigit = false) (hQuestion : c ≠ '?') (hDollar : c ≠ '$')
    (n : Nat) : c ∉ (d.placeholder n).toList := by
  have hDecimal : c ∉ (decimal n).toList := by
    intro h
    rw [decimal, String.toList_ofList] at h
    have := Nat.isDigit_of_mem_toDigits (by decide) (by decide) h
    simp [hDigit] at this
  cases d <;> simp [Dialect.placeholder, hQuestion, hDollar, hDecimal]

theorem not_mem_intercalate {separator : String} {parts : List String}
    (hSeparator : c ∉ separator.toList) (hParts : ∀ p ∈ parts, c ∉ p.toList) :
    c ∉ (separator.intercalate parts).toList := by
  rw [String.toList_intercalate]
  induction parts with
  | nil => simp
  | cons p parts ih =>
    obtain ⟨hp, hParts⟩ := List.forall_mem_cons.1 hParts
    cases parts with
    | nil => simpa using hp
    | cons p' parts =>
      rw [List.map_cons, List.map_cons, List.intercalate_cons_cons]
      simp only [List.mem_append, not_or]
      exact ⟨⟨hp, hSeparator⟩, ih hParts⟩

end Characters

/-! ## Conditions -/

/-- The mark in place of a value: in PostgreSQL with its number, otherwise a question mark. -/
def valueMark : Dialect → Nat → String
  | .postgres, n => "$" ++ toString n
  | .mysql, _ => "?"
  | .sqlite, _ => "?"

theorem placeholder_eq (d : Dialect) (n : Nat) : d.placeholder n = valueMark d n := by
  cases d <;> rfl

/-- The condition that columns have given values, which are counted from one. -/
def condition (d : Dialect) (columns : List String) : String :=
  " AND ".intercalate
    (columns.mapIdx (fun i column => d.quote column ++ " = " ++ valueMark d (i + 1)))

theorem intercalate_bindings_cons {d : Dialect} {name : String} (hName : d.quoteMark ∉ name.toList)
    (names : List String) (start : Nat) :
    (" AND ".intercalate (Statement.bindings d (name :: names) start)).toList =
      d.quoteMark :: (name.toList ++ d.quoteMark :: ((" = " ++ d.placeholder start).toList ++
        if names = [] then [] else " AND ".toList ++
          (" AND ".intercalate (Statement.bindings d names (start + 1))).toList)) := by
  have hQuote : (d.quote name).toList = d.quoteMark :: (name.toList ++ [d.quoteMark]) := by
    rw [Dialect.quote, Doubled.quote, String.toList_ofList, encode_eq_self hName,
      List.cons_append]
  cases names with
  | nil => simp [Statement.bindings, hQuote]
  | cons name' names => simp [Statement.bindings, hQuote, String.toList_intercalate]

/-- Where no name has the mark of quotes in it, a condition tells its columns. -/
theorem intercalate_bindings_inj {d : Dialect} {names names' : List String}
    (hMark : ∀ n ∈ names, d.quoteMark ∉ n.toList) (hMark' : ∀ n ∈ names', d.quoteMark ∉ n.toList)
    {start : Nat} (h : " AND ".intercalate (Statement.bindings d names start) =
      " AND ".intercalate (Statement.bindings d names' start)) : names = names' := by
  replace h := congrArg String.toList h
  have hEmpty : ∀ start,
      (" AND ".intercalate (Statement.bindings d [] start)).toList = [] := fun _ => rfl
  induction names generalizing names' start with
  | nil =>
    cases names' with
    | nil => rfl
    | cons name' names' =>
      rw [hEmpty, intercalate_bindings_cons (hMark' name' List.mem_cons_self)] at h
      cases h
  | cons name names ih =>
    obtain ⟨hName, hMore⟩ := List.forall_mem_cons.1 hMark
    rw [intercalate_bindings_cons hName] at h
    cases names' with
    | nil =>
      rw [hEmpty] at h
      cases h
    | cons name' names' =>
      obtain ⟨hName', hMore'⟩ := List.forall_mem_cons.1 hMark'
      rw [intercalate_bindings_cons hName'] at h
      have hRest := (List.cons.inj h).2
      -- The first name ends at the first mark.
      have hSame : name.toList = name'.toList := by
        have hSplit := congrArg (List.splitOn d.quoteMark) hRest
        rw [List.splitOn_append_cons_self_of_not_mem hName,
          List.splitOn_append_cons_self_of_not_mem hName'] at hSplit
        exact (List.cons.inj hSplit).1
      rw [hSame, List.append_cancel_left_eq, List.cons.injEq, List.append_cancel_left_eq] at hRest
      obtain rfl := String.toList_inj.1 hSame
      by_cases hNil : names = []
      · by_cases hNil' : names' = []
        · rw [hNil, hNil']
        · simp [hNil, hNil'] at hRest
      · by_cases hNil' : names' = []
        · simp [hNil, hNil'] at hRest
        · rw [if_neg hNil, if_neg hNil', List.append_cancel_left_eq] at hRest
          rw [ih hMore hMore' hRest.2]

theorem bindings_eq (d : Dialect) (columns : List String) :
    Statement.bindings d columns 1 =
      columns.mapIdx (fun i column => d.quote column ++ " = " ++ valueMark d (i + 1)) := by
  unfold Statement.bindings
  rw [List.mapIdx_eq_zipIdx_map, List.zipIdx_eq_map_add (i := 1), List.map_map]
  simp only [Function.comp_def, Nat.add_comm, placeholder_eq]

theorem condition_eq (d : Dialect) (columns : List String) :
    condition d columns = " AND ".intercalate (Statement.bindings d columns 1) := by
  rw [condition, bindings_eq]

/-! ## The queries of a table -/

/-- A name without any mark but underscores. -/
def IsPlain (name : String) : Prop :=
  ∀ c, isAlphanumeric c = false → c ≠ '_' → c ∉ name.toList

theorem IsPlain.newline_not_mem {name : String} (h : IsPlain name) : '\n' ∉ name.toList :=
  h '\n' (by decide) (by decide)

theorem IsPlain.quoteMark_not_mem {name : String} (h : IsPlain name) (d : Dialect) :
    d.quoteMark ∉ name.toList := by
  apply h <;> cases d <;> decide

/-- The statement that finds the rows with given values in the columns of a set. The columns stand
in the order of the members. -/
def findBy (d : Dialect) (model : Model) (s : Struct) (filter : Finset String) : String :=
  "SELECT " ++ ", ".intercalate ((storedMembers model s).map (fun m => d.quote m.name)) ++
    " FROM " ++ d.quote s.name ++
    " WHERE " ++ condition d (((valueMembers model s).map Member.name).filter (· ∈ filter)) ++ ";"

/-- A text that has a statement of its own for every set of columns, except for the empty set and
those with the key. -/
def FindsByEverySet (d : Dialect) (model : Model) (s : Struct) (text : String) : Prop :=
  (selects text).Nodup ∧ ∃ filters : List (Finset String), filters.Nodup ∧
    (∀ filter, filter ∈ filters ↔
      filter.Nonempty ∧ filter ⊆ ((valueMembers model s).map Member.name).toFinset) ∧
    selects text = filters.map (findBy d model s)

section Queries

variable {d : Dialect} {model : Model} {s : Struct} {chosen : List String}

theorem render_select (d : Dialect) (table : String) (columns filters : List String) :
    (Statement.select table columns filters).render d =
      "SELECT " ++ Statement.names d columns ++ " FROM " ++ d.quote table ++ " WHERE " ++
        " AND ".intercalate (Statement.bindings d filters 1) ++ ";" :=
  rfl

theorem render_ofChoice (hNodup : (valueNames model s).Nodup)
    (hChosen : chosen.Sublist (valueNames model s)) :
    (Query.ofChoice s.name (storedNames model s) chosen).statement.render d =
      findBy d model s chosen.toFinset := by
  have hFilter := filter_mem_toFinset hNodup hChosen
  unfold valueNames at hFilter
  unfold findBy Query.ofChoice
  rw [hFilter, condition_eq, render_select, Statement.names, storedNames, List.map_map]
  rfl

theorem newline_not_mem_label (chosen : List String) :
    '\n' ∉ (Query.ofChoice s.name (storedNames model s) chosen).label.toList := by
  have hWords : '\n' ∉ ("_and_".intercalate (chosen.map snakeCase)).toList := by
    refine not_mem_intercalate (by decide) ?_
    intro word hWord
    obtain ⟨name, _, rfl⟩ := List.mem_map.1 hWord
    exact Text.not_mem_snakeCase (by decide) (by decide) name
  simpa [Query.ofChoice] using hWords

theorem newline_not_mem_select (hName : IsPlain s.name) (hMembers : ∀ m ∈ s.members, IsPlain m.name)
    (hChosen : chosen.Sublist (valueNames model s)) :
    '\n' ∉ ((Query.ofChoice s.name (storedNames model s) chosen).statement.render d).toList := by
  have hMark : '\n' ≠ d.quoteMark := by cases d <;> decide
  have hQuote : ∀ name, IsPlain name → '\n' ∉ (d.quote name).toList :=
    fun name h => not_mem_quote hMark h.newline_not_mem
  have hColumns : '\n' ∉ (Statement.names d (storedNames model s)).toList := by
    refine not_mem_intercalate (by decide) ?_
    intro quoted hQuoted
    obtain ⟨name, hMem, rfl⟩ := List.mem_map.1 hQuoted
    obtain ⟨m, hm, rfl⟩ := List.mem_map.1 hMem
    exact hQuote _ (hMembers m (List.mem_of_mem_filter hm))
  have hCondition : '\n' ∉ (" AND ".intercalate (Statement.bindings d chosen 1)).toList := by
    refine not_mem_intercalate (by decide) ?_
    intro binding hBinding
    obtain ⟨⟨name, n⟩, hMem, rfl⟩ := List.mem_map.1 hBinding
    obtain ⟨m, hm, rfl⟩ := List.mem_map.1 (hChosen.subset (List.fst_mem_of_mem_zipIdx hMem))
    have hColumn := hQuote _ (hMembers m (List.mem_of_mem_filter (List.mem_of_mem_filter hm)))
    have hValue := not_mem_placeholder (d := d) (c := '\n') (by decide) (by decide) (by decide) n
    simp [hColumn, hValue]
  have hTable := hQuote s.name hName
  unfold Query.ofChoice
  simp only [render_select, String.toList_append, List.mem_append, not_or]
  exact ⟨⟨⟨⟨⟨⟨by decide, hColumns⟩, by decide⟩, hTable⟩, by decide⟩, hCondition⟩, by decide⟩

/-- The names and statements of queries are one line each. -/
theorem newline_not_mem_queries (hName : IsPlain s.name)
    (hMembers : ∀ m ∈ s.members, IsPlain m.name) (hNodup : (valueNames model s).Nodup) :
    ∀ q ∈ queries model s, '\n' ∉ q.label.toList ∧ '\n' ∉ (q.statement.render d).toList := by
  intro q hq
  obtain ⟨chosen, hChosen, rfl⟩ := List.mem_map.1 hq
  have hSublist := ((mem_tail_choices hNodup).1 hChosen).2
  exact ⟨newline_not_mem_label chosen, newline_not_mem_select hName hMembers hSublist⟩

/-- The statements of the file of queries are those of the choices, one after the other. -/
theorem selects_choices (hName : IsPlain s.name) (hMembers : ∀ m ∈ s.members, IsPlain m.name)
    (hNodup : (valueNames model s).Nodup) :
    selects (header ++ String.join
        ((queries model s).map (fun q => renderNamed d q.label q.statement))) =
      (choices (valueNames model s)).tail.map (fun chosen => findBy d model s chosen.toFinset) := by
  rw [selects_queries (newline_not_mem_queries hName hMembers hNodup)]
  · rw [queries, List.map_map]
    apply List.map_congr_left
    intro chosen hChosen
    exact render_ofChoice hNodup ((mem_tail_choices hNodup).1 hChosen).2
  · intro q hq
    obtain ⟨chosen, _, rfl⟩ := List.mem_map.1 hq
    unfold Query.ofChoice
    simp only [render_select, String.toList_append, List.append_assoc]
    exact List.prefix_append _ _

theorem findBy_inj (hMembers : ∀ m ∈ s.members, IsPlain m.name) {filter filter' : Finset String}
    (h : filter ⊆ (valueNames model s).toFinset) (h' : filter' ⊆ (valueNames model s).toFinset)
    (hSame : findBy d model s filter = findBy d model s filter') : filter = filter' := by
  have hMark : ∀ n ∈ valueNames model s, d.quoteMark ∉ n.toList := by
    intro n hn
    obtain ⟨m, hm, rfl⟩ := List.mem_map.1 hn
    exact (hMembers m (List.mem_of_mem_filter (List.mem_of_mem_filter hm))).quoteMark_not_mem d
  unfold findBy at hSame
  rw [String.append_left_inj, String.append_right_inj, condition_eq, condition_eq] at hSame
  have hColumns := intercalate_bindings_inj (fun n hn => hMark n (List.mem_of_mem_filter hn))
    (fun n hn => hMark n (List.mem_of_mem_filter hn)) hSame
  rw [← toFinset_filter_mem h, ← toFinset_filter_mem h']
  exact congrArg List.toFinset hColumns

theorem findsByEverySet_queries (hName : IsPlain s.name)
    (hMembers : ∀ m ∈ s.members, IsPlain m.name) (hNodup : (valueNames model s).Nodup) :
    FindsByEverySet d model s (header ++ String.join
      ((queries model s).map (fun q => renderNamed d q.label q.statement))) := by
  have hMem : ∀ filter : Finset String,
      filter ∈ (choices (valueNames model s)).tail.map List.toFinset ↔
        filter.Nonempty ∧ filter ⊆ (valueNames model s).toFinset := by
    intro filter
    rw [List.mem_map]
    constructor
    · rintro ⟨chosen, hChosen, rfl⟩
      obtain ⟨hNe, hSublist⟩ := (mem_tail_choices hNodup).1 hChosen
      refine ⟨(List.toFinset_nonempty_iff chosen).2 hNe, ?_⟩
      intro n hn
      exact List.mem_toFinset.2 (hSublist.subset (List.mem_toFinset.1 hn))
    · rintro ⟨hNonempty, hSubset⟩
      refine ⟨_, (mem_tail_choices hNodup).2 ⟨?_, List.filter_sublist⟩,
        toFinset_filter_mem hSubset⟩
      rw [← List.toFinset_nonempty_iff, toFinset_filter_mem hSubset]
      exact hNonempty
  have hFilters : ((choices (valueNames model s)).tail.map List.toFinset).Nodup := by
    refine (nodup_tail_choices hNodup).map_on ?_
    intro chosen hChosen chosen' hChosen' hSame
    rw [← filter_mem_toFinset hNodup ((mem_tail_choices hNodup).1 hChosen).2, hSame,
      filter_mem_toFinset hNodup ((mem_tail_choices hNodup).1 hChosen').2]
  have hSelects := selects_choices (d := d) hName hMembers hNodup
  rw [← Function.comp_def (findBy d model s) List.toFinset, ← List.map_map] at hSelects
  refine ⟨?_, _, hFilters, hMem, hSelects⟩
  rw [hSelects]
  refine hFilters.map_on ?_
  intro filter hFilter filter' hFilter' hSame
  exact findBy_inj hMembers ((hMem filter).1 hFilter).2 ((hMem filter').1 hFilter').2 hSame

end Queries

/-! ## The files -/

/-- The file of a table. -/
def tableFile (d : Dialect) (model : Model) (s : Struct) : Artifact :=
  ⟨⟨s.name ++ ".sql"⟩, structFile d model s⟩

/-- The files of the queries of structs. A struct that has only its key has no such file. -/
def queryFiles (d : Dialect) (model : Model) (ss : List Struct) : List Artifact :=
  (ss.filter (fun s => valueMembers model s ≠ [])).map (fun s => ⟨⟨s.name ++ "_queries.sql"⟩,
    header ++ String.join ((queries model s).map (fun q => renderNamed d q.label q.statement))⟩)

section Files

variable {o : Options} {model : Model} {s : Struct}

theorem structArtifacts_eq_ok_iff (hOn : o.filteredQueries = true) {files : List Artifact} :
    structArtifacts o model s = .ok files ↔ (valueMembers model s).length ≤ 20 ∧
      tableFile o.dialect model s :: queryFiles o.dialect model [s] = files := by
  unfold structArtifacts queryFile queryFiles tableFile
  by_cases hValues : valueMembers model s = []
  · simp [hOn, hValues]
  · by_cases hMany : (valueMembers model s).length > maxQueryColumns
    · have hNot : ¬ (valueMembers model s).length ≤ 20 := Nat.not_le.2 hMany
      simp [hOn, hValues, hMany, hNot, bind, Except.bind]
    · have hFew : (valueMembers model s).length ≤ 20 := Nat.not_lt.1 hMany
      simp [hOn, hValues, hMany, hFew, bind, Except.bind]

theorem flatMap_queryFiles (d : Dialect) (model : Model) (ss : List Struct) :
    ss.flatMap (fun s => queryFiles d model [s]) = queryFiles d model ss := by
  induction ss with
  | nil => rfl
  | cons s ss ih =>
    rw [List.flatMap_cons, ih]
    unfold queryFiles
    rw [← List.map_append, ← List.filter_append]
    rfl

theorem emit_eq_ok_iff (hOn : o.filteredQueries = true) {as : List Artifact} :
    emit o model = .ok as ↔
      (∀ s ∈ orderedStructs model, (valueMembers model s).length ≤ 20) ∧
      (orderedStructs model).flatMap (fun s =>
          tableFile o.dialect model s :: queryFiles o.dialect model [s]) ++
        [⟨schemaFile, schemaText o.dialect (tables model)⟩] = as := by
  unfold emit
  simp only [bind_eq_ok_iff, mapM_eq_ok_iff, structArtifacts_eq_ok_iff hOn,
    List.forall₂_and_left, Except.ok.injEq]
  constructor
  · rintro ⟨files, ⟨hFew, hFiles⟩, rfl⟩
    rw [← List.forall₂_map_left_iff, List.forall₂_eq_eq_eq] at hFiles
    rw [← hFiles, List.flatMap_def]
    exact ⟨hFew, rfl⟩
  · rintro ⟨hFew, rfl⟩
    refine ⟨_, ⟨hFew, ?_⟩, by rw [List.flatMap_def]⟩
    rw [List.forall₂_map_right_iff, List.forall₂_same]
    exact fun _ _ => rfl

theorem emit_isOk_iff (hOn : o.filteredQueries = true) (hNames : model.structNames.Nodup) :
    (∃ as, emit o model = .ok as) ↔
      ∀ s ∈ model.structs, (valueMembers model s).length ≤ 20 := by
  simp only [emit_eq_ok_iff hOn, mem_orderedStructs hNames, exists_and_left, exists_eq', and_true]

theorem perm_orderedStructs (hNames : model.structNames.Nodup) :
    (orderedStructs model).Perm model.structs := by
  rw [List.perm_ext_iff_of_nodup (nodup_orderedStructs model).of_map hNames.of_map]
  exact fun s => mem_orderedStructs hNames

/-- The files of the tables, those of the queries and the one with all tables. -/
theorem perm_emit (hOn : o.filteredQueries = true) (hNames : model.structNames.Nodup)
    {as : List Artifact} (h : emit o model = .ok as) :
    as.Perm (model.structs.map (tableFile o.dialect model) ++
      queryFiles o.dialect model model.structs ++
      [⟨schemaFile, schemaText o.dialect (tables model)⟩]) := by
  obtain ⟨-, rfl⟩ := (emit_eq_ok_iff hOn).1 h
  have hStructs := (perm_orderedStructs hNames).flatMap_right
    (fun s => tableFile o.dialect model s :: queryFiles o.dialect model [s])
  have hApart := (List.map_append_flatMap_perm model.structs (tableFile o.dialect model)
    (fun s => queryFiles o.dialect model [s])).symm
  rw [flatMap_queryFiles] at hApart
  exact (hStructs.trans hApart).append_right _

/-- The name of a table ends like that of a file of queries exactly if the name of the struct
does. -/
theorem suffix_tableFile_iff {d : Dialect} :
    "_queries.sql".toList <:+ (tableFile d model s).path.text.toList ↔
      "_queries".toList <:+ s.name.toList := by
  rw [← List.reverse_prefix, ← List.reverse_prefix]
  simp [tableFile]

theorem filter_queryFiles (d : Dialect) (model : Model) (ss : List Struct) :
    (queryFiles d model ss).filter (fun a => "_queries.sql".toList <:+ a.path.text.toList) =
      queryFiles d model ss := by
  rw [List.filter_eq_self]
  intro a ha
  obtain ⟨s, _, rfl⟩ := List.mem_map.1 ha
  simp

theorem filter_schemaFile (text : String) :
    [Artifact.mk schemaFile text].filter (fun a => "_queries.sql".toList <:+ a.path.text.toList) =
      [] := by
  have hName : ¬ "_queries.sql".toList <:+ schemaFile.text.toList := by decide
  rw [List.filter_eq_nil_iff]
  intro a ha
  rw [List.mem_singleton.1 ha, decide_eq_true_eq]
  exact hName

end Files

/-- The files of queries among the files that are emitted for a model. -/
structure AreQueryFiles (d : Dialect) (model : Model) (files queryFiles : List Artifact) :
    Prop where
  /-- All other files are those of the tables. -/
  perm : files.Perm (model.structs.map (tableFile d model) ++ queryFiles ++
    [⟨schemaFile, schemaText d (tables model)⟩])
  /-- They are told by their names, unless a struct has such a name. -/
  named : (∀ n ∈ model.structNames, ¬ "_queries".toList <:+ n.toList) →
    (files.filter (fun a => "_queries.sql".toList <:+ a.path.text.toList)).Perm queryFiles
  /-- Every struct has one that has a column besides its key. Its statements are written for one
  mask after the other. -/
  each : List.Forall₂ (fun s file => file.path = ⟨s.name ++ "_queries.sql"⟩ ∧
      FindsByEverySet d model s file.contents ∧
      file.contents = header ++ String.join
        ((queriesByMask model s).map (fun q => renderNamed d q.label q.statement)))
    (model.structs.filter (fun s => valueMembers model s ≠ [])) queryFiles
  total : (queryFiles.map (fun file => (selects file.contents).length)).sum =
    (model.structs.map (fun s => 2 ^ (valueMembers model s).length - 1)).sum

theorem sum_queryFiles {d : Dialect} {model : Model} {ss : List Struct}
    (hNames : ∀ s ∈ ss, IsPlain s.name ∧ (∀ m ∈ s.members, IsPlain m.name) ∧
      (valueNames model s).Nodup) :
    ((queryFiles d model ss).map (fun file => (selects file.contents).length)).sum =
      (ss.map (fun s => 2 ^ (valueMembers model s).length - 1)).sum := by
  induction ss with
  | nil => rfl
  | cons s ss ih =>
    obtain ⟨⟨hName, hMembers, hNodup⟩, hRest⟩ := List.forall_mem_cons.1 hNames
    rw [List.map_cons, List.sum_cons, ← ih hRest]
    unfold queryFiles
    by_cases hValues : valueMembers model s = []
    · -- Without a column there is no file, and no set to look by.
      rw [List.filter_cons_of_neg (by simpa using hValues), hValues]
      simp
    · rw [List.filter_cons_of_pos (by simpa using hValues), List.map_cons, List.map_cons,
        List.sum_cons, selects_choices hName hMembers hNodup, List.length_map, length_tail_choices,
        valueNames, List.length_map]

end Sql

namespace SqlComposition

variable {model composed : Model} {s : Struct}

/-- What the keys of holders are named is plain as well. -/
theorem isPlain (h : SqlComposition model composed) (hs : s ∈ composed.structs) :
    Sql.IsPlain s.name ∧ ∀ m ∈ s.members, Sql.IsPlain m.name := by
  have hStruct : ∀ s ∈ model.structs, Sql.IsPlain s.name :=
    fun s hs c hc hOther => not_mem_of_isName hc hOther (h.consistent.structs s hs).name
  obtain ⟨s₀, hs₀, hKeys⟩ := h.exists_source hs
  refine ⟨hKeys.name ▸ hStruct s₀ hs₀, ?_⟩
  intro m hm
  rw [hKeys.members, List.mem_append] at hm
  rcases hm with hm | hm
  · rcases Reader.declared_or_key (h.consistent.structs s₀ hs₀) hm with hm | rfl
    · exact fun c hc hOther => not_mem_of_isName hc hOther hm.name
    · exact fun c hc hOther => not_mem_of_isName hc hOther (by decide)
  · obtain ⟨p, hp, rfl⟩ := List.mem_map.1 hm
    intro c hc hOther
    have hHolder := hStruct p (List.mem_of_mem_filter hp) c hc hOther
    have hEnd : c ∉ "Id".toList := not_mem_of_isName hc hOther (by decide)
    rw [String.toList_append, List.mem_append, not_or]
    exact ⟨hHolder, hEnd⟩

theorem nodup_valueNames (h : SqlComposition model composed) (hs : s ∈ composed.structs) :
    (Sql.valueNames composed s).Nodup := by
  exact (h.nodup_members hs).sublist ((List.filter_sublist.trans List.filter_sublist).map _)

theorem areQueryFiles (h : SqlComposition model composed) {o : Sql.Options}
    (hOn : o.filteredQueries = true) {as : List Artifact} (hAs : Sql.emit o composed = .ok as) :
    Sql.AreQueryFiles o.dialect composed as
      (Sql.queryFiles o.dialect composed composed.structs) := by
  have hPerm := Sql.perm_emit hOn h.structNames hAs
  refine ⟨hPerm, ?_, ?_, ?_⟩
  · intro hNames
    have hTables : (composed.structs.map (Sql.tableFile o.dialect composed)).filter
        (fun a => "_queries.sql".toList <:+ a.path.text.toList) = [] := by
      rw [List.filter_eq_nil_iff]
      intro a ha
      obtain ⟨s, hs, rfl⟩ := List.mem_map.1 ha
      rw [decide_eq_true_eq, Sql.suffix_tableFile_iff]
      exact hNames s.name (List.mem_map_of_mem hs)
    have hFilter := hPerm.filter (fun a => "_queries.sql".toList <:+ a.path.text.toList)
    rw [List.filter_append, List.filter_append, hTables, Sql.filter_queryFiles,
      Sql.filter_schemaFile, List.append_nil, List.nil_append] at hFilter
    exact hFilter
  · unfold Sql.queryFiles
    rw [List.forall₂_map_right_iff, List.forall₂_same]
    intro s hs
    have hs := List.mem_of_mem_filter hs
    obtain ⟨hName, hMembers⟩ := h.isPlain hs
    have hFew := (Sql.emit_isOk_iff hOn h.structNames).1 ⟨as, hAs⟩ s hs
    rw [Sql.queriesByMask_eq hFew]
    exact ⟨rfl, Sql.findsByEverySet_queries hName hMembers (h.nodup_valueNames hs), rfl⟩
  · apply Sql.sum_queryFiles
    intro s hs
    exact ⟨(h.isPlain hs).1, (h.isPlain hs).2, h.nodup_valueNames hs⟩

end SqlComposition

namespace Builtin

variable {bs : List Builtin} {o : Sql.Options}

theorem options_eq_of_mem (hDistinct : (bs.map name).Nodup) (ho : sql o ∈ bs) {o' : Sql.Options}
    (ho' : sql o' ∈ bs) : o' = o := by
  have hSame : sql o' = sql o := List.inj_on_of_nodup_map hDistinct ho' ho rfl
  exact sql.inj hSame

/-- Only SQL can make the emission fail. -/
theorem emit_isOk_iff (hDistinct : (bs.map name).Nodup) (ho : sql o ∈ bs) {model : Model}
    {registry : Registry} :
    (∃ es, (Engine.mk (bs.map generator)).emit model registry = .ok es) ↔
      ∃ as, Sql.emit o model = .ok as := by
  constructor
  · rintro ⟨es, hEs⟩
    obtain ⟨as, has, _⟩ := emit_filter hDistinct hEs ho
    rw [Engine.artifactsOf_eq_emit rfl] at has
    exact ⟨as, has⟩
  · rintro ⟨as, has⟩
    apply Engine.emit_isOk
    intro g hg
    obtain ⟨b, hb, rfl⟩ := List.mem_map.1 hg
    cases b with
    | sql o' =>
      rw [options_eq_of_mem hDistinct ho hb, Engine.artifactsOf_eq_emit rfl]
      exact ⟨as, has⟩
    | jsonSchema => exact artifactsOf_isOk (fun _ h => by cases h) _ model
    | rust => exact artifactsOf_isOk (fun _ h => by cases h) _ model

end Builtin

/-- The filtered queries of a checked schema that is composed with SQL and other generators. Their
count is the number of sets of columns, without the empty set and those with the key, up to the
largest number of 64 bits. They are emitted exactly if no table has more than twenty columns beside
its key, and then the files have one statement for each such set, and no other. -/
theorem filteredQueries_exact {source : String} {files : FileSystem} {model : Model}
    (h : compile source files = .ok model) {bs : List Builtin} {engine : Engine}
    (hBs : Builtin.register bs = .ok engine)
    {o : Sql.Options} (ho : .sql o ∈ bs) (hOn : o.filteredQueries = true) :
    ∃ composed registry, engine.compose model = (composed, .ok registry) ∧
      Sql.queryCount composed =
        min (composed.structs.map (fun s => 2 ^ (Sql.valueMembers composed s).length - 1)).sum
          (2 ^ 64 - 1) ∧
      ((∃ e, Sql.emit o composed = .error e) ↔
        ∃ s ∈ composed.structs, 20 < (Sql.valueMembers composed s).length) ∧
      ((∃ es, engine.emit composed registry = .ok es) ↔
        ∀ s ∈ composed.structs, (Sql.valueMembers composed s).length ≤ 20) ∧
      ∀ es, engine.emit composed registry = .ok es →
        ∃ queryFiles, Sql.AreQueryFiles o.dialect composed
          ((es.filter (fun e => e.generator == "sql")).map (fun e => e.artifact)) queryFiles := by
  obtain ⟨hDistinct, rfl⟩ := Builtin.register_eq_ok_iff.1 hBs
  have hComposition := sqlComposition_of_compile h hDistinct ho
  have hOk := Sql.emit_isOk_iff hOn hComposition.structNames
  refine ⟨Builtin.composed bs model, Builtin.registryOf bs, Builtin.compose_eq_composed bs model,
    Sql.queryCount_eq _, ?_, ?_, ?_⟩
  · rw [← not_iff_not]
    simp only [not_exists, not_and, Nat.not_lt]
    rw [← hOk]
    cases Sql.emit o (Builtin.composed bs model) <;> simp
  · rw [Builtin.emit_isOk_iff hDistinct ho, hOk]
  · intro es hEs
    obtain ⟨as, has, hFiles⟩ := Builtin.emit_filter hDistinct hEs ho
    rw [Engine.artifactsOf_eq_emit rfl] at has
    have hArtifacts := congrArg (List.map (fun e => e.artifact)) hFiles
    rw [List.map_map] at hArtifacts
    exact ⟨_, (hArtifacts.trans (List.map_id as)) ▸ hComposition.areQueryFiles hOn has⟩

/-- Keys that elements get from their holders are columns to look for as well. -/
theorem shop_filteredQueries_exact :
    compile shopSource = .ok shopModel ∧
      ∃ engine, Builtin.register [.jsonSchema, .sql ⟨.postgres, true⟩] = .ok engine ∧
        ∃ composed registry es queryFiles, engine.compose shopModel = (composed, .ok registry) ∧
          Sql.queryCount composed = 5 ∧ engine.emit composed registry = .ok es ∧
          Sql.AreQueryFiles .postgres composed
            ((es.filter (fun e => e.generator == "sql")).map (fun e => e.artifact)) queryFiles ∧
          (queryFiles.map (fun file => (Sql.selects file.contents).length)).sum = 5 ∧
          queryFiles.map (fun file => (file.path.text, Sql.selects file.contents)) =
            [("Shop_queries.sql",
                ["SELECT \"city\", \"id\" FROM \"Shop\" WHERE \"city\" = $1;"]),
              ("Order_queries.sql",
                ["SELECT \"id\", \"ShopId\", \"OrderId\" FROM \"Order\" WHERE \"ShopId\" = $1;",
                  "SELECT \"id\", \"ShopId\", \"OrderId\" FROM \"Order\" WHERE \"OrderId\" = $1;",
                  "SELECT \"id\", \"ShopId\", \"OrderId\" FROM \"Order\" " ++
                    "WHERE \"ShopId\" = $1 AND \"OrderId\" = $2;"]),
              ("City_queries.sql",
                ["SELECT \"TripId\", \"id\" FROM \"City\" WHERE \"TripId\" = $1;"])] := by
  let bs : List Builtin := [.jsonSchema, .sql ⟨.postgres, true⟩]
  have hBs : Builtin.register bs = .ok ⟨bs.map Builtin.generator⟩ :=
    Builtin.register_eq_ok_iff.2 ⟨by decide, rfl⟩
  obtain ⟨composed, registry, hCompose, hCount, -, hOk, hAll⟩ := filteredQueries_exact
    compile_shopSource hBs (List.mem_cons_of_mem _ List.mem_cons_self) rfl
  obtain ⟨rfl, -⟩ := Prod.mk.inj ((Builtin.compose_eq_composed bs shopModel).symm.trans hCompose)
  have hSum : ((Builtin.composed bs shopModel).structs.map (fun s =>
      2 ^ (Sql.valueMembers (Builtin.composed bs shopModel) s).length - 1)).sum = 5 := by
    decide +kernel
  obtain ⟨es, hEs⟩ := hOk.2 (by decide +kernel)
  obtain ⟨queryFiles, hFiles⟩ := hAll es hEs
  have hTexts := map_eq_of_forall₂ (hFiles.each.imp fun s file h =>
    show (s.name ++ "_queries.sql", Sql.selects (Sql.header ++ String.join
        ((Sql.queriesByMask (Builtin.composed bs shopModel) s).map
          (fun q => Sql.renderNamed .postgres q.label q.statement)))) =
      (file.path.text, Sql.selects file.contents) by rw [h.1, ← h.2.2])
  rw [hSum] at hCount
  refine ⟨compile_shopSource, _, hBs, _, _, es, queryFiles, hCompose, hCount, hEs, hFiles,
    hFiles.total.trans hSum, ?_⟩
  -- Lines are told apart by a lemma, since to split a text into lines takes long to compute.
  have hQueries : ∀ s ∈ (Builtin.composed bs shopModel).structs.filter
      (fun s => Sql.valueMembers (Builtin.composed bs shopModel) s ≠ []),
      ∀ q ∈ Sql.queriesByMask (Builtin.composed bs shopModel) s,
        ('\n' ∉ q.label.toList ∧ '\n' ∉ (q.statement.render .postgres).toList) ∧
          "SELECT ".toList <+: (q.statement.render .postgres).toList := by
    decide +kernel
  have hSelects : ∀ s ∈ (Builtin.composed bs shopModel).structs.filter
      (fun s => Sql.valueMembers (Builtin.composed bs shopModel) s ≠ []),
      (s.name ++ "_queries.sql", Sql.selects (Sql.header ++ String.join
        ((Sql.queriesByMask (Builtin.composed bs shopModel) s).map
          (fun q => Sql.renderNamed .postgres q.label q.statement)))) =
      (s.name ++ "_queries.sql", (Sql.queriesByMask (Builtin.composed bs shopModel) s).map
        (fun q => q.statement.render .postgres)) := by
    intro s hs
    rw [Sql.selects_queries (fun q hq => (hQueries s hs q hq).1)
      (fun q hq => (hQueries s hs q hq).2)]
  rw [← hTexts, List.map_congr_left hSelects]
  decide +kernel

end EntitySchema
