import SlabFlux.Pipeline.Ancestors
import Mathlib.Data.List.Sort

/-!
# Bases come before what derives from them

The sorts of the pipeline order names by how many names of the list descend from them.
An ancestor has all the descendants of its descendants and itself besides, so its count
is strictly larger: the order of the lists extends the ancestor relation.  The sorts are
insertion sorts with a total preorder, hence stable permutations of their input.
-/

namespace SlabFlux.Pipeline

variable {Name : Type}
variable {name other : Name} (less : Name → Name → Bool) {names : List Name}

/-! ## Sorting -/

/-- The order in which the sort leaves two names. -/
def precedes (less : Name → Name → Bool) (left right : Name) : Prop :=
  (!less right left) = true

instance (less : Name → Name → Bool) : DecidableRel (precedes less) :=
  fun left right => inferInstanceAs (Decidable ((!less right left) = true))

theorem insertBy_eq_orderedInsert (name : Name) (names : List Name) :
    insertBy less name names = names.orderedInsert (precedes less) name := by
  induction names with
  | nil => rfl
  | cons other rest ih =>
      rw [insertBy, ih]
      rfl

theorem sortBy_eq_insertionSort (names : List Name) :
    sortBy less names = names.insertionSort (precedes less) := by
  induction names with
  | nil => rfl
  | cons name rest ih =>
      rw [sortBy, List.insertionSort_cons, ih, insertBy_eq_orderedInsert]

/-- A sort by key is a permutation of its input. -/
theorem perm_sortBy (names : List Name) : (sortBy less names).Perm names := by
  rw [sortBy_eq_insertionSort]
  exact List.perm_insertionSort _ names

/-- A sort by key keeps the order of two names that it may leave in it. -/
theorem pair_sublist_sortBy {less : Name → Name → Bool} {left right : Name}
    (order : precedes less left right) (inOrder : [left, right].Sublist names) :
    [left, right].Sublist (sortBy less names) := by
  rw [sortBy_eq_insertionSort]
  exact List.pair_sublist_insertionSort order inOrder

/-! ## Type lists -/

theorem concatOnto_eq (joined : List Name) (lists : List (List Name)) :
    concatOnto joined lists = joined ++ lists.flatten := by
  induction lists generalizing joined with
  | nil => simp [concatOnto]
  | cons second rest ih => rw [concatOnto, ih, List.flatten_cons, List.append_assoc]

theorem mem_concat {name : Name} (lists : List (List Name)) :
    name ∈ concat lists ↔ ∃ names ∈ lists, name ∈ names := by
  cases lists with
  | nil => simp [concat]
  | cons first rest => simp [concat, concatOnto_eq]

variable [DecidableEq Name]

theorem contains_iff {name : Name} : contains name names = true ↔ name ∈ names := by
  induction names with
  | nil => simp [contains]
  | cons other rest ih =>
      rw [contains]
      split_ifs with same
      · simp [same]
      · simp [same, ih]

theorem mem_unique {name : Name} : name ∈ unique names ↔ name ∈ names := by
  induction names with
  | nil => rfl
  | cons other rest ih =>
      rw [unique, List.mem_cons, ← ih]
      split_ifs with again
      · constructor
        · exact Or.inr
        · rintro (rfl | inRest)
          · exact contains_iff.mp again
          · exact inRest
      · exact List.mem_cons

theorem nodup_unique (names : List Name) : (unique names).Nodup := by
  induction names with
  | nil => exact List.nodup_nil
  | cons other rest ih =>
      rw [unique]
      split_ifs with again
      · exact ih
      · exact List.nodup_cons.mpr ⟨fun member => again (contains_iff.mpr member), ih⟩

namespace Hierarchy

variable (hierarchy : Hierarchy Name) {comesFirst : Nat → Nat → Bool}

/-- A comparison of numbers that orders any two different ones. -/
structure Strict (comesFirst : Nat → Nat → Bool) : Prop where
  irrefl : ∀ number, comesFirst number number = false
  trans : ∀ first second third, comesFirst first second = true →
    comesFirst second third = true → comesFirst first third = true
  connected : ∀ first second, comesFirst first second = false →
    comesFirst second first = false → first = second

theorem strict_greater : Strict fun left right => decide (left > right) where
  irrefl number := by simp
  trans first second third := by
    simp only [decide_eq_true_eq]
    omega
  connected first second := by
    simp only [decide_eq_false_iff_not]
    omega

theorem strict_less : Strict fun left right => decide (left < right) where
  irrefl number := by simp
  trans first second third := by
    simp only [decide_eq_true_eq]
    omega
  connected first second := by
    simp only [decide_eq_false_iff_not]
    omega

/-- What the sort's order says of two names. -/
theorem precedes_keyLess_iff (strict : Strict comesFirst) (names : List Name) (left right : Name) :
    precedes (hierarchy.keyLess comesFirst names) left right ↔
      comesFirst (hierarchy.descendantCountIn left names)
          (hierarchy.descendantCountIn right names) = true ∨
        hierarchy.descendantCountIn left names = hierarchy.descendantCountIn right names ∧
          (hierarchy.descendantCountIn left names ≤ 2 →
            hierarchy.effectivePriority left ≤ hierarchy.effectivePriority right) := by
  unfold precedes keyLess
  generalize hierarchy.descendantCountIn left names = leftCount
  generalize hierarchy.descendantCountIn right names = rightCount
  by_cases backward : comesFirst rightCount leftCount = true
  · have notForward : comesFirst leftCount rightCount = false := by
      by_contra forward
      rw [Bool.not_eq_false] at forward
      have loop := strict.trans _ _ _ forward backward
      rw [strict.irrefl] at loop
      cases loop
    have different : leftCount ≠ rightCount := by
      rintro rfl
      rw [strict.irrefl] at backward
      cases backward
    simp [backward, notForward, different]
  · rw [if_neg backward]
    by_cases forward : comesFirst leftCount rightCount = true
    · simp [forward]
    · have same : leftCount = rightCount :=
        strict.connected _ _ (Bool.not_eq_true _ ▸ forward) (Bool.not_eq_true _ ▸ backward)
      subst same
      by_cases small : leftCount ≤ 2
      · simp [strict.irrefl, small]
      · simp [strict.irrefl, small]

theorem total_keyLess (strict : Strict comesFirst) (names : List Name) :
    Std.Total (precedes (hierarchy.keyLess comesFirst names)) := by
  constructor
  intro left right
  rw [precedes_keyLess_iff _ strict, precedes_keyLess_iff _ strict]
  by_cases forward : comesFirst (hierarchy.descendantCountIn left names)
      (hierarchy.descendantCountIn right names) = true
  · exact Or.inl (Or.inl forward)
  · by_cases backward : comesFirst (hierarchy.descendantCountIn right names)
        (hierarchy.descendantCountIn left names) = true
    · exact Or.inr (Or.inl backward)
    · have same := strict.connected _ _ (Bool.not_eq_true _ ▸ forward)
        (Bool.not_eq_true _ ▸ backward)
      rcases BitVec.le_total (hierarchy.effectivePriority left)
        (hierarchy.effectivePriority right) with order | order
      · exact Or.inl (Or.inr ⟨same, fun _ => order⟩)
      · exact Or.inr (Or.inr ⟨same.symm, fun _ => order⟩)

theorem trans_keyLess (strict : Strict comesFirst) (names : List Name) :
    IsTrans Name (precedes (hierarchy.keyLess comesFirst names)) := by
  constructor
  intro first second third
  rw [precedes_keyLess_iff _ strict, precedes_keyLess_iff _ strict, precedes_keyLess_iff _ strict]
  rintro (before | ⟨same, order⟩) (before' | ⟨same', order'⟩)
  · exact Or.inl (strict.trans _ _ _ before before')
  · exact Or.inl (same' ▸ before)
  · exact Or.inl (same ▸ before')
  · exact Or.inr ⟨same.trans same', fun small =>
      BitVec.le_trans (order small) (order' (same ▸ small))⟩

/-- A sort by key leaves no name behind one that should follow it. -/
theorem pairwise_sortBy (strict : Strict comesFirst) (names : List Name) :
    (sortBy (hierarchy.keyLess comesFirst names) names).Pairwise
      (precedes (hierarchy.keyLess comesFirst names)) := by
  have := hierarchy.total_keyLess strict names
  have := hierarchy.trans_keyLess strict names
  rw [sortBy_eq_insertionSort]
  exact List.pairwise_insertionSort _ names

/-! ## Ancestors -/

/-- A name is reached from another one over its parents. -/
def IsAncestor (hierarchy : Hierarchy Name) : Name → Name → Prop :=
  Relation.ReflTransGen fun parent child => parent ∈ hierarchy.parentsOf child

/-- A name is reached from another one over at least one parent. -/
def IsProperAncestor (hierarchy : Hierarchy Name) : Name → Name → Prop :=
  Relation.TransGen fun parent child => parent ∈ hierarchy.parentsOf child

theorem mem_ancestors (name other : Name) :
    name ∈ hierarchy.ancestors other ↔ hierarchy.IsAncestor name other := by
  induction other using hierarchy.wellFounded.induction with
  | _ other ih =>
      unfold IsAncestor at ih ⊢
      rw [Relation.ReflTransGen.cases_tail_iff, ancestors]
      split_ifs with orphan
      · have none : hierarchy.parentsOf other = [] := List.length_eq_zero_iff.mp orphan
        simp [none, eq_comm]
      · have expanded : name ∈ unique (concat [[other], concat ((hierarchy.parentsOf
            other).attach.map fun parent => hierarchy.ancestors parent.1)]) ↔
            name = other ∨ ∃ parent ∈ hierarchy.parentsOf other,
              name ∈ hierarchy.ancestors parent := by
          rw [mem_unique]
          simp [mem_concat]
        rw [expanded, eq_comm]
        refine or_congr_right (exists_congr fun parent => ?_)
        rw [and_comm]
        exact and_congr_left fun declared => ih parent declared

theorem isAncestorOf_iff :
    hierarchy.isAncestorOf name other = true ↔ hierarchy.IsAncestor name other := by
  rw [isAncestorOf, contains_iff, mem_ancestors]

theorem nodup_ancestors (name : Name) : (hierarchy.ancestors name).Nodup := by
  rw [ancestors]
  split_ifs
  · exact List.nodup_singleton name
  · exact nodup_unique _

omit [DecidableEq Name] in
/-- No name is its own proper ancestor. -/
theorem not_isProperAncestor_self (name : Name) : ¬hierarchy.IsProperAncestor name name :=
  fun loop => hierarchy.wellFounded.transGen.asymmetric name name loop loop

theorem descendantCountIn_eq_countP (name : Name) (names : List Name) :
    hierarchy.descendantCountIn name names = names.countP (hierarchy.isAncestorOf name) := by
  induction names with
  | nil => rfl
  | cons first rest ih => rw [descendantCountIn, ih, List.countP_cons, Nat.add_comm]

/-- The descendants of a name in a list are those of its descendants and more. -/
theorem descendantCountIn_le (above : hierarchy.IsAncestor name other) (names : List Name) :
    hierarchy.descendantCountIn other names ≤ hierarchy.descendantCountIn name names := by
  rw [descendantCountIn_eq_countP, descendantCountIn_eq_countP]
  apply List.countP_mono_left
  intro first _
  rw [isAncestorOf_iff, isAncestorOf_iff]
  exact above.trans

/-- A proper ancestor that is in the list counts itself besides. -/
theorem descendantCountIn_lt (above : hierarchy.IsProperAncestor name other)
    (listed : name ∈ names) :
    hierarchy.descendantCountIn other names < hierarchy.descendantCountIn name names := by
  have notBelow : ¬hierarchy.isAncestorOf other name = true := by
    rw [isAncestorOf_iff]
    intro below
    exact hierarchy.not_isProperAncestor_self name (above.trans_left below)
  have itself : hierarchy.isAncestorOf name name = true :=
    (hierarchy.isAncestorOf_iff).mpr .refl
  obtain ⟨before, after, rfl⟩ := List.append_of_mem listed
  have front := hierarchy.descendantCountIn_le above.to_reflTransGen before
  have back := hierarchy.descendantCountIn_le above.to_reflTransGen after
  simp only [descendantCountIn_eq_countP] at front back ⊢
  rw [List.countP_append, List.countP_append, List.countP_cons_of_neg notBelow,
    List.countP_cons_of_pos itself]
  omega

/-! ## The lists of the pipeline -/

/-- The list holds the given names once each, every name before those that derive from
it. -/
structure LinearExtension (isMember : Name → Prop) (names : List Name) : Prop where
  nodup : names.Nodup
  mem_iff : ∀ name, name ∈ names ↔ isMember name
  ordered : names.Pairwise fun earlier later => ¬hierarchy.IsProperAncestor later earlier

/-- Neither the counts nor the priority rule tell the two names apart. -/
def Tied (names : List Name) (left right : Name) : Prop :=
  hierarchy.descendantCountIn left names = hierarchy.descendantCountIn right names ∧
    (hierarchy.descendantCountIn left names ≤ 2 →
      hierarchy.effectivePriority left = hierarchy.effectivePriority right)

theorem ordered_topoSort (names : List Name) :
    (hierarchy.topoSort names).Pairwise
      fun earlier later => ¬hierarchy.IsProperAncestor later earlier := by
  refine (hierarchy.pairwise_sortBy strict_greater names).imp_of_mem ?_
  intro earlier later _ laterIn order above
  have listed := (perm_sortBy _ names).mem_iff.mp laterIn
  have fewer := hierarchy.descendantCountIn_lt above listed
  rw [precedes_keyLess_iff _ strict_greater, decide_eq_true_eq] at order
  omega

theorem ordered_leafTopoSort (names : List Name) :
    (hierarchy.leafTopoSort names).Pairwise
      fun earlier later => ¬hierarchy.IsProperAncestor earlier later := by
  refine (hierarchy.pairwise_sortBy strict_less names).imp_of_mem ?_
  intro earlier later earlierIn _ order above
  have listed := (perm_sortBy _ names).mem_iff.mp earlierIn
  have fewer := hierarchy.descendantCountIn_lt above listed
  rw [precedes_keyLess_iff _ strict_less, decide_eq_true_eq] at order
  omega

theorem precedes_of_tied (strict : Strict comesFirst) {left right : Name}
    (tied : hierarchy.Tied names left right) :
    precedes (hierarchy.keyLess comesFirst names) left right := by
  rw [precedes_keyLess_iff _ strict]
  exact Or.inr ⟨tied.1, fun small => BitVec.le_of_eq (tied.2 small)⟩

/-- The sort of a list without repetitions. -/
theorem linearExtension_topoSort (nodup : names.Nodup) :
    hierarchy.LinearExtension (· ∈ names) (hierarchy.topoSort names) where
  nodup := (perm_sortBy _ names).nodup_iff.mpr nodup
  mem_iff _ := (perm_sortBy _ names).mem_iff
  ordered := hierarchy.ordered_topoSort names

theorem linearExtension_ancestors (name : Name) :
    hierarchy.LinearExtension (hierarchy.IsAncestor · name)
      (hierarchy.topoSort (hierarchy.ancestors name)) :=
  { hierarchy.linearExtension_topoSort (hierarchy.nodup_ancestors name) with
    mem_iff := fun _ => (perm_sortBy _ _).mem_iff.trans (hierarchy.mem_ancestors _ name) }

theorem linearExtension_handlerList (handlers : List Name) :
    hierarchy.LinearExtension (fun name => ∃ handler ∈ handlers,
      hierarchy.IsAncestor name handler) (hierarchy.handlerList handlers) :=
  { hierarchy.linearExtension_topoSort (nodup_unique _) with
    mem_iff := by
      intro name
      refine (perm_sortBy _ _).mem_iff.trans ?_
      rw [mem_unique, mem_concat]
      constructor
      · rintro ⟨names, isDag, listed⟩
        obtain ⟨handler, isHandler, rfl⟩ := List.mem_map.mp isDag
        exact ⟨handler, isHandler, ((hierarchy.linearExtension_ancestors handler).mem_iff
          name).mp listed⟩
      · rintro ⟨handler, isHandler, above⟩
        exact ⟨_, List.mem_map.mpr ⟨handler, isHandler, rfl⟩,
          ((hierarchy.linearExtension_ancestors handler).mem_iff name).mpr above⟩ }

/-- The event and handler lists of the pipeline are linear extensions of the ancestor
relation, the leaf-first sort gives the reverse order, and both sorts keep the order of
tied names. -/
theorem lists_extend_ancestry :
    (∀ event, hierarchy.LinearExtension (hierarchy.IsAncestor · event) (hierarchy.eventDag event)) ∧
    (∀ handler, hierarchy.LinearExtension (hierarchy.IsAncestor · handler)
      (hierarchy.handlerDag handler)) ∧
    (∀ handlers, hierarchy.LinearExtension (fun name => ∃ handler ∈ handlers,
      hierarchy.IsAncestor name handler) (hierarchy.handlerList handlers)) ∧
    (∀ names, (hierarchy.leafTopoSort names).Perm names ∧ (hierarchy.leafTopoSort names).Pairwise
        fun earlier later => ¬hierarchy.IsProperAncestor earlier later) ∧
    ∀ (names : List Name) (left right : Name), hierarchy.Tied names left right →
      [left, right].Sublist names →
      [left, right].Sublist (hierarchy.topoSort names) ∧
        [left, right].Sublist (hierarchy.leafTopoSort names) :=
  ⟨hierarchy.linearExtension_ancestors, hierarchy.linearExtension_ancestors,
    hierarchy.linearExtension_handlerList,
    fun names => ⟨perm_sortBy _ names, hierarchy.ordered_leafTopoSort names⟩,
    fun _ _ _ tied inOrder =>
      ⟨pair_sublist_sortBy (hierarchy.precedes_of_tied strict_greater tied) inOrder,
        pair_sublist_sortBy (hierarchy.precedes_of_tied strict_less tied) inOrder⟩⟩

def diamondParents (child : Fin 4) : List (Fin 4) :=
  let top : Fin 4 := ⟨0, Nat.zero_lt_succ 3⟩
  let left : Fin 4 := ⟨1, Nat.succ_lt_succ (Nat.zero_lt_succ 2)⟩
  let right : Fin 4 := ⟨2, Nat.succ_lt_succ (Nat.succ_lt_succ (Nat.zero_lt_succ 1))⟩
  match child.val with
  | 0 => []
  | 1 => [top]
  | 2 => [top]
  | _ => [left, right, left]

theorem wellFounded_diamondParents :
    WellFounded fun parent child => parent ∈ diamondParents child :=
  Subrelation.wf (r := (· < ·))
    (by
      intro parent child declared
      revert parent child
      decide)
    wellFounded_lt

/-- A diamond whose lower corner names one of its parents twice. -/
def diamond : Hierarchy (Fin 4) where
  parentsOf := diamondParents
  declaredPriority := fun _ => none
  wellFounded := wellFounded_diamondParents

theorem lists_extend_ancestry_diamond :
    diamond.LinearExtension (diamond.IsAncestor · 3) (diamond.eventDag 3) ∧
      diamond.Tied [1, 2] 1 2 ∧ [1, 2].Sublist (diamond.topoSort [1, 2]) :=
  have root : diamond.ancestors 0 = [0] := by
    rw [ancestors]
    rfl
  have left : diamond.ancestors 1 = [1, 0] := by
    rw [ancestors]
    change unique (concat [[1], concat [diamond.ancestors 0]]) = _
    rw [root]
    decide
  have right : diamond.ancestors 2 = [2, 0] := by
    rw [ancestors]
    change unique (concat [[2], concat [diamond.ancestors 0]]) = _
    rw [root]
    decide
  have tied : diamond.Tied [1, 2] 1 2 := by
    simp only [Tied, descendantCountIn, isAncestorOf, left, right]
    decide
  ⟨(lists_extend_ancestry diamond).1 3, tied,
    ((lists_extend_ancestry diamond).2.2.2.2 [1, 2] 1 2 tied (.refl _)).1⟩

end Hierarchy

end SlabFlux.Pipeline
