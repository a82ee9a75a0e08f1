import Mathlib.Data.Fintype.Card

/-!
# Type lists and ancestor expansion

The compile-time part of the pipeline: type lists, the ancestors of an event or a
handler, and the insertion sorts that order them.  A C++ type is a name; the parents of
each name are declared, and no name is its own ancestor.
-/

namespace SlabFlux.Pipeline

variable {Name : Type} [DecidableEq Name]

/-! ## Type lists -/

/-- `contains_v`. -/
def contains (name : Name) : List Name → Bool
  | [] => false
  | other :: rest => if name = other then true else contains name rest

/-- `concat_t` with a list that is already joined. -/
def concatOnto (joined : List Name) : List (List Name) → List Name
  | [] => joined
  | second :: rest => concatOnto (joined ++ second) rest

/-- `concat_t`: the second list is joined to the first until one list is left. -/
def concat : List (List Name) → List Name
  | [] => []
  | first :: rest => concatOnto first rest

/-- `unique_t`: a name is dropped if it comes again. -/
def unique : List Name → List Name
  | [] => []
  | name :: rest =>
      let tailUnique := unique rest
      if contains name tailUnique then tailUnique else name :: tailUnique

/-! ## Ancestors -/

/-- The declarations the expansion reads: the parents of each name, and its priority if
it has one. -/
structure Hierarchy (Name : Type) where
  parentsOf : Name → List Name
  declaredPriority : Name → Option (BitVec 64)
  wellFounded : WellFounded fun parent child => parent ∈ parentsOf child

namespace Hierarchy

/-- Every acyclic declaration of finitely many names. -/
def ofAcyclic [Finite Name] (parentsOf : Name → List Name)
    (declaredPriority : Name → Option (BitVec 64))
    (acyclic : ∀ name,
      ¬Relation.TransGen (fun parent child => parent ∈ parentsOf child) name name) :
    Hierarchy Name where
  parentsOf := parentsOf
  declaredPriority := declaredPriority
  wellFounded := by
    have irreflexive : Std.Irrefl
        (Relation.TransGen fun parent child => parent ∈ parentsOf child) := ⟨acyclic⟩
    have closure : WellFounded
        (Relation.TransGen fun parent child => parent ∈ parentsOf child) :=
      Finite.wellFounded_of_trans_of_irrefl _
    exact Subrelation.wf (fun declared => Relation.TransGen.single declared) closure

variable (hierarchy : Hierarchy Name)

/-- `ancestors_t`. -/
def ancestors (name : Name) : List Name :=
  if (hierarchy.parentsOf name).length = 0 then [name]
  else
    let parentAncestors :=
      concat ((hierarchy.parentsOf name).attach.map fun parent => ancestors parent.1)
    unique (concat [[name], parentAncestors])
termination_by hierarchy.wellFounded.wrap name
decreasing_by exact parent.2

/-- `is_ancestor_of_v`. -/
def isAncestorOf (name other : Name) : Bool := contains name (hierarchy.ancestors other)

def descendantCountIn (name : Name) : List Name → Nat
  | [] => 0
  | other :: rest =>
      (if hierarchy.isAncestorOf name other then 1 else 0) + descendantCountIn name rest

/-- `effective_priority`: a name without a priority has the largest number. -/
def effectivePriority (name : Name) : BitVec 64 :=
  (hierarchy.declaredPriority name).getD (BitVec.allOnes 64)

/-! ## Sorting -/

/-- The comparison the two sorts share: by the number of descendants in the list, and
for equal numbers up to two by priority. -/
def keyLess (comesFirst : Nat → Nat → Bool) (names : List Name) (left right : Name) : Bool :=
  let leftCount := hierarchy.descendantCountIn left names
  let rightCount := hierarchy.descendantCountIn right names
  if comesFirst leftCount rightCount then true
  else if comesFirst rightCount leftCount then false
  else if leftCount ≤ 2 then
    decide (hierarchy.effectivePriority left < hierarchy.effectivePriority right)
  else false

def topoLess (names : List Name) : Name → Name → Bool :=
  hierarchy.keyLess (fun left right => decide (left > right)) names

def leafTopoLess (names : List Name) : Name → Name → Bool :=
  hierarchy.keyLess (fun left right => decide (left < right)) names

end Hierarchy

/-- The insertion the two sorts share. -/
def insertBy (less : Name → Name → Bool) (name : Name) : List Name → List Name
  | [] => [name]
  | other :: rest =>
      if !less other name then name :: other :: rest
      else other :: insertBy less name rest

/-- The sort around it: the tail is sorted first. -/
def sortBy (less : Name → Name → Bool) : List Name → List Name
  | [] => []
  | name :: rest => insertBy less name (sortBy less rest)

namespace Hierarchy

variable (hierarchy : Hierarchy Name)

/-- `topo_sort_t`. -/
def topoSort (names : List Name) : List Name := sortBy (hierarchy.topoLess names) names

/-- `leaf_topo_sort_t`. -/
def leafTopoSort (names : List Name) : List Name :=
  sortBy (hierarchy.leafTopoLess names) names

/-- `event_dag_t`. -/
def eventDag (event : Name) : List Name := hierarchy.topoSort (hierarchy.ancestors event)

/-- `handler_dag_t`. -/
def handlerDag (handler : Name) : List Name :=
  hierarchy.topoSort (hierarchy.ancestors handler)

/-- `handler_list` of `dispatch_impl`. -/
def handlerList (handlers : List Name) : List Name :=
  hierarchy.topoSort (unique (concat (handlers.map hierarchy.handlerDag)))

end Hierarchy

end SlabFlux.Pipeline
