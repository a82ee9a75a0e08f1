import SlabFlux.Pipeline.CallPlan

/-!
# Halting a dispatch

The dispatcher looks at the flag before each handler and before each context, but not
before the fallback of a base: after a handler has halted, its signatures without
context are still called for the later bases of the event.  And where the branch is
chosen by a signature that returns nothing, the overload that is called may be another
one, whose result is then lost.
-/

namespace SlabFlux.Pipeline

open Hierarchy

variable {Name : Type} [DecidableEq Name]

namespace Program

variable (program : Program Name)

/-! ## The plan of a dispatch -/

/-- The call `signature_invoke` makes in a branch. -/
def plannedCall (constEvent : Bool) (handler event : Name) (context : Option Name)
    (looksAtResult : Bool) : Option (Planned Name) :=
  (program.signatureInvoke constEvent handler event context).map fun selected =>
    { call := ⟨handler, event, selected.1⟩
      effect :=
        match selected.2, looksAtResult with
        | .void, _ => .quiet
        | .bool, true => .halting
        | .bool, false => .dropped }

/-- The branch a context matches in, and whether it looks at the result. -/
def contextBranch (vault : Vault Name) (handler event context : Name) : Option Bool :=
  if program.canExtract vault context then
    if program.contextBool handler event context then some true
    else if program.contextVoid handler event context then some false
    else none
  else none

/-- The contexts that match, with the branch they match in. -/
def matchingContexts (vault : Vault Name) (contexts : List Name) (handler event : Name) :
    List (Name × Bool) :=
  contexts.filterMap fun context =>
    (program.contextBranch vault handler event context).map (context, ·)

/-- The calls of the fold over the contexts. -/
def contextPlan (constEvent : Bool) (vault : Vault Name) (contexts : List Name)
    (handler event : Name) : List (Planned Name) :=
  (program.matchingContexts vault contexts handler event).filterMap fun selected =>
    program.plannedCall constEvent handler event (some selected.1) selected.2

/-- The call of the fallback. -/
def fallbackPlan (constEvent : Bool) (handler event : Name) : List (Planned Name) :=
  match program.fallbackBranch handler event with
  | none => []
  | some looksAtResult =>
      (program.plannedCall constEvent handler event none looksAtResult).toList

/-- The calls of `try_invoke_exact`. -/
def site (constEvent : Bool) (vault : Vault Name) (contexts : List Name)
    (handler event : Name) : Site Name where
  main :=
    if program.matchingContexts vault contexts handler event = [] then
      program.fallbackPlan constEvent handler event
    else program.contextPlan constEvent vault contexts handler event
  fallback := program.fallbackPlan constEvent handler event

/-- The calls of a dispatch, handler by handler and base by base. -/
def groups (phase : Name) (handlers : List Name) (vault : Vault Name) (event : Name)
    (constEvent : Bool) : List (List (Site Name)) :=
  let events := program.hierarchy.eventDag event
  let contexts := program.expandTypelistAncestors (program.deriveContextList events)
  (program.hierarchy.handlerList handlers).map fun handler =>
    if program.accepts phase handler then
      events.map (program.site constEvent vault contexts handler)
    else []

/-! ## Running it -/

variable {progress : Progress Name}

omit [DecidableEq Name] in
theorem invokeBranch_eq (answers : Answers Name) (constEvent : Bool) (handler event : Name)
    (context : Option Name) (looksAtResult : Bool) (progress : Progress Name) :
    program.invokeBranch answers constEvent handler event context looksAtResult progress =
      match program.plannedCall constEvent handler event context looksAtResult with
      | none => progress
      | some planned => planned.run answers progress := by
  unfold invokeBranch invoke plannedCall
  cases program.signatureInvoke constEvent handler event context with
  | none => simp
  | some selected =>
      obtain ⟨overload, returned⟩ := selected
      cases returned with
      | void => simp [Planned.run]
      | bool =>
          cases looksAtResult with
          | false => simp [Planned.run]
          | true =>
              cases answer : answers progress.calls ⟨handler, event, overload⟩ with
              | false => simp [Planned.run, answer]
              | true => simp [Planned.run, answer]

section

variable (answers : Answers Name) (constEvent : Bool) (vault : Vault Name)
include answers constEvent vault

theorem foldContexts_cons (handler event context : Name) (rest : List Name) (matched : Bool)
    (running : progress.halted = false) :
    program.foldContexts answers constEvent vault handler event (context :: rest)
        (progress, matched) =
      program.foldContexts answers constEvent vault handler event rest
        (match program.contextBranch vault handler event context with
        | none => (progress, matched)
        | some looksAtResult =>
            (program.invokeBranch answers constEvent handler event (some context)
              looksAtResult progress, true)) := by
  rw [foldContexts, if_neg (by simp [running]), contextBranch]
  split_ifs <;> rfl

/-- The fold runs the plan of the contexts; a halted dispatch stays as it is. -/
theorem foldContexts_eq (handler event : Name) (contexts : List Name) (progress : Progress Name)
    (matched : Bool) (running : progress.halted = false ∨ matched = true) :
    program.foldContexts answers constEvent vault handler event contexts (progress, matched) =
      (runGuarded answers (program.contextPlan constEvent vault contexts handler event) progress,
      matched || !(program.matchingContexts vault contexts handler event).isEmpty) := by
  induction contexts generalizing progress matched with
  | nil => simp [foldContexts, contextPlan, matchingContexts, runGuarded]
  | cons context rest ih =>
      by_cases halted : progress.halted = true
      · have isMatched : matched = true := running.resolve_left (by simp [halted])
        rw [foldContexts, if_pos halted, runGuarded_of_halted _ _ halted, isMatched, Bool.true_or]
      · have stillRunning : progress.halted = false := Bool.not_eq_true _ ▸ halted
        rw [program.foldContexts_cons _ _ _ _ _ _ _ _ stillRunning]
        cases branch : program.contextBranch vault handler event context with
        | none =>
            rw [ih progress matched running]
            simp [contextPlan, matchingContexts, branch]
        | some looksAtResult =>
            rw [ih _ true (Or.inr rfl), invokeBranch_eq]
            cases planned : program.plannedCall constEvent handler event (some context)
                looksAtResult with
            | none => simp [contextPlan, matchingContexts, branch, planned]
            | some call =>
                simp [contextPlan, matchingContexts, branch, planned, runGuarded, halted]

theorem foldContexts_of_halted (handler event : Name) (contexts : List Name) (matched : Bool)
    (halted : progress.halted = true) :
    program.foldContexts answers constEvent vault handler event contexts (progress, matched) =
      (progress, matched) := by
  cases contexts with
  | nil => rfl
  | cons => rw [foldContexts, if_pos halted]

end

omit [DecidableEq Name] in
theorem fallback_eq (answers : Answers Name) (constEvent : Bool) (handler event : Name)
    (progress : Progress Name) :
    (match program.fallbackBranch handler event with
      | none => progress
      | some looksAtResult =>
          program.invokeBranch answers constEvent handler event none looksAtResult progress) =
      (program.fallbackPlan constEvent handler event).foldl
        (fun progress planned => planned.run answers progress) progress := by
  unfold fallbackPlan
  cases program.fallbackBranch handler event with
  | none => rfl
  | some looksAtResult =>
      dsimp only
      rw [invokeBranch_eq]
      cases program.plannedCall constEvent handler event none looksAtResult with
      | none => rfl
      | some planned => rfl

omit [DecidableEq Name] in
/-- The fallback makes at most one call. -/
theorem runGuarded_fallbackPlan (answers : Answers Name) (constEvent : Bool) (handler event : Name)
    (running : progress.halted = false) :
    runGuarded answers (program.fallbackPlan constEvent handler event) progress =
      (program.fallbackPlan constEvent handler event).foldl
        (fun progress planned => planned.run answers progress) progress := by
  unfold fallbackPlan
  cases program.fallbackBranch handler event with
  | none => rfl
  | some looksAtResult =>
      dsimp only
      cases program.plannedCall constEvent handler event none looksAtResult with
      | none => rfl
      | some planned => simp [runGuarded, running]

section

variable (answers : Answers Name) (constEvent : Bool) (vault : Vault Name)
include answers constEvent vault

/-- `try_invoke_exact` runs the plan of its base. -/
theorem tryInvokeExact_eq (contexts : List Name) (handler event : Name) (progress : Progress Name) :
    program.tryInvokeExact answers constEvent vault contexts handler event progress =
      (program.site constEvent vault contexts handler event).run answers progress := by
  unfold tryInvokeExact Site.run site
  by_cases halted : progress.halted = true
  · rw [program.foldContexts_of_halted _ _ _ _ _ _ _ halted, if_pos halted]
    exact program.fallback_eq answers constEvent handler event progress
  · have running : progress.halted = false := Bool.not_eq_true _ ▸ halted
    rw [program.foldContexts_eq _ _ _ _ _ _ _ _ (Or.inl running), if_neg halted]
    by_cases none : program.matchingContexts vault contexts handler event = []
    · have noPlan : program.contextPlan constEvent vault contexts handler event = [] := by
        rw [contextPlan, none, List.filterMap_nil]
      rw [if_pos none, program.runGuarded_fallbackPlan _ _ _ _ running, noPlan, none]
      exact program.fallback_eq answers constEvent handler event progress
    · simp [none]

/-- Where a handler is not compatible, there is nothing to call. -/
theorem run_of_not_compatible (contexts : List Name) (handler event : Name)
    (progress : Progress Name)
    (incompatible : ¬program.isHandlerCompatible vault contexts handler event = true) :
    (program.site constEvent vault contexts handler event).run answers progress = progress := by
  unfold isHandlerCompatible at incompatible
  rw [Bool.or_eq_true, not_or] at incompatible
  obtain ⟨noMatch, noFree⟩ := incompatible
  have noContext : program.matchingContexts vault contexts handler event = [] := by
    refine List.filterMap_eq_nil_iff.mpr fun context member => ?_
    have unmatched : ¬(program.canExtract vault context && (program.contextBool handler event
        context || program.contextVoid handler event context)) = true :=
      fun isMatch => noMatch (List.any_eq_true.mpr ⟨context, member, isMatch⟩)
    rw [contextBranch]
    split_ifs with extract bool void
    · exact absurd (by simp [extract, bool]) unmatched
    · exact absurd (by simp [extract, void]) unmatched
    · rfl
    · rfl
  have noFallback : program.fallbackPlan constEvent handler event = [] := by
    simp only [Bool.or_eq_true, not_or, Bool.not_eq_true] at noFree
    simp [fallbackPlan, fallbackBranch, noFree]
  unfold Site.run site
  rw [noFallback]
  split_ifs <;> rfl

theorem unrollEventDag_eq (contexts : List Name) (handler : Name) (events : List Name)
    (progress : Progress Name) :
    program.unrollEventDag answers constEvent vault contexts handler events progress =
      runSites answers (events.map (program.site constEvent vault contexts handler))
        progress := by
  induction events generalizing progress with
  | nil => rfl
  | cons event rest ih =>
      rw [unrollEventDag, List.map_cons, runSites, ih]
      split_ifs with compatible
      · rw [tryInvokeExact_eq]
      · rw [program.run_of_not_compatible _ _ _ _ _ _ _ compatible]

end

theorem dispatchImpl_eq (answers : Answers Name) (phase : Name) (handlers : List Name)
    (vault : Vault Name) (event : Name) (constEvent : Bool) :
    program.dispatchImpl answers phase handlers vault event constEvent =
      runGroups answers (program.groups phase handlers vault event constEvent)
        { halted := false, calls := [] } := by
  unfold dispatchImpl groups
  generalize ({ halted := false, calls := [] } : Progress Name) = progress
  induction program.hierarchy.handlerList handlers generalizing progress with
  | nil => rfl
  | cons handler rest ih =>
      rw [unrollPipeline, List.map_cons, runGroups, ih]
      by_cases accepted : program.accepts phase handler = true
      · rw [if_pos accepted, if_pos accepted, unrollEventDag_eq]
      · rw [if_neg accepted, if_neg accepted]
        rfl

/-! ## The halting law -/

/-- Whatever the handlers return, no call of a dispatch comes after one that returned
true, if and only if: a handler that can halt at a base of the event has no signature
without context that would be called for a later base, and a call whose result is not
looked at is the last one of the dispatch. -/
theorem dispatch_halts_iff (phase : Name) (handlers : List Name) (vault : Vault Name)
    (event : Name) (constEvent : Bool) :
    (∀ answers, HaltsLast
      (program.dispatchImpl answers phase handlers vault event constEvent).calls) ↔
      HaltSafe (program.groups phase handlers vault event constEvent) := by
  simp only [dispatchImpl_eq]
  exact haltsLast_iff _

end Program

/-- An event type 1 with the base 0, and a handler 2. -/
def derivedEvent : Hierarchy (Fin 4) where
  parentsOf := fun name => if name = 1 then [0] else []
  declaredPriority := fun _ => none
  wellFounded := Subrelation.wf (r := (· < ·))
    (by
      intro parent child declared
      revert parent child
      decide)
    wellFounded_lt

/-- The handler takes both event types by reference and returns a bool. -/
def haltingTwice : Program (Fin 4) where
  hierarchy := derivedEvent
  on := fun handler event overload =>
    if handler = 2 ∧ event ≤ 1 ∧ overload = .free .ref then some .bool else none
  contextType := fun _ => []
  isBaseOf := fun _ _ => false
  phaseTag := fun _ => none
  hasPhaseParam := fun _ => false

/-- The handler halts the dispatch for the base, and is called again for the derived
type. -/
theorem dispatch_goes_on :
    ¬HaltsLast (haltingTwice.dispatchImpl (fun _ _ => true) 3 [2] .null 1 false).calls := by
  have base : derivedEvent.ancestors 0 = [0] := by
    rw [ancestors]
    rfl
  have derived : derivedEvent.ancestors 1 = [1, 0] := by
    rw [ancestors]
    change unique (concat [[1], concat [derivedEvent.ancestors 0]]) = _
    rw [base]
    decide
  have handler : derivedEvent.ancestors 2 = [2] := by
    rw [ancestors]
    rfl
  have events : derivedEvent.eventDag 1 = [0, 1] := by
    rw [eventDag]
    simp only [topoSort, sortBy, insertBy, topoLess, keyLess,
      descendantCountIn, isAncestorOf, base, derived]
    decide
  have handlers : derivedEvent.handlerList [2] = [2] := by
    simp only [handlerList, handlerDag, List.map_cons, List.map_nil, handler]
    rfl
  have calls : (haltingTwice.dispatchImpl (fun _ _ => true) 3 [2] .null 1 false).calls =
      [(⟨2, 0, .free .ref⟩, true), (⟨2, 1, .free .ref⟩, true)] := by
    unfold Program.dispatchImpl
    rw [show haltingTwice.hierarchy = derivedEvent from rfl, events, handlers]
    decide
  rw [calls]
  intro law
  exact absurd (law [] _ _ rfl) (List.cons_ne_nil _ _)

end SlabFlux.Pipeline
