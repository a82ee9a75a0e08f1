import SlabFlux.Pipeline.Halting
import SlabFlux.Pipeline.Ordering

/-!
# How often a handler without context is called

In a dispatch that nobody halts every planned call is made.  A signature that takes the
event by reference is in the plan once.  One that takes it by pointer passes the traits
of every context, because these do not look at the context, and is in the plan once for
each context the vault can supply.
-/

namespace SlabFlux.Pipeline

variable {Name : Type} {progress : Progress Name} {answers : Answers Name}

/-! ## Dispatches that nobody halts -/

/-- The calls made, without their results. -/
def Progress.made (progress : Progress Name) : List (Call Name) := progress.calls.map Prod.fst

theorem made_run (answers : Answers Name) (planned : Planned Name) (progress : Progress Name) :
    (planned.run answers progress).made = progress.made ++ [planned.call] := by
  simp [Progress.made, Planned.run]

theorem made_runGuarded {plan : List (Planned Name)}
    (running : (runGuarded answers plan progress).halted = false) :
    progress.halted = false ∧
      (runGuarded answers plan progress).made = progress.made ++ plan.map Planned.call := by
  induction plan generalizing progress with
  | nil => exact ⟨running, by simp [runGuarded]⟩
  | cons planned rest ih =>
      rw [runGuarded] at running ⊢
      by_cases halted : progress.halted = true
      · rw [if_pos halted, halted] at running
        cases running
      · rw [if_neg halted] at running ⊢
        refine ⟨Bool.not_eq_true _ ▸ halted, ?_⟩
        rw [(ih running).2, made_run, List.map_cons, List.append_assoc, List.singleton_append]

theorem halted_fallback (answers : Answers Name) (plan : List (Planned Name))
    (halted : progress.halted = true) :
    (plan.foldl (fun progress planned => planned.run answers progress) progress).halted = true := by
  induction plan generalizing progress with
  | nil => exact halted
  | cons planned rest ih => exact ih (by simp [Planned.run, halted])

theorem made_site {site : Site Name} (running : (site.run answers progress).halted = false) :
    progress.halted = false ∧
      (site.run answers progress).made = progress.made ++ site.main.map Planned.call := by
  unfold Site.run at running ⊢
  by_cases halted : progress.halted = true
  · rw [if_pos halted, halted_fallback answers site.fallback halted] at running
    cases running
  · rw [if_neg halted] at running ⊢
    exact made_runGuarded running

theorem made_runSites {sites : List (Site Name)}
    (running : (runSites answers sites progress).halted = false) :
    progress.halted = false ∧ (runSites answers sites progress).made =
        progress.made ++ (sitesPlan sites).map Planned.call := by
  induction sites generalizing progress with
  | nil => exact ⟨running, by simp [runSites, sitesPlan]⟩
  | cons site rest ih =>
      obtain ⟨restRunning, restMade⟩ := ih running
      obtain ⟨siteRunning, siteMade⟩ := made_site restRunning
      refine ⟨siteRunning, ?_⟩
      rw [runSites, restMade, siteMade, sitesPlan, sitesPlan, List.flatMap_cons,
        List.map_append, List.append_assoc]

theorem made_runGroups {groups : List (List (Site Name))}
    (running : (runGroups answers groups progress).halted = false) :
    (runGroups answers groups progress).made =
      progress.made ++ (groupsPlan groups).map Planned.call := by
  induction groups generalizing progress with
  | nil => simp [runGroups, groupsPlan]
  | cons sites rest ih =>
      rw [runGroups] at running ⊢
      by_cases halted : progress.halted = true
      · rw [if_pos halted, runGroups_of_halted _ _ halted, halted] at running
        cases running
      · rw [if_neg halted] at running ⊢
        have restRunning : (runSites answers sites progress).halted = false := by
          by_contra stopped
          rw [Bool.not_eq_false] at stopped
          rw [runGroups_of_halted _ _ stopped, stopped] at running
          cases running
        rw [ih running, (made_runSites restRunning).2, groupsPlan, groupsPlan,
          List.flatMap_cons, List.map_append, List.append_assoc]

/-! ## Counting -/

/-- Whether the event is taken by reference. -/
def Passing.byReference : Passing → Bool
  | .ref => true
  | .cref => true
  | .ptr => false
  | .cptr => false

/-- Whether a const event can be taken. -/
def Passing.takesConst : Passing → Bool
  | .ref => false
  | .cref => true
  | .ptr => false
  | .cptr => true

variable [DecidableEq Name]

/-- How often a handler was called for an event base. -/
def callCount (calls : List (Call Name × Bool)) (handler event : Name) : Nat :=
  calls.countP fun entry => entry.1.handler = handler ∧ entry.1.event = event

theorem callCount_eq (progress : Progress Name) (handler event : Name) :
    callCount progress.calls handler event =
      progress.made.countP fun call => call.handler = handler ∧ call.event = event := by
  rw [Progress.made, List.countP_map]
  rfl

omit [DecidableEq Name] in
/-- Of a joined list only one part is counted. -/
theorem countP_flatMap_eq {Item Part : Type} {parts : List Part} (nodup : parts.Nodup)
    {counted : Item → Bool} {items : Part → List Item} {part : Part} (isPart : part ∈ parts)
    (others : ∀ other ∈ parts, other ≠ part → ∀ item ∈ items other, ¬counted item = true) :
    (parts.flatMap items).countP counted = (items part).countP counted := by
  induction parts with
  | nil => exact absurd isPart List.not_mem_nil
  | cons first rest ih =>
      obtain ⟨notIn, restNodup⟩ := List.nodup_cons.mp nodup
      rw [List.flatMap_cons, List.countP_append]
      by_cases here : first = part
      · have none : (rest.flatMap items).countP counted = 0 := by
          refine List.countP_eq_zero.mpr fun item member => ?_
          obtain ⟨other, isOther, inOther⟩ := List.mem_flatMap.mp member
          refine others other (List.mem_cons_of_mem _ isOther) ?_ item inOther
          rintro rfl
          exact notIn (here ▸ isOther)
        rw [none, here, Nat.add_zero]
      · have inRest := (List.mem_cons.mp isPart).resolve_left fun same => here same.symm
        have none : (items first).countP counted = 0 :=
          List.countP_eq_zero.mpr (others first List.mem_cons_self here)
        rw [none, Nat.zero_add]
        exact ih restNodup inRest fun other isOther =>
          others other (List.mem_cons_of_mem _ isOther)

namespace Program

variable (program : Program Name) {planned : Planned Name} {phase : Name} {vault : Vault Name}
  {constEvent : Bool}

omit [DecidableEq Name] in
theorem call_of_plannedCall {handler event : Name} {context : Option Name} {looksAtResult : Bool}
    (selected : program.plannedCall constEvent handler event context looksAtResult = some planned) :
    planned.call.handler = handler ∧ planned.call.event = event := by
  obtain ⟨_, _, rfl⟩ := Option.map_eq_some_iff.mp selected
  exact ⟨rfl, rfl⟩

/-- The calls planned for a handler and a base are calls of this handler for this base. -/
theorem call_of_mem_site {contexts : List Name} {handler event : Name}
    (member : planned ∈ (program.site constEvent vault contexts handler event).main) :
    planned.call.handler = handler ∧ planned.call.event = event := by
  unfold site at member
  split_ifs at member with none
  · unfold fallbackPlan at member
    cases branch : program.fallbackBranch handler event with
    | none => simp [branch] at member
    | some looksAtResult =>
        rw [branch] at member
        exact program.call_of_plannedCall (Option.mem_toList.mp member)
  · obtain ⟨_, _, selected⟩ := List.mem_filterMap.mp member
    exact program.call_of_plannedCall selected

/-- The contexts of a dispatch. -/
def dispatchContexts (event : Name) : List Name :=
  program.expandTypelistAncestors
    (program.deriveContextList (program.hierarchy.eventDag event))

/-- The calls planned for a handler. -/
def handlerPlan (phase : Name) (vault : Vault Name) (event : Name) (constEvent : Bool)
    (handler : Name) : List (Planned Name) :=
  if program.accepts phase handler then
    (program.hierarchy.eventDag event).flatMap fun base =>
      (program.site constEvent vault (program.dispatchContexts event) handler base).main
  else []

theorem groupsPlan_groups (phase : Name) (handlers : List Name) (vault : Vault Name)
    (event : Name) (constEvent : Bool) :
    groupsPlan (program.groups phase handlers vault event constEvent) =
      (program.hierarchy.handlerList handlers).flatMap
        (program.handlerPlan phase vault event constEvent) := by
  unfold groupsPlan groups
  rw [List.flatMap_map]
  refine List.flatMap_congr fun handler _ => ?_
  rw [handlerPlan]
  split_ifs
  · rw [sitesPlan, List.flatMap_map]
    rfl
  · rfl

theorem handler_of_mem_handlerPlan {event : Name} {handler : Name}
    (member : planned ∈ program.handlerPlan phase vault event constEvent handler) :
    planned.call.handler = handler := by
  unfold handlerPlan at member
  split_ifs at member
  · obtain ⟨_, _, inSite⟩ := List.mem_flatMap.mp member
    exact (program.call_of_mem_site inSite).1
  · exact absurd member List.not_mem_nil

/-- Of a handler's plan, the calls for one base. -/
theorem countP_handlerPlan {event : Name} {handler base : Name}
    (isBase : base ∈ program.hierarchy.eventDag event) :
    (program.handlerPlan phase vault event constEvent handler).countP
        (fun planned => planned.call.handler = handler ∧ planned.call.event = base) =
      if program.accepts phase handler then
        (program.site constEvent vault (program.dispatchContexts event) handler base).main.length
      else 0 := by
  have nodup : (program.hierarchy.eventDag event).Nodup :=
    (program.hierarchy.linearExtension_ancestors event).nodup
  unfold handlerPlan
  split_ifs
  · rw [countP_flatMap_eq nodup isBase]
    · refine List.countP_eq_length.mpr fun planned member => ?_
      exact decide_eq_true (program.call_of_mem_site member)
    · intro other _ different planned member
      rw [decide_eq_true_eq, (program.call_of_mem_site member).2]
      exact fun same => different same.2
  · rfl

/-- In a dispatch that nobody halts, a handler is called for a base as often as the plan
of the base says, and not at all if the phase leaves it out. -/
theorem callCount_dispatch {handlers : List Name} {event : Name} {handler base : Name}
    (isHandler : handler ∈ program.hierarchy.handlerList handlers)
    (isBase : base ∈ program.hierarchy.eventDag event)
    (running : (program.dispatchImpl answers phase handlers vault event constEvent).halted =
      false) :
    callCount (program.dispatchImpl answers phase handlers vault event constEvent).calls
        handler base =
      if program.accepts phase handler then
        (program.site constEvent vault (program.dispatchContexts event) handler base).main.length
      else 0 := by
  rw [dispatchImpl_eq] at running ⊢
  rw [callCount_eq, made_runGroups running, groupsPlan_groups, List.countP_append,
    List.countP_map, ← program.countP_handlerPlan isBase]
  refine (Nat.zero_add _).trans (countP_flatMap_eq
    (program.hierarchy.linearExtension_handlerList handlers).nodup isHandler ?_)
  intro other _ different planned member
  rw [Function.comp_apply, decide_eq_true_eq, program.handler_of_mem_handlerPlan member]
  exact fun same => different same.1

/-! ## A handler with one signature -/

/-- The handler's only signature for the event base is this one without context. -/
def OnlySignature (handler event : Name) (passing : Passing) (returned : Return) : Prop :=
  ∀ overload, program.on handler event overload =
    if overload = .free passing then some returned else none

variable {program} {handler event : Name} {passing : Passing} {returned : Return}

section

variable (only : program.OnlySignature handler event passing returned)
include only

/-- A call is made if the event is not const or the signature takes const events. -/
theorem OnlySignature.isSome_plannedCall (constEvent : Bool) (context : Option Name)
    (looksAtResult : Bool) :
    (program.plannedCall constEvent handler event context looksAtResult).isSome =
      (!constEvent || passing.takesConst) := by
  unfold OnlySignature at only
  unfold plannedCall signatureInvoke
  cases constEvent <;> cases context <;> cases passing <;> cases returned <;>
    simp [firstOf, hasOnRefCtxVoid, hasOnRefCtxBool, hasOnCrefCtxVoid, hasOnCrefCtxBool,
      hasOnPtrVoid, hasOnPtrBool, hasOnCptrVoid, hasOnCptrBool, hasOnRefVoid, hasOnRefBool,
      hasOnCrefVoid, hasOnCrefBool, has, only, Passing.takesConst]

/-- Every context matches a pointer, and none a reference. -/
theorem OnlySignature.isSome_contextBranch (vault : Vault Name) (context : Name) :
    (program.contextBranch vault handler event context).isSome =
      (program.canExtract vault context && !passing.byReference) := by
  unfold OnlySignature at only
  unfold contextBranch
  cases program.canExtract vault context <;> cases passing <;> cases returned <;>
    simp [contextBool, contextVoid, hasOnRefCtxVoid, hasOnRefCtxBool, hasOnCrefCtxVoid,
      hasOnCrefCtxBool, hasOnPtrVoid, hasOnPtrBool, hasOnCptrVoid, hasOnCptrBool, has, only,
      Passing.byReference]

theorem OnlySignature.isSome_fallbackBranch :
    (program.fallbackBranch handler event).isSome = true := by
  unfold OnlySignature at only
  unfold fallbackBranch
  cases passing <;> cases returned <;>
    simp [hasOnPtrVoid, hasOnPtrBool, hasOnCptrVoid, hasOnCptrBool, hasOnRefVoid,
      hasOnRefBool, hasOnCrefVoid, hasOnCrefBool, has, only]

theorem OnlySignature.length_matchingContexts (vault : Vault Name) (contexts : List Name) :
    (program.matchingContexts vault contexts handler event).length = if passing.byReference then 0
      else (contexts.filter (program.canExtract vault)).length := by
  rw [matchingContexts, List.length_filterMap_eq_countP]
  simp only [Option.isSome_map, only.isSome_contextBranch]
  split_ifs with byReference
  · simp [byReference]
  · simp [byReference, List.countP_eq_length_filter]

theorem OnlySignature.length_contextPlan (constEvent : Bool) (vault : Vault Name)
    (contexts : List Name) :
    (program.contextPlan constEvent vault contexts handler event).length =
      if !constEvent || passing.takesConst then
        (program.matchingContexts vault contexts handler event).length
      else 0 := by
  rw [contextPlan, List.length_filterMap_eq_countP]
  simp only [only.isSome_plannedCall]
  split_ifs with takes
  · simp [takes]
  · simp [takes]

theorem OnlySignature.length_fallbackPlan (constEvent : Bool) :
    (program.fallbackPlan constEvent handler event).length =
      if !constEvent || passing.takesConst then 1 else 0 := by
  obtain ⟨looksAtResult, branch⟩ := Option.isSome_iff_exists.mp only.isSome_fallbackBranch
  have selected := only.isSome_plannedCall constEvent none looksAtResult
  rw [fallbackPlan, branch]
  dsimp only
  rw [← selected]
  cases program.plannedCall constEvent handler event none looksAtResult with
  | none => rfl
  | some planned => rfl

/-- One call is planned unless a const event cannot be taken, or the event is taken by
pointer and the vault supplies several contexts. -/
theorem OnlySignature.length_site_eq_one_iff (constEvent : Bool) (vault : Vault Name)
    (contexts : List Name) :
    (program.site constEvent vault contexts handler event).main.length = 1 ↔
      (constEvent = true → passing.takesConst = true) ∧ (passing.byReference = true ∨
          (contexts.filter (program.canExtract vault)).length ≤ 1) := by
  have matching := only.length_matchingContexts vault contexts
  have takes_iff : (!constEvent || passing.takesConst) = true ↔
      (constEvent = true → passing.takesConst = true) := by
    cases constEvent <;> simp
  unfold site
  rw [← takes_iff]
  split_ifs with none
  · rw [only.length_fallbackPlan]
    rw [none] at matching
    by_cases takes : (!constEvent || passing.takesConst) = true
    · by_cases byReference : passing.byReference = true
      · simp [takes, byReference]
      · rw [if_neg byReference] at matching
        simp [takes, ← matching]
    · simp [takes]
  · rw [only.length_contextPlan]
    rw [← List.length_eq_zero_iff] at none
    by_cases byReference : passing.byReference = true
    · rw [if_pos byReference] at matching
      exact absurd matching none
    · rw [if_neg byReference] at matching
      by_cases takes : (!constEvent || passing.takesConst) = true
      · simp only [takes, byReference, matching, if_true, true_and, Bool.false_eq_true, false_or]
        omega
      · simp [takes]

end

/-- In a dispatch that nobody halts, a handler whose only signature for an event base
takes no context is called exactly once for it, if and only if the phase admits the
handler, a const event is taken as const, and either the event is taken by reference or
the vault supplies at most one of the contexts. -/
theorem called_once_iff (program : Program Name) (answers : Answers Name) (phase : Name)
    (handlers : List Name) (vault : Vault Name) (event : Name) (constEvent : Bool)
    (handler base : Name) (passing : Passing) (returned : Return)
    (isHandler : handler ∈ program.hierarchy.handlerList handlers)
    (isBase : base ∈ program.hierarchy.eventDag event)
    (only : program.OnlySignature handler base passing returned)
    (running : (program.dispatchImpl answers phase handlers vault event
      constEvent).halted = false) :
    callCount (program.dispatchImpl answers phase handlers vault event constEvent).calls
        handler base = 1 ↔
      program.accepts phase handler = true ∧ (constEvent = true → passing.takesConst = true) ∧
        (passing.byReference = true ∨
          ((program.dispatchContexts event).filter (program.canExtract vault)).length ≤ 1) := by
  rw [program.callCount_dispatch isHandler isBase running]
  split_ifs with accepted
  · rw [only.length_site_eq_one_iff]
    simp [accepted]
  · simp [accepted]

end Program

/-- An event type 0 with the contexts 3 and 4, and a handler 2. -/
def pointerHandler : Program (Fin 5) where
  hierarchy :=
    { parentsOf := fun _ => []
      declaredPriority := fun _ => none
      wellFounded := ⟨fun name => ⟨name, fun _ declared => absurd declared List.not_mem_nil⟩⟩ }
  on := fun handler event overload =>
    if handler = 2 ∧ event = 0 ∧ overload = .free .ptr then some .void else none
  contextType := fun event => if event = 0 then [3, 4] else []
  isBaseOf := fun _ _ => false
  phaseTag := fun _ => none
  hasPhaseParam := fun _ => false

theorem pointerHandler_ancestors (name : Fin 5) :
    pointerHandler.hierarchy.ancestors name = [name] := by
  rw [Hierarchy.ancestors]
  rfl

theorem pointerHandler_eventDag (name : Fin 5) :
    pointerHandler.hierarchy.eventDag name = [name] := by
  rw [Hierarchy.eventDag, pointerHandler_ancestors]
  rfl

theorem pointerHandler_handlerList (name : Fin 5) :
    pointerHandler.hierarchy.handlerList [name] = [name] := by
  simp only [Hierarchy.handlerList, Hierarchy.handlerDag, List.map_cons, List.map_nil,
    pointerHandler_ancestors]
  rfl

theorem pointerHandler_contexts : pointerHandler.dispatchContexts 0 = [3, 4] := by
  rw [Program.dispatchContexts, pointerHandler_eventDag]
  change unique (concat [pointerHandler.hierarchy.ancestors 3,
    pointerHandler.hierarchy.ancestors 4]) = _
  rw [pointerHandler_ancestors, pointerHandler_ancestors]
  decide

theorem pointerHandler_dispatch (vault : Vault (Fin 5)) :
    pointerHandler.dispatchImpl (fun _ _ => false) 1 [2] vault 0 false =
      pointerHandler.unrollPipeline (fun _ _ => false) false vault 1 [3, 4] [0] [2]
        { halted := false, calls := [] } := by
  unfold Program.dispatchImpl
  rw [pointerHandler_handlerList]
  change pointerHandler.unrollPipeline (fun _ _ => false) false vault 1
    (pointerHandler.dispatchContexts 0) (pointerHandler.hierarchy.eventDag 0) [2] _ = _
  rw [pointerHandler_contexts, pointerHandler_eventDag]

theorem pointerHandler_only : pointerHandler.OnlySignature 2 0 .ptr .void := by
  intro overload
  simp [pointerHandler]

theorem called_once_iff_one_context :
    callCount (pointerHandler.dispatchImpl (fun _ _ => false) 1 [2] (.contexts [3]) 0
      false).calls 2 0 = 1 :=
  (Program.called_once_iff pointerHandler (fun _ _ => false) 1 [2] (.contexts [3]) 0 false 2 0
    .ptr .void (by rw [pointerHandler_handlerList]; decide)
    (by rw [pointerHandler_eventDag]; decide) pointerHandler_only
    (by rw [pointerHandler_dispatch]; decide)).mpr
    ⟨by decide, by decide, Or.inr (by rw [pointerHandler_contexts]; decide)⟩

/-- With two contexts in the vault, the handler is called twice for one event. -/
theorem called_once_per_context :
    pointerHandler.OnlySignature 2 0 .ptr .void ∧
      (pointerHandler.dispatchImpl (fun _ _ => false) 1 [2] (.contexts [3, 4]) 0
        false).halted = false ∧
      callCount (pointerHandler.dispatchImpl (fun _ _ => false) 1 [2] (.contexts [3, 4]) 0
        false).calls 2 0 = 2 := by
  refine ⟨pointerHandler_only, ?_⟩
  rw [pointerHandler_dispatch]
  decide

end SlabFlux.Pipeline
