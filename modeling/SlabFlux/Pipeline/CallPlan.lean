import SlabFlux.Pipeline.Dispatch

/-!
# Call plans

Which calls a dispatch can make is fixed when it is compiled; only the results decide
how far it gets.  The plan of a base lists the calls that are made while nobody has
halted, and those that are made after somebody has.  Running the plans is what the
dispatch does, and the halting law can be read off them.
-/

namespace SlabFlux.Pipeline

variable {Name : Type}

/-- What becomes of the result of a planned call: there is none, it sets the flag, or it
is not looked at. -/
inductive Effect where
  | quiet
  | halting
  | dropped
deriving DecidableEq

/-- A call that is compiled in. -/
structure Planned (Name : Type) where
  call : Call Name
  effect : Effect

/-- The calls for one handler and one event base. -/
structure Site (Name : Type) where
  /-- Made while the dispatch has not been halted. -/
  main : List (Planned Name)
  /-- Made if the dispatch has been halted before. -/
  fallback : List (Planned Name)

variable {rest : List (Planned Name)} {planned : Planned Name} {sites : List (Site Name)}
variable {progress : Progress Name} (answers : Answers Name) (plan : List (Planned Name))
variable (groups : List (List (Site Name)))

/-- Make a planned call. -/
def Planned.run (planned : Planned Name) (progress : Progress Name) : Progress Name :=
  let result := planned.effect != .quiet && answers progress.calls planned.call
  { halted := progress.halted || (planned.effect == .halting && result)
    calls := progress.calls ++ [(planned.call, result)] }

/-- Make planned calls until one of them halts. -/
def runGuarded (answers : Answers Name) : List (Planned Name) → Progress Name → Progress Name
  | [], progress => progress
  | planned :: rest, progress =>
      if progress.halted then progress
      else runGuarded answers rest (planned.run answers progress)

/-- The calls for one base. -/
def Site.run (answers : Answers Name) (site : Site Name) (progress : Progress Name) :
    Progress Name :=
  if progress.halted then
    site.fallback.foldl (fun progress planned => planned.run answers progress) progress
  else runGuarded answers site.main progress

/-- The calls for one handler. -/
def runSites (answers : Answers Name) : List (Site Name) → Progress Name → Progress Name
  | [], progress => progress
  | site :: rest, progress => runSites answers rest (site.run answers progress)

/-- The calls for all handlers. -/
def runGroups (answers : Answers Name) :
    List (List (Site Name)) → Progress Name → Progress Name
  | [], progress => progress
  | sites :: rest, progress =>
      runGroups answers rest
        (if progress.halted then progress else runSites answers sites progress)

/-- The calls for one handler in a dispatch that nobody halts. -/
def sitesPlan (sites : List (Site Name)) : List (Planned Name) := sites.flatMap Site.main

/-- The calls of a dispatch that nobody halts. -/
def groupsPlan : List (Planned Name) :=
  groups.flatMap sitesPlan

/-- No call comes after one that returned true. -/
def HaltsLast (calls : List (Call Name × Bool)) : Prop :=
  ∀ before call after, calls = before ++ (call, true) :: after → after = []

/-! ## The calls only grow -/

theorem prefix_run (planned : Planned Name) (progress : Progress Name) :
    progress.calls <+: (planned.run answers progress).calls :=
  List.prefix_append _ _

theorem prefix_runGuarded (progress : Progress Name) :
    progress.calls <+: (runGuarded answers plan progress).calls := by
  induction plan generalizing progress with
  | nil => exact List.prefix_rfl
  | cons planned rest ih =>
      rw [runGuarded]
      split_ifs
      · exact List.prefix_rfl
      · exact (prefix_run answers planned progress).trans (ih _)

theorem prefix_fallback (progress : Progress Name) :
    progress.calls <+:
      (plan.foldl (fun progress planned => planned.run answers progress) progress).calls := by
  induction plan generalizing progress with
  | nil => exact List.prefix_rfl
  | cons planned rest ih => exact (prefix_run answers planned progress).trans (ih _)

theorem prefix_site (site : Site Name) (progress : Progress Name) :
    progress.calls <+: (site.run answers progress).calls := by
  unfold Site.run
  split_ifs
  · exact prefix_fallback answers site.fallback progress
  · exact prefix_runGuarded answers site.main progress

theorem prefix_runSites (sites : List (Site Name)) (progress : Progress Name) :
    progress.calls <+: (runSites answers sites progress).calls := by
  induction sites generalizing progress with
  | nil => exact List.prefix_rfl
  | cons site rest ih => exact (prefix_site answers site progress).trans (ih _)

theorem prefix_runGroups (progress : Progress Name) :
    progress.calls <+: (runGroups answers groups progress).calls := by
  induction groups generalizing progress with
  | nil => exact List.prefix_rfl
  | cons sites rest ih =>
      rw [runGroups]
      split_ifs
      · exact ih progress
      · exact (prefix_runSites answers sites progress).trans (ih _)

/-! ## Running the parts of a plan one after the other -/

theorem runGuarded_append (front back : List (Planned Name)) (progress : Progress Name) :
    runGuarded answers (front ++ back) progress =
      runGuarded answers back (runGuarded answers front progress) := by
  induction front generalizing progress with
  | nil => rfl
  | cons planned rest ih =>
      rw [List.cons_append, runGuarded, runGuarded]
      split_ifs with halted
      · cases back with
        | nil => rfl
        | cons => rw [runGuarded, if_pos halted]
      · exact ih _

theorem runSites_append (front back : List (Site Name)) (progress : Progress Name) :
    runSites answers (front ++ back) progress =
      runSites answers back (runSites answers front progress) := by
  induction front generalizing progress with
  | nil => rfl
  | cons site rest ih => exact ih _

theorem runGroups_append (front back : List (List (Site Name))) (progress : Progress Name) :
    runGroups answers (front ++ back) progress =
      runGroups answers back (runGroups answers front progress) := by
  induction front generalizing progress with
  | nil => rfl
  | cons sites rest ih => exact ih _

theorem runGuarded_of_halted (halted : progress.halted = true) :
    runGuarded answers plan progress = progress := by
  cases plan with
  | nil => rfl
  | cons => rw [runGuarded, if_pos halted]

theorem runGroups_of_halted (halted : progress.halted = true) :
    runGroups answers groups progress = progress := by
  induction groups with
  | nil => rfl
  | cons sites rest ih => rw [runGroups, if_pos halted, ih]

/-! ## Runs in which one call returns true -/

variable {position : Nat}

/-- The handlers return true at one position of the call history only. -/
def answersAt (position : Nat) : Answers Name := fun history _ => history.length == position

/-- The calls of a plan with the results they have then; `start` calls were made
before. -/
def marked (position : Nat) : Nat → List (Planned Name) → List (Call Name × Bool)
  | _, [] => []
  | start, planned :: rest =>
      (planned.call, planned.effect != .quiet && start == position) ::
        marked position (start + 1) rest

/-- The call at the position does not halt the dispatch. -/
def PassesOver (position : Nat) : Nat → List (Planned Name) → Prop
  | _, [] => True
  | start, planned :: rest =>
      (start = position → planned.effect ≠ .halting) ∧ PassesOver position (start + 1) rest

@[simp] theorem length_marked (position start : Nat) (plan : List (Planned Name)) :
    (marked position start plan).length = plan.length := by
  induction plan generalizing start with
  | nil => rfl
  | cons planned rest ih => rw [marked, List.length_cons, List.length_cons, ih]

theorem marked_append (position start : Nat) (front back : List (Planned Name)) :
    marked position start (front ++ back) =
      marked position start front ++ marked position (start + front.length) back := by
  induction front generalizing start with
  | nil => rfl
  | cons planned rest ih =>
      rw [List.cons_append, marked, marked, ih, List.cons_append, List.length_cons,
        Nat.add_assoc start 1, Nat.add_comm 1]

theorem passesOver_append {position start : Nat} {front back : List (Planned Name)} :
    PassesOver position start (front ++ back) ↔
      PassesOver position start front ∧ PassesOver position (start + front.length) back := by
  induction front generalizing start with
  | nil => simp [PassesOver]
  | cons planned rest ih =>
      rw [List.cons_append, PassesOver, PassesOver, ih, List.length_cons,
        Nat.add_assoc start 1, Nat.add_comm 1, and_assoc]

/-- A plan that does not reach the position passes over it. -/
theorem passesOver_of_outside {position start : Nat} {plan : List (Planned Name)}
    (outside : position < start ∨ start + plan.length ≤ position) :
    PassesOver position start plan := by
  induction plan generalizing start with
  | nil => exact True.intro
  | cons planned rest ih =>
      rw [List.length_cons] at outside
      exact ⟨by omega, ih (by omega)⟩

theorem runGuarded_marked {plan : List (Planned Name)} (running : progress.halted = false)
    (passes : PassesOver position progress.calls.length plan) :
    runGuarded (answersAt position) plan progress =
      { halted := false
        calls := progress.calls ++ marked position progress.calls.length plan } := by
  induction plan generalizing progress with
  | nil =>
      simp only [runGuarded, marked, List.append_nil]
      rw [← running]
  | cons planned rest ih =>
      obtain ⟨notHalting, passesRest⟩ := passes
      have run : planned.run (answersAt position) progress =
          { halted := false
            calls := progress.calls ++ [(planned.call,
              planned.effect != .quiet && progress.calls.length == position)] } := by
        by_cases here : progress.calls.length = position
        · simp [Planned.run, answersAt, running, notHalting here]
        · simp [Planned.run, answersAt, running, here]
      have next := @ih (planned.run (answersAt position) progress)
      rw [run, List.length_append] at next
      rw [runGuarded, if_neg (by simp [running]), run, next rfl passesRest]
      simp [marked]

theorem runSites_marked (running : progress.halted = false)
    (passes : PassesOver position progress.calls.length (sitesPlan sites)) :
    runSites (answersAt position) sites progress =
      { halted := false
        calls := progress.calls ++ marked position progress.calls.length (sitesPlan sites) } := by
  induction sites generalizing progress with
  | nil =>
      simp only [runSites, sitesPlan, marked, List.flatMap_nil, List.append_nil]
      rw [← running]
  | cons site rest ih =>
      rw [sitesPlan, List.flatMap_cons, passesOver_append] at passes
      rw [runSites, Site.run, if_neg (by simp [running]),
        runGuarded_marked running passes.1, ih rfl]
      · simp [sitesPlan, marked_append]
      · simpa [sitesPlan] using passes.2

theorem runGroups_marked {groups : List (List (Site Name))} (running : progress.halted = false)
    (passes : PassesOver position progress.calls.length (groupsPlan groups)) :
    runGroups (answersAt position) groups progress =
      { halted := false
        calls := progress.calls ++
          marked position progress.calls.length (groupsPlan groups) } := by
  induction groups generalizing progress with
  | nil =>
      simp only [runGroups, groupsPlan, marked, List.flatMap_nil, List.append_nil]
      rw [← running]
  | cons sites rest ih =>
      rw [groupsPlan, List.flatMap_cons, passesOver_append] at passes
      rw [runGroups, if_neg (by simp [running]), runSites_marked running passes.1, ih rfl]
      · simp [groupsPlan, marked_append]
      · simpa [groupsPlan] using passes.2

/-! ## The halting law -/

/-- A call whose result is not looked at can only be the last one. -/
def DroppedLast : Prop :=
  ∀ before planned after, plan = before ++ planned :: after → planned.effect = .dropped →
    after = []

/-- After a base where a handler can halt, none of its later bases has a fallback. -/
def NoLaterFallback (sites : List (Site Name)) : Prop :=
  ∀ before site after, sites = before ++ site :: after →
    (∃ planned ∈ site.main, planned.effect = .halting) → ∀ later ∈ after, later.fallback = []

/-- The two conditions under which a dispatch obeys the halting law. -/
structure HaltSafe (groups : List (List (Site Name))) : Prop where
  noLaterFallback : ∀ sites ∈ groups, NoLaterFallback sites
  droppedLast : DroppedLast (groupsPlan groups)

theorem DroppedLast.tail (last : DroppedLast (planned :: rest)) : DroppedLast rest := by
  intro before later after split
  exact last (planned :: before) later after (by rw [split, List.cons_append])

theorem NoLaterFallback.tail {site : Site Name} {rest : List (Site Name)}
    (none : NoLaterFallback (site :: rest)) : NoLaterFallback rest := by
  intro before later after split
  exact none (site :: before) later after (by rw [split, List.cons_append])

/-- The law holds so far; and unless the dispatch has been halted or the plan is at its
end, nobody has returned true. -/
def Lawful (progress : Progress Name) : Prop :=
  HaltsLast progress.calls ∧
    (progress.halted = true ∨ plan = [] ∨ ∀ entry ∈ progress.calls, entry.2 = false)

theorem haltsLast_append_singleton {calls : List (Call Name × Bool)}
    (silentSoFar : ∀ entry ∈ calls, entry.2 = false) (entry : Call Name × Bool) :
    HaltsLast (calls ++ [entry]) := by
  intro before call after split
  by_contra nonempty
  obtain ⟨front, last, rfl⟩ := List.eq_nil_or_concat after |>.resolve_left nonempty
  have early : (call, true) ∈ calls := by
    have parts : calls ++ [entry] = (before ++ (call, true) :: front) ++ [last] := by
      simp [split]
    rw [(List.append_inj' parts rfl).1]
    simp
  exact absurd (silentSoFar _ early) (by simp)

theorem Lawful.run {answers : Answers Name} (lawful : Lawful (planned :: rest) progress)
    (running : progress.halted = false) (last : DroppedLast (planned :: rest)) :
    Lawful rest (planned.run answers progress) := by
  have silentSoFar : ∀ entry ∈ progress.calls, entry.2 = false := by
    rcases lawful.2 with halted | empty | silentSoFar
    · rw [running] at halted
      cases halted
    · cases empty
    · exact silentSoFar
  refine ⟨haltsLast_append_singleton silentSoFar _, ?_⟩
  by_cases answer : answers progress.calls planned.call = true
  · cases effect : planned.effect with
    | quiet =>
        refine Or.inr (Or.inr fun entry member => ?_)
        rcases List.mem_append.mp member with before | new
        · exact silentSoFar entry before
        · rw [List.mem_singleton.mp new]
          simp [effect]
    | halting => exact Or.inl (by simp [Planned.run, effect, answer])
    | dropped => exact Or.inr (Or.inl (last [] planned rest rfl effect))
  · refine Or.inr (Or.inr fun entry member => ?_)
    rcases List.mem_append.mp member with before | new
    · exact silentSoFar entry before
    · rw [List.mem_singleton.mp new]
      simp [answer]

theorem Lawful.runGuarded {plan rest : List (Planned Name)}
    (lawful : Lawful (plan ++ rest) progress) (last : DroppedLast (plan ++ rest)) :
    Lawful rest (runGuarded answers plan progress) ∧ DroppedLast rest := by
  induction plan generalizing progress with
  | nil => exact ⟨lawful, last⟩
  | cons planned plan ih =>
      rw [Pipeline.runGuarded]
      by_cases halted : progress.halted = true
      · rw [if_pos halted]
        have remaining : Lawful (plan ++ rest) progress := ⟨lawful.1, Or.inl halted⟩
        exact ⟨⟨lawful.1, Or.inl halted⟩, (ih remaining last.tail).2⟩
      · rw [if_neg halted]
        exact ih (lawful.run (Bool.not_eq_true _ ▸ halted) last) last.tail

/-- Only a halting call sets the flag. -/
theorem exists_halting {answers : Answers Name} {plan : List (Planned Name)}
    (running : progress.halted = false)
    (halted : (runGuarded answers plan progress).halted = true) :
    ∃ planned ∈ plan, planned.effect = .halting := by
  induction plan generalizing progress with
  | nil =>
      rw [runGuarded, running] at halted
      cases halted
  | cons planned plan ih =>
      rw [runGuarded, if_neg (by simp [running])] at halted
      by_cases effect : planned.effect = .halting
      · exact ⟨planned, List.mem_cons_self, effect⟩
      · have stillRunning : (planned.run answers progress).halted = false := by
          simp [Planned.run, running, effect]
        obtain ⟨later, member, isHalting⟩ := ih stillRunning halted
        exact ⟨later, List.mem_cons_of_mem _ member, isHalting⟩

theorem runSites_of_halted {answers : Answers Name} (halted : progress.halted = true)
    (none : ∀ site ∈ sites, site.fallback = []) : runSites answers sites progress = progress := by
  induction sites with
  | nil => rfl
  | cons site rest ih =>
      rw [runSites, Site.run, if_pos halted, none site List.mem_cons_self]
      exact ih fun later member => none later (List.mem_cons_of_mem _ member)

theorem Lawful.runSites (lawful : Lawful (sitesPlan sites ++ rest) progress)
    (running : progress.halted = false) (last : DroppedLast (sitesPlan sites ++ rest))
    (none : NoLaterFallback sites) :
    Lawful rest (runSites answers sites progress) ∧ DroppedLast rest := by
  induction sites generalizing progress with
  | nil => exact ⟨lawful, last⟩
  | cons site sites ih =>
      rw [sitesPlan, List.flatMap_cons, List.append_assoc] at lawful last
      obtain ⟨next, nextLast⟩ := lawful.runGuarded answers last
      rw [Pipeline.runSites, Site.run, if_neg (by simp [running])]
      by_cases halted : (Pipeline.runGuarded answers site.main progress).halted = true
      · have noFallback := none [] site sites rfl (exists_halting running halted)
        rw [runSites_of_halted halted noFallback]
        refine ⟨⟨next.1, Or.inl halted⟩, ?_⟩
        intro before planned after split
        exact nextLast (sitesPlan sites ++ before) planned after
          (by rw [split, List.append_assoc]; rfl)
      · exact ih next (Bool.not_eq_true _ ▸ halted) nextLast none.tail

theorem Lawful.runGroups {answers : Answers Name} {groups : List (List (Site Name))}
    (lawful : Lawful (groupsPlan groups) progress) (last : DroppedLast (groupsPlan groups))
    (none : ∀ sites ∈ groups, NoLaterFallback sites) :
    HaltsLast (runGroups answers groups progress).calls := by
  induction groups generalizing progress with
  | nil => exact lawful.1
  | cons sites groups ih =>
      rw [groupsPlan, List.flatMap_cons] at lawful last
      rw [Pipeline.runGroups]
      by_cases halted : progress.halted = true
      · rw [if_pos halted, runGroups_of_halted _ _ halted]
        exact lawful.1
      · rw [if_neg halted]
        obtain ⟨next, nextLast⟩ := lawful.runSites answers
          (Bool.not_eq_true _ ▸ halted) last (none sites List.mem_cons_self)
        exact ih next nextLast fun later member => none later (List.mem_cons_of_mem _ member)

/-- A fallback makes a call although the dispatch has been halted. -/
theorem grows_of_fallback (halted : progress.halted = true)
    (fallback : ∃ site ∈ sites, site.fallback ≠ []) :
    ∃ more, more ≠ [] ∧ progress.calls ++ more <+: (runSites answers sites progress).calls := by
  induction sites with
  | nil => simp at fallback
  | cons site rest ih =>
      rw [runSites, Site.run, if_pos halted]
      cases own : site.fallback with
      | nil =>
          obtain ⟨later, member, nonempty⟩ := fallback
          rcases List.mem_cons.mp member with rfl | inRest
          · exact absurd own nonempty
          · exact ih ⟨later, inRest, nonempty⟩
      | cons planned others =>
          exact ⟨_, List.cons_ne_nil _ _, (prefix_fallback answers others
            (planned.run answers progress)).trans (prefix_runSites answers rest _)⟩

/-- The run in which a given halting call returns true: the dispatch is halted behind
it, with the later bases of its handler and the later handlers still to come. -/
theorem exists_calls_of_halting {groups front back : List (List (Site Name))}
    {sites before after : List (Site Name)} {site : Site Name}
    {mainFront mainBack : List (Planned Name)} (effect : planned.effect = .halting)
    (mainSplit : site.main = mainFront ++ planned :: mainBack)
    (split : sites = before ++ site :: after) (groupsSplit : groups = front ++ sites :: back) :
    ∃ calls : List (Call Name × Bool),
      runGroups (answersAt calls.length) groups { halted := false, calls := [] } =
        runGroups (answersAt calls.length) back (runSites (answersAt calls.length) after
          { halted := true, calls := calls ++ [(planned.call, true)] }) := by
  -- nobody returns true before the position of the halting call
  generalize position_eq : (groupsPlan front).length + (sitesPlan before).length +
    mainFront.length = position
  have passes : ∀ (start : Nat) (plan : List (Planned Name)),
      start + plan.length ≤ position → PassesOver position start plan :=
    fun start plan below => passesOver_of_outside (Or.inr below)
  let inFront := marked position 0 (groupsPlan front)
  let inBefore := marked position inFront.length (sitesPlan before)
  let inMain := marked position (inFront ++ inBefore).length mainFront
  have frontLength : inFront.length = (groupsPlan front).length := length_marked _ _ _
  have beforeLength : (inFront ++ inBefore).length =
      (groupsPlan front).length + (sitesPlan before).length := by
    rw [List.length_append, frontLength, length_marked]
  have length : (inFront ++ inBefore ++ inMain).length = position := by
    rw [List.length_append, beforeLength, length_marked, position_eq]
  have first : runGroups (answersAt position) front { halted := false, calls := [] } =
      { halted := false, calls := inFront } :=
    runGroups_marked rfl (passes 0 _ (by omega))
  have second : runSites (answersAt position) before { halted := false, calls := inFront } =
      { halted := false, calls := inFront ++ inBefore } :=
    runSites_marked rfl (passes inFront.length _ (by omega))
  have third : runGuarded (answersAt position) mainFront
      { halted := false, calls := inFront ++ inBefore } =
      { halted := false, calls := inFront ++ inBefore ++ inMain } :=
    runGuarded_marked rfl (passes (inFront ++ inBefore).length _ (by omega))
  have halted : planned.run (answersAt position)
      { halted := false, calls := inFront ++ inBefore ++ inMain } =
      { halted := true, calls := inFront ++ inBefore ++ inMain ++ [(planned.call, true)] } := by
    simp only [Planned.run, answersAt, length, effect, beq_self_eq_true]
    rfl
  refine ⟨inFront ++ inBefore ++ inMain, ?_⟩
  rw [length, groupsSplit, runGroups_append, first, runGroups, if_neg Bool.false_ne_true, split,
    runSites_append, second, runSites, Site.run, if_neg Bool.false_ne_true, mainSplit,
    runGuarded_append, third, runGuarded, if_neg Bool.false_ne_true, halted,
    runGuarded_of_halted _ _ rfl]

/-- A run that goes on after a call returned true breaks the law. -/
theorem not_haltsLast {before more calls : List (Call Name × Bool)} {call : Call Name}
    (grown : before ++ [(call, true)] ++ more <+: calls) (nonempty : more ≠ []) :
    ¬HaltsLast calls := by
  intro law
  obtain ⟨rest, rfl⟩ := grown
  have none := law before call (more ++ rest) (by simp)
  exact nonempty (List.append_eq_nil_iff.mp none).1

/-- A dispatch obeys the halting law, whatever the handlers return, if and only if its
plan meets the two conditions. -/
theorem haltsLast_iff :
    (∀ answers, HaltsLast (runGroups answers groups { halted := false, calls := [] }).calls) ↔
      HaltSafe groups := by
  constructor
  · intro law
    refine ⟨?_, ?_⟩
    · intro sites isGroup before site after split halts later isLater
      by_contra fallback
      obtain ⟨planned, isPlanned, effect⟩ := halts
      obtain ⟨front, back, groupsSplit⟩ := List.append_of_mem isGroup
      obtain ⟨mainFront, mainBack, mainSplit⟩ := List.append_of_mem isPlanned
      obtain ⟨calls, halting⟩ := exists_calls_of_halting effect mainSplit split groupsSplit
      let halted : Progress Name :=
        { halted := true, calls := calls ++ [(planned.call, true)] }
      have isHalted : halted.halted = true := rfl
      obtain ⟨more, nonempty, grown⟩ :=
        grows_of_fallback (answersAt calls.length) isHalted ⟨later, isLater, fallback⟩
      refine not_haltsLast (grown.trans ?_) nonempty (law (answersAt calls.length))
      rw [halting]
      exact prefix_runGroups _ _ _
    · intro before planned after split effect
      have passes : PassesOver before.length 0 (groupsPlan groups) := by
        rw [split, passesOver_append]
        refine ⟨passesOver_of_outside (by omega), ?_, passesOver_of_outside (by omega)⟩
        intro _
        rw [effect]
        decide
      have calls := law (answersAt before.length)
      rw [runGroups_marked rfl passes, split, marked_append] at calls
      have none := calls (marked before.length 0 before) planned.call
        (marked before.length (before.length + 1) after) (by simp [marked, effect])
      rw [← List.length_eq_zero_iff, length_marked] at none
      exact List.length_eq_zero_iff.mp none
  · intro safe answers
    refine Lawful.runGroups ⟨?_, ?_⟩ safe.droppedLast safe.noLaterFallback
    · intro before call after split
      simp at split
    · exact Or.inr (Or.inr fun entry member => absurd member List.not_mem_nil)

end SlabFlux.Pipeline
