import SlabFlux.Pipeline.Ancestors

/-!
# Dispatching an event

The run of `pipeline::dispatch_impl`: the handlers in order, for each handler the bases
of the event in order, and for each base the contexts the vault holds, with the
signatures without context as a fallback.  What a handler call returns is not known to
the dispatcher; it is supplied from outside, call by call.
-/

namespace SlabFlux.Pipeline

/-- How an `on` function takes its event. -/
inductive Passing where
  | ref
  | cref
  | ptr
  | cptr
deriving DecidableEq

/-- What an `on` function returns. -/
inductive Return where
  | void
  | bool
deriving DecidableEq

/-- An `on` function of a handler for a given event type: `on(E)` in one of the four
ways, or `on(E&, Ctx&)` and `on(const E&, Ctx&)`. -/
inductive Overload (Name : Type) where
  | free (passing : Passing)
  | refContext (context : Name)
  | crefContext (context : Name)
deriving DecidableEq

/-- The declarations a dispatch is compiled from. -/
structure Program (Name : Type) where
  hierarchy : Hierarchy Name
  /-- The overloads of a handler's `on` for an event type, with what they return. -/
  on : (handler event : Name) → Overload Name → Option Return
  /-- `context_association<E>::context_type`. -/
  contextType : Name → List Name
  /-- `std::is_base_of_v`. -/
  isBaseOf : (base derived : Name) → Bool
  /-- `H::phase_tag`, if there is one. -/
  phaseTag : Name → Option Name
  /-- Whether `&H::on` names one function. -/
  hasPhaseParam : Name → Bool

/-- The vault argument of a dispatch. -/
inductive Vault (Name : Type) where
  | null
  | contexts (held : List Name)
  | raw (type : Name)

/-- One call of a handler. -/
structure Call (Name : Type) where
  handler : Name
  event : Name
  overload : Overload Name
deriving DecidableEq

/-- A dispatch in progress: the flag, and the calls so far with their results. -/
structure Progress (Name : Type) where
  halted : Bool
  calls : List (Call Name × Bool)

/-- What the handlers answer, given the calls before. -/
abbrev Answers (Name : Type) := List (Call Name × Bool) → Call Name → Bool

variable {Name : Type} [DecidableEq Name]

namespace Program

variable (program : Program Name)

/-! ## Signature traits -/

/-- The test that a handler has a certain overload with a certain return type. -/
def has (returned : Return) (handler event : Name) (overload : Overload Name) : Bool :=
  program.on handler event overload == some returned

def hasOnRefCtxVoid (handler event context : Name) : Bool :=
  program.has .void handler event (.refContext context)

def hasOnRefCtxBool (handler event context : Name) : Bool :=
  program.has .bool handler event (.refContext context)

def hasOnCrefCtxVoid (handler event context : Name) : Bool :=
  program.has .void handler event (.crefContext context)

def hasOnCrefCtxBool (handler event context : Name) : Bool :=
  program.has .bool handler event (.crefContext context)

-- The traits below take a context like those above, and leave it unused.

variable (handler event : Name)

def hasOnPtrVoid (_context : Option Name) : Bool :=
  program.has .void handler event (.free .ptr)

def hasOnPtrBool (_context : Option Name) : Bool :=
  program.has .bool handler event (.free .ptr)

def hasOnCptrVoid (_context : Option Name) : Bool :=
  program.has .void handler event (.free .cptr)

def hasOnCptrBool (_context : Option Name) : Bool :=
  program.has .bool handler event (.free .cptr)

def hasOnRefVoid (_context : Option Name) : Bool :=
  program.has .void handler event (.free .ref)

def hasOnRefBool (_context : Option Name) : Bool :=
  program.has .bool handler event (.free .ref)

def hasOnCrefVoid (_context : Option Name) : Bool :=
  program.has .void handler event (.free .cref)

def hasOnCrefBool (_context : Option Name) : Bool :=
  program.has .bool handler event (.free .cref)

/-! ## Choosing the overload -/

/-- An `if constexpr` chain: the overload of the first test that holds. -/
def firstOf : List (Bool × Overload Name × Return) → Option (Overload Name × Return)
  | [] => none
  | (holds, overload, returned) :: rest =>
      if holds then some (overload, returned) else firstOf rest

/-- The overload `signature_invoke` calls, with its return type; `constEvent` says
whether the event is const, and `context` is absent for `nullptr`.  The source repeats
the last tests of its two chains for events that are not const; a test that has failed
is not repeated here. -/
def signatureInvoke (constEvent : Bool) (handler event : Name) (context : Option Name) :
    Option (Overload Name × Return) :=
  match constEvent, context with
  | true, some ctx =>
      firstOf
        [(program.hasOnCrefCtxBool handler event ctx, .crefContext ctx, .bool),
          (program.hasOnCrefCtxVoid handler event ctx, .crefContext ctx, .void),
          (program.hasOnCptrBool handler event context, .free .cptr, .bool),
          (program.hasOnCptrVoid handler event context, .free .cptr, .void),
          (program.hasOnCrefBool handler event context, .free .cref, .bool),
          (program.hasOnCrefVoid handler event context, .free .cref, .void)]
  | true, none =>
      firstOf
        [(program.hasOnCptrBool handler event none, .free .cptr, .bool),
          (program.hasOnCptrVoid handler event none, .free .cptr, .void),
          (program.hasOnCrefBool handler event none, .free .cref, .bool),
          (program.hasOnCrefVoid handler event none, .free .cref, .void)]
  | false, some ctx =>
      firstOf
        [(program.hasOnRefCtxBool handler event ctx, .refContext ctx, .bool),
          (program.hasOnRefCtxVoid handler event ctx, .refContext ctx, .void),
          (program.hasOnPtrBool handler event context, .free .ptr, .bool),
          (program.hasOnPtrVoid handler event context, .free .ptr, .void),
          (program.hasOnRefBool handler event context, .free .ref, .bool),
          (program.hasOnRefVoid handler event context, .free .ref, .void),
          (program.hasOnCrefCtxBool handler event ctx, .crefContext ctx, .bool),
          (program.hasOnCrefCtxVoid handler event ctx, .crefContext ctx, .void),
          (program.hasOnCptrBool handler event context, .free .cptr, .bool),
          (program.hasOnCptrVoid handler event context, .free .cptr, .void),
          (program.hasOnCrefBool handler event context, .free .cref, .bool),
          (program.hasOnCrefVoid handler event context, .free .cref, .void)]
  | false, none =>
      firstOf
        [(program.hasOnPtrBool handler event none, .free .ptr, .bool),
          (program.hasOnPtrVoid handler event none, .free .ptr, .void),
          (program.hasOnRefBool handler event none, .free .ref, .bool),
          (program.hasOnRefVoid handler event none, .free .ref, .void),
          (program.hasOnCptrBool handler event none, .free .cptr, .bool),
          (program.hasOnCptrVoid handler event none, .free .cptr, .void),
          (program.hasOnCrefBool handler event none, .free .cref, .bool),
          (program.hasOnCrefVoid handler event none, .free .cref, .void)]

/-- The test for the branch of a context whose result is taken for the flag. -/
def contextBool (handler event context : Name) : Bool :=
  program.hasOnRefCtxBool handler event context || program.hasOnCrefCtxBool handler event context ||
    program.hasOnPtrBool handler event (some context) ||
    program.hasOnCptrBool handler event (some context)

/-- The test for the branch of a context whose result is not looked at. -/
def contextVoid (handler event context : Name) : Bool :=
  program.hasOnRefCtxVoid handler event context || program.hasOnCrefCtxVoid handler event context ||
    program.hasOnPtrVoid handler event (some context) ||
    program.hasOnCptrVoid handler event (some context)

/-- The tests of the fallback, in order: whether the branch taken looks at the result, or
none if no branch is taken. -/
def fallbackBranch : Option Bool :=
  if program.hasOnPtrBool handler event none || program.hasOnCptrBool handler event none then
    some true
  else if program.hasOnPtrVoid handler event none || program.hasOnCptrVoid handler event none then
    some false
  else if program.hasOnRefBool handler event none || program.hasOnCrefBool handler event none then
    some true
  else if program.hasOnRefVoid handler event none || program.hasOnCrefVoid handler event none then
    some false
  else none

/-! ## Contexts -/

/-- The requirement of `extract_ctx`. -/
def canExtract (vault : Vault Name) (context : Name) : Bool :=
  match vault with
  | .null => false
  | .contexts held => held.any fun type => type = context || program.isBaseOf context type
  | .raw type =>
      type = context || program.isBaseOf context type || program.isBaseOf type context

/-- `derive_context_list_t`. -/
def deriveContextList (events : List Name) : List Name :=
  unique (concat (events.map program.contextType))

/-- `expand_typelist_ancestors_t`. -/
def expandTypelistAncestors (names : List Name) : List Name :=
  unique (concat (names.map program.hierarchy.ancestors))

def isHandlerCompatible (vault : Vault Name) (contexts : List Name) (handler event : Name) : Bool :=
  let hasCtxMatch := contexts.any fun context =>
    program.canExtract vault context &&
      (program.contextBool handler event context || program.contextVoid handler event context)
  let hasFreeMatch :=
    program.hasOnRefBool handler event none || program.hasOnCrefBool handler event none ||
      program.hasOnRefVoid handler event none || program.hasOnCrefVoid handler event none ||
      program.hasOnPtrBool handler event none || program.hasOnCptrBool handler event none ||
      program.hasOnPtrVoid handler event none || program.hasOnCptrVoid handler event none
  hasCtxMatch || hasFreeMatch

/-! ## Running -/

variable (answers : Answers Name)

/-- The call `signature_invoke` makes, if it makes one, and what it returns. -/
def invoke (constEvent : Bool) (handler event : Name)
    (context : Option Name) (progress : Progress Name) : Progress Name × Bool :=
  match program.signatureInvoke constEvent handler event context with
  | none => (progress, false)
  | some (overload, returned) =>
      let call : Call Name := ⟨handler, event, overload⟩
      let result :=
        match returned with
        | .void => false
        | .bool => answers progress.calls call
      ({ progress with calls := progress.calls ++ [(call, result)] }, result)

/-- A call, and the flag set by its result if the branch looks at it. -/
def invokeBranch (constEvent : Bool) (handler event : Name)
    (context : Option Name) (looksAtResult : Bool) (progress : Progress Name) :
    Progress Name :=
  let (progress, result) := program.invoke answers constEvent handler event context progress
  if looksAtResult && result then { progress with halted := true } else progress

/-- The fold over the contexts; `matched` says whether a context has matched. -/
def foldContexts (answers : Answers Name) (constEvent : Bool) (vault : Vault Name)
    (handler event : Name) : List Name → Progress Name × Bool → Progress Name × Bool
  | [], (progress, matched) => (progress, matched)
  | context :: rest, (progress, matched) =>
      if progress.halted then (progress, matched)
      else
        foldContexts answers constEvent vault handler event rest
          (if program.canExtract vault context then
            if program.contextBool handler event context then
              (program.invokeBranch answers constEvent handler event (some context) true
                progress, true)
            else if program.contextVoid handler event context then
              (program.invokeBranch answers constEvent handler event (some context) false
                progress, true)
            else (progress, matched)
          else (progress, matched))

def tryInvokeExact (constEvent : Bool) (vault : Vault Name)
    (contexts : List Name) (handler event : Name) (progress : Progress Name) :
    Progress Name :=
  let (progress, matched) :=
    program.foldContexts answers constEvent vault handler event contexts (progress, false)
  if matched then progress
  else
    match program.fallbackBranch handler event with
    | none => progress
    | some looksAtResult =>
        program.invokeBranch answers constEvent handler event none looksAtResult progress

def unrollEventDag (answers : Answers Name) (constEvent : Bool) (vault : Vault Name)
    (contexts : List Name) (handler : Name) : List Name → Progress Name → Progress Name
  | [], progress => progress
  | event :: rest, progress =>
      unrollEventDag answers constEvent vault contexts handler rest
        (if program.isHandlerCompatible vault contexts handler event then
          program.tryInvokeExact answers constEvent vault contexts handler event progress
        else progress)

/-- `phase_filter::accept`. -/
def accepts (phase handler : Name) : Bool :=
  let classMatch := program.phaseTag handler == some phase
  let signatureMatch := program.hasPhaseParam handler
  let neutral := (program.phaseTag handler).isNone && !program.hasPhaseParam handler
  classMatch || signatureMatch || neutral

def unrollPipeline (answers : Answers Name) (constEvent : Bool) (vault : Vault Name)
    (phase : Name) (contexts events : List Name) : List Name → Progress Name → Progress Name
  | [], progress => progress
  | handler :: rest, progress =>
      unrollPipeline answers constEvent vault phase contexts events rest
        (if progress.halted then progress
        else if program.accepts phase handler then
          program.unrollEventDag answers constEvent vault contexts handler events progress
        else progress)

def dispatchImpl (phase : Name) (handlers : List Name)
    (vault : Vault Name) (event : Name) (constEvent : Bool) : Progress Name :=
  let events := program.hierarchy.eventDag event
  let contexts := program.expandTypelistAncestors (program.deriveContextList events)
  program.unrollPipeline answers constEvent vault phase contexts events
    (program.hierarchy.handlerList handlers) { halted := false, calls := [] }

end Program

end SlabFlux.Pipeline
