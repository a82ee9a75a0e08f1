import Mathlib.Logic.Basic

/-!
# Computations that leave a trace

A computation that reports events as it goes and may return early.  What holds of every
event that a computation reports is found by the way the computation is put together.
-/

namespace SlabFlux.Lib

/-- The events in the order they were reported, and what the computation came to. -/
structure Trace (Event Early Value : Type) where
  log : List Event
  outcome : Except Early Value

namespace Trace

variable {Event Early Value Next : Type}

/-- Report an event. -/
def report (event : Event) : Trace Event Early Unit := ⟨[event], .ok ()⟩

/-- Return early. -/
def stop (early : Early) : Trace Event Early Value := ⟨[], .error early⟩

/-- Go on with the value, unless the computation has returned early. -/
def andThen (trace : Trace Event Early Value) (next : Value → Trace Event Early Next) :
    Trace Event Early Next :=
  match trace.outcome with
  | .error early => ⟨trace.log, .error early⟩
  | .ok value => ⟨trace.log ++ (next value).log, (next value).outcome⟩

instance : Monad (Trace Event Early) where
  pure value := ⟨[], .ok value⟩
  bind := andThen

/-- The property holds of every event. -/
def Keeps (property : Event → Prop) (trace : Trace Event Early Value) : Prop :=
  ∀ event ∈ trace.log, property event

section Rules

variable {property : Event → Prop} {trace : Trace Event Early Value}
  {next : Value → Trace Event Early Next} {value : Value} {early : Early}

@[simp] theorem outcome_pure : (pure value : Trace Event Early Value).outcome = .ok value := rfl

@[simp] theorem outcome_stop : (stop early : Trace Event Early Value).outcome = .error early := rfl

@[simp] theorem outcome_report (event : Event) :
    (report event : Trace Event Early Unit).outcome = .ok () := rfl

theorem outcome_bind :
    (trace >>= next).outcome = trace.outcome.bind fun value => (next value).outcome := by
  change (andThen trace next).outcome = _
  rw [andThen]
  cases trace.outcome with
  | error early => rfl
  | ok value => rfl

/-- An outcome that neither part has, the whole does not have. -/
theorem outcome_bind_ne_error (first : trace.outcome ≠ .error early)
    (second : ∀ value, (next value).outcome ≠ .error early) :
    (trace >>= next).outcome ≠ .error early := by
  rw [outcome_bind]
  cases outcome : trace.outcome with
  | error other =>
    intro same
    cases same
    exact first outcome
  | ok value => exact second value

@[simp] theorem keeps_pure : (pure value : Trace Event Early Value).Keeps property :=
  fun _ member => absurd member List.not_mem_nil

@[simp] theorem keeps_stop : (stop early : Trace Event Early Value).Keeps property :=
  fun _ member => absurd member List.not_mem_nil

@[simp] theorem keeps_report (event : Event) :
    (report event : Trace Event Early Unit).Keeps property ↔ property event := by
  simp [Keeps, report]

/-- What follows counts only if the computation gets there. -/
theorem keeps_bind :
    (trace >>= next).Keeps property ↔
      trace.Keeps property ∧ ∀ value, trace.outcome = .ok value → (next value).Keeps property := by
  change (andThen trace next).Keeps property ↔ _
  rw [andThen]
  cases outcome : trace.outcome with
  | error early => simp [Keeps]
  | ok value => simp [Keeps, or_imp, forall_and]

theorem keeps_bind_of_ok (ok : trace.outcome = .ok value) :
    (trace >>= next).Keeps property ↔ trace.Keeps property ∧ (next value).Keeps property := by
  rw [keeps_bind, ok]
  constructor
  · rintro ⟨holds, later⟩
    exact ⟨holds, later value rfl⟩
  · rintro ⟨holds, later⟩
    refine ⟨holds, fun other same => ?_⟩
    cases same
    exact later

theorem keeps_report_bind (event : Event) (next : Unit → Trace Event Early Next) :
    (report event >>= next).Keeps property ↔ property event ∧ (next ()).Keeps property := by
  rw [keeps_bind_of_ok (outcome_report event), keeps_report]

end Rules

end Trace

/-- Some bytes of a region are read or written. -/
structure Access (Region : Type) where
  region : Region
  writes : Bool
  start : Nat
  count : Nat

namespace Access

variable {Region : Type}

def read (region : Region) (start count : Nat) : Access Region := ⟨region, false, start, count⟩

def write (region : Region) (start count : Nat) : Access Region := ⟨region, true, start, count⟩

/-- The access stays within its region, and writes only where that is allowed. -/
def Allowed (size : Region → Nat) (writable : Region → Bool) (access : Access Region) : Prop :=
  access.start + access.count ≤ size access.region ∧
    (access.writes = true → writable access.region = true)

variable {size : Region → Nat} {writable : Region → Bool} {region : Region} {start count : Nat}

@[simp] theorem allowed_read :
    (read region start count).Allowed size writable ↔ start + count ≤ size region := by
  simp [Allowed, read]

@[simp] theorem allowed_write :
    (write region start count).Allowed size writable ↔
      start + count ≤ size region ∧ writable region = true := by
  simp [Allowed, write]

end Access

namespace Trace

variable {Region Early Next : Type}

/-- Read `count` bytes of a region. -/
def readAt (region : Region) (start count : Nat) : Trace (Access Region) Early Unit :=
  report (.read region start count)

/-- Write `count` bytes of a region. -/
def writeAt (region : Region) (start count : Nat) : Trace (Access Region) Early Unit :=
  report (.write region start count)

variable {size : Region → Nat} {writable : Region → Bool} {region : Region} {start count : Nat}
  {next : Unit → Trace (Access Region) Early Next}

theorem keeps_readAt :
    (readAt region start count : Trace _ Early Unit).Keeps (Access.Allowed size writable) ↔
      start + count ≤ size region := by
  rw [readAt, keeps_report, Access.allowed_read]

theorem keeps_readAt_bind :
    (readAt region start count >>= next).Keeps (Access.Allowed size writable) ↔
      start + count ≤ size region ∧ (next ()).Keeps (Access.Allowed size writable) := by
  rw [readAt, keeps_report_bind, Access.allowed_read]

theorem keeps_writeAt_bind :
    (writeAt region start count >>= next).Keeps (Access.Allowed size writable) ↔
      (start + count ≤ size region ∧ writable region = true) ∧
        (next ()).Keeps (Access.Allowed size writable) := by
  rw [writeAt, keeps_report_bind, Access.allowed_write]

@[simp] theorem outcome_readAt_bind :
    (readAt region start count >>= next).outcome = (next ()).outcome := rfl

@[simp] theorem outcome_writeAt_bind :
    (writeAt region start count >>= next).outcome = (next ()).outcome := rfl

end Trace

end SlabFlux.Lib
