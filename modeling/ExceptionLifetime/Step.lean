/-
One call on a state: how it ends, the state it leaves, what it let others see.

A call leaves a state however it ends, so a panic or a transfer in the middle
of it keeps what was done before. Calls are chained by what comes next if the
first returns; if it does not, nothing of the rest happens.
-/
import ExceptionLifetime.Trace.Observation

set_option autoImplicit false

namespace ExceptionLifetime

/-- The result of a call on a state of type `σ`. -/
structure Step (σ α : Type) where
  outcome : Outcome α
  state : σ
  trace : List Observation
  deriving DecidableEq

namespace Step

variable {σ α β : Type}

/-- A call that returns and is seen by nobody. -/
def returning (s : σ) (a : α) : Step σ α := ⟨.returned a, s, []⟩

/-- A call that transfers an exception. -/
def transferring (s : σ) (h : Handle) : Step σ α := ⟨.transferred h, s, []⟩

/-- A call that panics. -/
def panicking (s : σ) (p : Panic) : Step σ α := ⟨.panicked p, s, []⟩

/-- A call that ends the process, with its last words in the log. -/
def aborting (s : σ) (e : Fault) : Step σ α := ⟨.aborted e, s, [.logged (.fault e)]⟩

/-- The call after `earlier` was observed. -/
def after (earlier : List Observation) (r : Step σ α) : Step σ α :=
  { r with trace := earlier ++ r.trace }

/-- The same call with its value mapped. -/
def map (f : α → β) (r : Step σ α) : Step σ β :=
  ⟨r.outcome.map f, r.state, r.trace⟩

/-- Goes on with `next` if the first call returns. -/
def andThen (r : Step σ α) (next : α → σ → Step σ β) : Step σ β :=
  match r.outcome with
  | .returned a => (next a r.state).after r.trace
  | .transferred h => ⟨.transferred h, r.state, r.trace⟩
  | .panicked p => ⟨.panicked p, r.state, r.trace⟩
  | .aborted e => ⟨.aborted e, r.state, r.trace⟩

end Step

/-- Calls a destructor. What it does with its object is its own affair; the state does not
change. -/
def Destructor.call {σ : Type} (conduct : Conduct) (d : Destructor) (s : σ) (h : Handle) :
    Step σ Unit :=
  .after [.destroyed d.label h] <|
    match conduct d with
    | .returns => .returning s ()
    | .panics message => .panicking s (.client message)
    | .transfers other => .transferring s other

namespace Step

variable {σ α β : Type}

/-! ## What chaining leaves -/

@[simp] theorem outcome_after (l : List Observation) (r : Step σ α) :
    (r.after l).outcome = r.outcome := rfl

@[simp] theorem state_after (l : List Observation) (r : Step σ α) :
    (r.after l).state = r.state := rfl

/-- What was observed before comes first. -/
@[simp] theorem trace_after (l : List Observation) (r : Step σ α) :
    (r.after l).trace = l ++ r.trace := rfl

@[simp] theorem after_nil (r : Step σ α) : r.after [] = r := rfl

@[simp] theorem outcome_map (f : α → β) (r : Step σ α) :
    (r.map f).outcome = r.outcome.map f := rfl

@[simp] theorem state_map (f : α → β) (r : Step σ α) : (r.map f).state = r.state := rfl

@[simp] theorem trace_map (f : α → β) (r : Step σ α) : (r.map f).trace = r.trace := rfl

theorem after_after (l m : List Observation) (r : Step σ α) :
    (r.after m).after l = r.after (l ++ m) := by
  simp [after]

@[simp] theorem returning_andThen (s : σ) (a : α) (next : α → σ → Step σ β) :
    (returning s a).andThen next = next a s := rfl

/-- What is observed first stays first. -/
theorem after_andThen (l : List Observation) (r : Step σ α) (next : α → σ → Step σ β) :
    (r.after l).andThen next = (r.andThen next).after l := by
  obtain ⟨o, s, t⟩ := r
  cases o <;> simp [andThen, after]

end Step

end ExceptionLifetime
