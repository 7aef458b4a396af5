/-
What can be observed of a call beside how it ends, in the order it happens.
-/
import ExceptionLifetime.Trace.Event
import ExceptionLifetime.Trace.LogEntry

set_option autoImplicit false

namespace ExceptionLifetime

/-- Something a call does that others can see. -/
inductive Observation where
  | logged (entry : LogEntry)
  /-- The sink of that number saw an event. -/
  | seen (sink : Nat) (event : Event)
  /-- The destructor of that label was called. -/
  | destroyed (label : Nat) (handle : Handle)
  /-- The allocator provided storage. -/
  | allocated (handle : Handle) (size : UInt64)
  /-- The allocator was asked to take storage back, and did so or refused. -/
  | freed (handle : Handle) (accepted : Bool)
  deriving DecidableEq

end ExceptionLifetime
