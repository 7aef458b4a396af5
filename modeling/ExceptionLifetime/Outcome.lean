/-
How a call ends.

A call returns a value, or it transfers an exception to the closest
interceptor, or it panics, or it ends the process. A transfer and a panic leave
every frame on their way; what the frames have done before stays done. An
interceptor turns a transfer that reaches it into a value and lets everything
else pass.
-/
import ExceptionLifetime.Destructor
import ExceptionLifetime.Storage.Basic
import ExceptionLifetime.Violation

set_option autoImplicit false

namespace ExceptionLifetime

/-- Why a call panics. -/
inductive Panic where
  | violation (v : Violation)
  /-- The context of the thread is lent to a call that has not ended yet. -/
  | lent
  | tableOverflow (cause : TableOverflow)
  /-- Code of the client panicked. -/
  | client (message : String)
  deriving DecidableEq

/-- The panic in words. -/
def Panic.message : Panic → String
  | violation v => s!"exception protocol violation: {v.message}"
  | lent => "the context of this thread is already lent"
  | tableOverflow cause => cause.message
  | client message => message

/-- Why the process ends. -/
inductive Fault where
  | unresolvedDestructor (handle : Handle) (cause : UnregisteredIndex)
  | oversized (request : OversizedRequest)
  | rethrowOutsideCatch
  /-- Code that runs while frames are left would leave a frame itself. -/
  | unwoundTwice
  deriving DecidableEq

/-- What the process says when it ends. -/
def Fault.message : Fault → String
  | unresolvedDestructor handle cause =>
    s!"cannot throw exception {handle}: {cause.message}. The process will now terminate."
  | oversized request => request.message
  | rethrowOutsideCatch =>
    "rethrow without an active exception. The process will now terminate."
  | unwoundTwice => "thread caused non-unwinding panic. aborting."

/-- How a call ends. -/
inductive Outcome (α : Type) where
  | returned (value : α)
  | transferred (handle : Handle)
  | panicked (cause : Panic)
  | aborted (cause : Fault)
  deriving DecidableEq

namespace Outcome

variable {α β : Type}

/-- The same ending with another value. -/
def map (f : α → β) : Outcome α → Outcome β
  | returned a => returned (f a)
  | transferred h => transferred h
  | panicked p => panicked p
  | aborted e => aborted e

/-- A call seen by the closest interceptor: transfers land, all else passes. -/
def intercept : Outcome α → Outcome (Except Handle α)
  | returned a => returned (.ok a)
  | transferred h => returned (.error h)
  | panicked p => panicked p
  | aborted e => aborted e

end Outcome

end ExceptionLifetime
