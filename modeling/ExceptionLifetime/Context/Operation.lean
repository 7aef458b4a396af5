/-
The calls that generated code makes, as data.

A run of a program is a list of calls, each seen by an interceptor of its own.
Everything a program can do to a context is one of these calls.
-/
import ExceptionLifetime.Context.Clause
import ExceptionLifetime.Context.Flight
import ExceptionLifetime.Context.Scope

set_option autoImplicit false

namespace ExceptionLifetime

/-- A call on a context. -/
inductive Operation where
  | allocate (size : UInt64)
  | free (handle : Handle)
  | throw (handle : Handle) (type : Option TypeTag) (destructor : Option Destructor)
  | throwIndexed (handle : Handle) (type : Option TypeTag) (table : DestructorTable)
      (index : Option UInt64)
  | resume (handle : Handle)
  | beginCatch (handle : Handle)
  | endCatch
  | exceptionPtr (handle : Handle)
  | rethrow
  | capture
  | rethrowCaptured (handle : Handle)
  | unexpected (handle : Handle)
  | retain (handle : Handle)
  | release (handle : Handle)
  | retainAny (handle : Handle)
  | releaseAny (handle : Handle)
  | resolve (handle : Handle)
  | record? (handle : Handle)
  | matchClause (clauses : List TypeTag)
  | setThrew (threw : Bool)
  | setSink (sink : Nat)
  deriving DecidableEq

/-- What a call that returns has to say. -/
inductive Reply where
  | nothing
  | handle (handle : Handle)
  | matched (clause : MatchedClause)
  | record (record : Option Record)
  deriving DecidableEq

namespace Context

variable {α : Type} [Allocator α]

/-- Performs a call, during which destructors behave as `conduct` says. -/
def perform (build : Build) (conduct : Conduct) (c : Context α) :
    Operation → Step (Context α) Reply
  | .allocate size => (c.allocate size).map .handle
  | .free h => (c.free h).map fun _ => .nothing
  | .throw h type d => (c.throw h type d).map fun _ => .nothing
  | .throwIndexed h type table i => (c.throwIndexed h type table i).map fun _ => .nothing
  | .resume h => (c.resume h).map fun _ => .nothing
  | .beginCatch h => (c.beginCatch h).map .handle
  | .endCatch => (c.endCatch build conduct).map fun _ => .nothing
  | .exceptionPtr h => (c.exceptionPtr h).map .handle
  | .rethrow => (c.rethrow build).map fun _ => .nothing
  | .capture => c.capture.map .handle
  | .rethrowCaptured h => (c.rethrowCaptured build h).map fun _ => .nothing
  | .unexpected h => (c.unexpected h).map fun _ => .nothing
  | .retain h => (c.retain h).map fun _ => .nothing
  | .release h => (c.release build conduct h).map fun _ => .nothing
  | .retainAny h => (c.retainAny h).map fun _ => .nothing
  | .releaseAny h => (c.releaseAny build conduct h).map fun _ => .nothing
  | .resolve h => (c.resolve h).map .handle
  | .record? h => (c.record? h).map .record
  | .matchClause clauses => (c.matchClause build clauses).map .matched
  | .setThrew b => (c.setThrew b).map fun _ => .nothing
  | .setSink i => (c.setSink i).map fun _ => .nothing

end Context

end ExceptionLifetime
