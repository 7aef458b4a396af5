/-
The log.

Each entry states one fact, has a fixed level, and is worded here and nowhere
else. Whether an entry is kept is up to whoever reads the log.
-/
import ExceptionLifetime.Count
import ExceptionLifetime.Outcome
import ExceptionLifetime.TypeTag

set_option autoImplicit false

namespace ExceptionLifetime

/-- How much an entry matters. -/
inductive LogLevel where
  | error
  | warn
  | info
  | debug
  | trace
  deriving DecidableEq

/-- The place of a level among the levels, the gravest first. -/
def LogLevel.rank : LogLevel → Nat
  | error => 1
  | warn => 2
  | info => 3
  | debug => 4
  | trace => 5

/-- A fact worth logging. -/
inductive LogEntry where
  | resolved (handle owner : Handle)
  | unknownHandle (handle : Handle)
  | throwing (handle : Handle) (type : Option TypeTag)
  | thrownWhileAlive (handle : Handle)
  | resuming (handle lastThrown : Handle)
  | catchBegun (handle : Handle) (depth : Nat)
  | catchEnded (handle lastThrown : Handle) (depth : Nat)
  | retained (handle : Handle) (refcount : Count)
  | retainedUnknown (handle : Handle)
  | released (handle : Handle) (refcount : Count)
  | releasedUnknown (handle : Handle)
  | freed (handle lastThrown : Handle) (depth : Nat)
  | freeRefused (cause : UnknownStorage)
  | rethrowing (handle : Handle) (depth : Nat)
  | rethrowingUnknown (handle : Handle)
  | rethrowingUnknownPrimary (handle : Handle)
  | unexpected (handle : Handle)
  | matching (handle : Handle) (type : TypeTag) (pointer : Bool)
  | clauseFound (adjusted : Handle) (clause : TypeTag)
  | noClause (handle : Handle)
  | aliveAtTeardown (count : Nat)
  | teardownRefused (cause : UnknownStorage)
  | fault (cause : Fault)
  deriving DecidableEq

namespace LogEntry

/-- The level of an entry. -/
def level : LogEntry → LogLevel
  | resolved .. | retained .. | retainedUnknown .. | released .. | releasedUnknown .. => .trace
  | throwing .. | resuming .. | catchBegun .. | catchEnded .. | freed .. | rethrowing ..
  | matching .. | clauseFound .. | noClause .. => .debug
  | unknownHandle .. | thrownWhileAlive .. | freeRefused .. | rethrowingUnknown ..
  | rethrowingUnknownPrimary .. | aliveAtTeardown .. | teardownRefused .. => .warn
  | unexpected .. | fault .. => .error

/-- The text of an entry. -/
def text : LogEntry → String
  | resolved h owner => s!"de-adjusted exception {h} to {owner}"
  | unknownHandle h => s!"no de-adjustment for unknown exception {h}"
  | throwing h type => s!"throwing exception {h} ({TypeTag.describe? type})"
  | thrownWhileAlive h => s!"exception {h} was thrown again while still alive"
  | resuming h last => s!"resuming exception {h}, last thrown {last}"
  | catchBegun h depth => s!"begin_catch {h}, {depth} catch scopes"
  | catchEnded h last depth => s!"end_catch popped {h}, last thrown {last}, {depth} catch scopes"
  | retained h refcount => s!"addref {h} -> {refcount}"
  | retainedUnknown h => s!"addref on unknown exception {h}"
  | released h refcount => s!"decref {h} -> {refcount}"
  | releasedUnknown h => s!"decref on unknown exception {h}"
  | freed h last depth =>
    s!"decref freeing exception {h}, last thrown {last}, {depth} catch scopes"
  | freeRefused e => s!"exception during free_exception: {e.message}"
  | rethrowing h depth => s!"rethrowing exception {h}, {depth} catch scopes"
  | rethrowingUnknown h => s!"rethrowing unknown exception {h}"
  | rethrowingUnknownPrimary h => s!"rethrowing unknown primary exception {h}"
  | unexpected h =>
    s!"unexpected exception {h} thrown, this is not properly supported - aborting"
  | matching h type pointer => s!"can_catch on {h} ({type.describe}, pointer: {pointer})"
  | clauseFound h clause => s!"can_catch found {h} for {clause.describe}"
  | noClause h => s!"no catch clause accepts {h}"
  | aliveAtTeardown n => s!"{n} exceptions still alive at teardown"
  | teardownRefused e => s!"exception during teardown: {e.message}"
  | fault e => e.message

end LogEntry

end ExceptionLifetime
