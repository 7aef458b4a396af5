/-
What is known about one live exception.

A record is made when an exception is thrown and is kept until its last
reference is given back. It starts without references: the first one is taken
when a handler begins to catch it. An exception that is being rethrown is kept
although nobody may hold a reference to it, until some handler catches it again.
-/
import ExceptionLifetime.Count
import ExceptionLifetime.Destructor
import ExceptionLifetime.Handle.Set
import ExceptionLifetime.TypeTag

set_option autoImplicit false

namespace ExceptionLifetime

/-- A live exception. It goes by its handle and by every alias that matching has given it,
and its own handle is among them. -/
structure Record where
  handle : Handle
  aliases : HandleSet
  type : Option TypeTag
  destructor : Option Destructor
  refcount : Count
  /-- Some handler has caught it. -/
  caught : Bool
  /-- It was rethrown and no handler has caught it since. -/
  rethrown : Bool
  handle_mem : handle ∈ aliases
  deriving DecidableEq

namespace Record

/-- The record of an exception that has just been thrown. -/
def fresh (h : Handle) (type : Option TypeTag) (d : Option Destructor) : Record :=
  ⟨h, HandleSet.single h, type, d, Count.zero, false, false, (HandleSet.mem_single h h).2 rfl⟩

/-- Whether the exception goes by `h`. -/
def hasAlias (r : Record) (h : Handle) : Bool := r.aliases.has h

/-- The exception under one more name. -/
def withAlias (r : Record) (h : Handle) : Record :=
  { r with
    aliases := r.aliases.insert h
    handle_mem := (HandleSet.mem_insert r.aliases r.handle h).2 (.inr r.handle_mem) }

/-- One more reference. -/
def retained (r : Record) : Record := { r with refcount := r.refcount.up }

/-- One reference less. -/
def released (r : Record) : Record := { r with refcount := r.refcount.down }

/-- Caught by a handler, which ends any rethrow. -/
def nowCaught (r : Record) : Record := { r with caught := true, rethrown := false }

/-- On its way to another handler. -/
def nowRethrown (r : Record) : Record := { r with rethrown := true }

/-- Nobody holds a reference and no rethrow keeps the exception. -/
def isDead (r : Record) : Bool := r.refcount.isZero && !r.rethrown

/-- The record as it is shown. -/
def describe (r : Record) : String :=
  "ExceptionRecord \x7b " ++
    s!"handle: {r.handle.describe}, aliases: {r.aliases.describe}, " ++
    s!"type_tag: {TypeTag.describe? r.type}, destructor: {r.destructor.isSome}, " ++
    s!"refcount: {r.refcount}, caught: {r.caught}, rethrown: {r.rethrown}" ++ " \x7d"

end Record

end ExceptionLifetime
