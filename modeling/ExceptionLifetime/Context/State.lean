/-
The state of exception handling of one thread.

A context holds the live exceptions, the catch scopes that are open, the
exception thrown last, and how many exceptions no handler has caught yet. It
asks two others: the hierarchy of types, which decides what a clause accepts,
and an allocator, which provides the storage.

Generated code reads and sets the flag that a call has thrown, and an observer
may follow the life of exceptions through a sink. Nothing a sink does has any
effect here, so a sink is just its number.
-/
import ExceptionLifetime.Hierarchy.Catching
import ExceptionLifetime.Registry.Basic
import ExceptionLifetime.Step

set_option autoImplicit false

namespace ExceptionLifetime

/-- The state of exception handling over an allocator of type `α`. -/
structure Context (α : Type) where
  types : Hierarchy
  allocator : α
  registry : Registry
  /-- The exceptions of the open catch scopes, the innermost first. -/
  scopes : List Handle
  /-- The exception thrown or resumed last, until a catch scope ends. -/
  lastThrown : Handle
  uncaught : Count
  threw : Bool
  /-- An exception reached a boundary that forbids it. -/
  aborted : Bool
  sink : Option Nat
  deriving DecidableEq

namespace Context

variable {α : Type}

/-- A context in which nothing has been thrown. -/
def fresh (types : Hierarchy) (allocator : α) : Context α :=
  ⟨types, allocator, Registry.empty, [], Handle.null, Count.zero, false, false, none⟩

/-- The number of open catch scopes. -/
def depth (c : Context α) : Nat := c.scopes.length

/-- Whether some exception has been thrown and not caught yet. -/
def anyUncaught (c : Context α) : Bool := !c.uncaught.isZero

/-- Shows an event to the sink, if there is one. -/
def seen (c : Context α) (e : Event) : List Observation :=
  match c.sink with
  | some sink => [.seen sink e]
  | none => []

/-- What the log says when `h` is resolved. -/
def resolution (c : Context α) (h : Handle) : List Observation :=
  (c.registry.resolution h).map .logged

/-- Reports a misuse in a checked build; in an unchecked one goes on with `otherwise`. -/
def reported {β : Type} (build : Build) (v : Violation) (c : Context α)
    (otherwise : Step (Context α) β) : Step (Context α) β :=
  match build with
  | .checked => .panicking c (.violation v)
  | .unchecked => otherwise

@[simp] theorem reported_checked {β : Type} (v : Violation) (c : Context α)
    (otherwise : Step (Context α) β) :
    reported .checked v c otherwise = .panicking c (.violation v) := rfl

@[simp] theorem reported_unchecked {β : Type} (v : Violation) (c : Context α)
    (otherwise : Step (Context α) β) : reported .unchecked v c otherwise = otherwise := rfl

/-- The handle of the exception that `h` leads to. -/
def resolve (c : Context α) (h : Handle) : Step (Context α) Handle :=
  ⟨.returned (c.registry.resolve h), c, c.resolution h⟩

/-- What is known about the exception that `h` leads to. -/
def record? (c : Context α) (h : Handle) : Step (Context α) (Option Record) :=
  ⟨.returned (c.registry.find? (c.registry.resolve h)), c, c.resolution h⟩

/-- The address of the object of a caught exception, which is its handle. -/
def exceptionPtr (c : Context α) (h : Handle) : Step (Context α) Handle := .returning c h

/-- Sets the flag that a call has thrown. -/
def setThrew (c : Context α) (threw : Bool) : Step (Context α) Unit :=
  .returning { c with threw } ()

/-- Installs a sink in place of the one before. -/
def setSink (c : Context α) (sink : Nat) : Step (Context α) Unit :=
  .returning { c with sink := some sink } ()

end Context

end ExceptionLifetime
