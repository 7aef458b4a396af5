/-
Events in the life of an exception, as an installed sink sees them.
-/
import ExceptionLifetime.Count
import ExceptionLifetime.TypeTag

set_option autoImplicit false

namespace ExceptionLifetime

/-- An event in the life of an exception. Depths and reference counts are those after the
event. -/
inductive Event where
  | thrown (handle : Handle) (type : Option TypeTag)
  | resumed (handle : Handle)
  | catchBegun (handle : Handle) (depth : Nat)
  | catchEnded (handle : Handle) (depth : Nat)
  | rethrown (handle : Handle) (depth : Nat)
  | retained (handle : Handle) (refcount : Count)
  | released (handle : Handle) (refcount : Count)
  /-- The destructor, if any, has returned and the storage was handed back. -/
  | destroyed (handle : Handle)
  /-- A clause was chosen, or none accepts: then the selector is the thrown type. -/
  | matched (handle adjusted : Handle) (selector : Option TypeTag) (pointer : Bool)
  | unexpected (handle : Handle)
  deriving DecidableEq

end ExceptionLifetime
