/-
The calls that build a hierarchy, as data.

Types are declared and classes are given bases, one call after the other. A base
that is refused is reported to the caller, who may go on with the hierarchy as it
was.
-/
import ExceptionLifetime.Hierarchy.Search

set_option autoImplicit false

namespace ExceptionLifetime

/-- A call that may add to a hierarchy. -/
inductive Declaration where
  | declare (name : String)
  | declareHost (host : HostType)
  | pointerTo (pointee : TypeTag)
  | addBase (derived base : TypeTag) (offset : Int64)
  deriving DecidableEq

namespace Hierarchy

/-- What a call answers, and the hierarchy that it leaves. -/
def perform (t : Hierarchy) : Declaration → Except BaseRefusal (Option TypeTag) × Hierarchy
  | .declare name =>
    let (type, t') := t.declare name
    (.ok (some type), t')
  | .declareHost host =>
    let (type, t') := t.declareHost host
    (.ok (some type), t')
  | .pointerTo pointee =>
    let (type, t') := t.pointerTo pointee
    (.ok (some type), t')
  | .addBase derived base offset =>
    match t.addBase derived base offset with
    | .ok t' => (.ok none, t')
    | .error e => (.error e, t)

/-- The hierarchy after these calls, whether or not bases were refused among them. -/
def extended (t : Hierarchy) : List Declaration → Hierarchy
  | [] => t
  | d :: l => (t.perform d).2.extended l

end Hierarchy

end ExceptionLifetime
