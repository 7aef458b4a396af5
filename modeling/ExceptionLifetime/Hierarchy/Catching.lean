/-
Which clause accepts which object.

A clause accepts an object of its own class or of a class derived from it, and
receives the subobject of that class. A clause for a pointer accepts a thrown
pointer if the pointed-to types are so related. The object behind a thrown
pointer is never visited, so the pointer is passed on as it is.
-/
import ExceptionLifetime.Hierarchy.Search

set_option autoImplicit false

namespace ExceptionLifetime

namespace Hierarchy

/-- What a clause for type `clause` receives of an object of type `thrown` at `h`, if it
accepts it. Undeclared types are neither caught nor thrown. -/
def caughtAs? (t : Hierarchy) (clause thrown : TypeTag) (h : Handle) : Option Handle :=
  match t.kind? clause, t.kind? thrown with
  | some (.pointer wanted), some (.pointer pointee) => (t.upcast? pointee wanted).map fun _ => h
  | some _, some _ => (t.upcast? thrown clause).map h.displace
  | _, _ => none

/-- The first of the clauses that accepts the object, with what it receives. -/
def firstClause? (t : Hierarchy) (clauses : List TypeTag) (thrown : TypeTag) (h : Handle) :
    Option (Handle × TypeTag) :=
  clauses.findSome? fun clause => (t.caughtAs? clause thrown h).map fun a => (a, clause)

end Hierarchy

end ExceptionLifetime
