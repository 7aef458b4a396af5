/-
Misuse of the protocol, and how much of it is reported.

Generated code has to end every scope it begins and give back every reference
it takes. Code that does not is reported in a checked build, by a panic. In an
unchecked build the offending step is left out and nothing is said.
-/
import ExceptionLifetime.Handle.Basic

set_option autoImplicit false

namespace ExceptionLifetime

/-- Whether misuse is reported. -/
inductive Build where
  | checked
  | unchecked
  deriving DecidableEq

/-- A misuse of the protocol. -/
inductive Violation where
  | refcountUnderflow (handle : Handle)
  | unbalancedEndCatch
  | rethrowWithoutException
  | aliasCollision (name owner other : Handle)
  deriving DecidableEq

/-- The misuse in words. -/
def Violation.message : Violation → String
  | refcountUnderflow handle =>
    s!"refcount underflow: exception {handle} is already at refcount 0"
  | unbalancedEndCatch => "unbalanced end_catch: the catch stack is empty"
  | rethrowWithoutException => "rethrow without an active exception"
  | aliasCollision name owner other =>
    s!"alias {name} of exception {owner} already resolves to exception {other}"

end ExceptionLifetime
