/-
Catch scopes.

A handler begins a scope with whatever handle it was given and ends it when it
is left. The scope holds a reference for as long as it is open. The first
handler that catches an exception takes it off the count of uncaught ones; any
handler that catches it ends a rethrow.
-/
import ExceptionLifetime.Context.Reference

set_option autoImplicit false

namespace ExceptionLifetime

namespace Context

variable {α : Type}

/-- The context in which a handler has caught the exception `h`, if it is alive. -/
def noteCaught (c : Context α) (h : Handle) : Context α :=
  match c.registry.find? h with
  | some r =>
    { c with
      registry := c.registry.insert r.nowCaught
      uncaught := if r.caught then c.uncaught else c.uncaught.down }
  | none => c

/-- Begins a catch scope for the exception that `h` leads to, and returns its own handle. -/
def beginCatch (c : Context α) (h : Handle) : Step (Context α) Handle :=
  (c.resolve h).andThen fun h c =>
  let c := c.noteCaught h
  let c := { c with scopes := h :: c.scopes }
  .after (.logged (.catchBegun h c.depth) :: c.seen (.catchBegun h c.depth)) <|
    (c.retain h).map fun _ => h

/-- Ends the innermost catch scope: gives back its reference and forgets what was thrown
last. The flag that a call has thrown is cleared even if no scope is open. -/
def endCatch [Allocator α] (build : Build) (conduct : Conduct) (c : Context α) :
    Step (Context α) Unit :=
  let c := { c with threw := false }
  match c.scopes with
  | [] => reported build .unbalancedEndCatch c (.returning c ())
  | h :: scopes =>
    -- what was thrown last is forgotten only after the reference is back, and not at all if
    -- the destructor does not return
    let c := { c with scopes }
    .after (.logged (.catchEnded h c.lastThrown c.depth) :: c.seen (.catchEnded h c.depth)) <|
      if h.isNull then .returning c ()
      else
        (c.releaseAny build conduct h).andThen fun _ c =>
        .returning { c with lastThrown := Handle.null } ()

end Context

end ExceptionLifetime
