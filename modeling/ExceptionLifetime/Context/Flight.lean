/-
Exceptions on their way to a handler.

Every call here that puts an exception on its way ends by transferring it to the
closest interceptor. A rethrown exception is caught twice: the scope that
rethrows it is still ended while frames are left, and the handler further out
begins a scope of its own. So the exception stays on the stack of scopes and is
marked, which keeps it alive when the first scope gives back its reference. A
captured exception has no scope that rethrows it. It is given one for the time
of the call, and the mark tells that this one is to go.
-/
import ExceptionLifetime.Context.State

set_option autoImplicit false

namespace ExceptionLifetime

namespace Context

variable {α : Type}

/-- The context after an exception was registered as thrown. One that is thrown again while
alive takes the place of itself, and counts as uncaught only once. -/
def noteThrown (c : Context α) (r : Record) : Context α :=
  let uncaught :=
    match c.registry.find? r.handle with
    | some stale => if stale.caught then c.uncaught else c.uncaught.down
    | none => c.uncaught
  { c with
    registry := c.registry.insert r
    lastThrown := r.handle
    uncaught := uncaught.up
    threw := true }

/-- Throws the exception stored at `h`. -/
def throw (c : Context α) (h : Handle) (type : Option TypeTag) (d : Option Destructor) :
    Step (Context α) Unit :=
  let again : List Observation :=
    if c.registry.contains h then [.logged (.thrownWhileAlive h)] else []
  ⟨.transferred h, c.noteThrown (.fresh h type d),
    .logged (.throwing h type) :: again ++ c.seen (.thrown h type)⟩

/-- Throws with a destructor named by its index in a table. An index without a destructor
ends the process before anything is thrown. -/
def throwIndexed (c : Context α) (h : Handle) (type : Option TypeTag) (table : DestructorTable)
    (index : Option UInt64) : Step (Context α) Unit :=
  match index with
  | none => c.throw h type none
  | some index =>
    match table.resolve index with
    | .ok d => c.throw h type (some d)
    | .error e => .aborting c (.unresolvedDestructor h e)

/-- Goes on with an exception that a landing pad did not handle. It becomes the one thrown
last only if there is none. -/
def resume (c : Context α) (h : Handle) : Step (Context α) Unit :=
  let last := if c.lastThrown.isNull then h else c.lastThrown
  ⟨.transferred h, { c with lastThrown := last, threw := true },
    .logged (.resuming h c.lastThrown) :: c.seen (.resumed h)⟩

/-! ## Rethrowing -/

/-- Transfers a rethrown exception. -/
def launch (c : Context α) (h : Handle) : Step (Context α) Unit :=
  ⟨.transferred h, { c with lastThrown := h, threw := true }, c.seen (.rethrown h c.depth)⟩

/-- The context in which the exception `h` was taken from the innermost scope to be
rethrown. If it was marked before, the scope is gone for good. -/
def noteRethrown (c : Context α) (h : Handle) : Context α :=
  match c.registry.find? h with
  | some r =>
    if r.rethrown then c
    else { c with registry := c.registry.insert r.nowRethrown, scopes := h :: c.scopes }
  | none => { c with scopes := h :: c.scopes }

/-- Rethrows the exception of the innermost catch scope. Outside every scope that ends the
process, where it is not reported as a misuse before. -/
def rethrow (build : Build) (c : Context α) : Step (Context α) Unit :=
  match c.scopes with
  | [] => reported build .rethrowWithoutException c (.aborting c .rethrowOutsideCatch)
  | top :: scopes =>
    ({ c with scopes }.resolve top).andThen fun h c =>
    let unknown : List Observation :=
      if c.registry.contains h then [] else [.logged (.rethrowingUnknown h)]
    -- the depth told below counts the scope again if it stays
    let c := c.noteRethrown h
    ((c.launch h).after [.logged (.rethrowing h c.depth)]).after unknown

/-- Rethrows a captured exception. There is nothing to do for the null handle. -/
def rethrowCaptured (build : Build) (c : Context α) (h : Handle) : Step (Context α) Unit :=
  if h.isNull then .returning c ()
  else
    (c.resolve h).andThen fun h c =>
    match c.registry.find? h with
    | none => (c.launch h).after [.logged (.rethrowingUnknownPrimary h)]
    | some r =>
      rethrow build
        { c with registry := c.registry.insert r.nowRethrown, scopes := h :: c.scopes }

/-- An exception reached a boundary that forbids it. The context is marked and the exception
goes on to the closest interceptor, whose owner decides how to end. -/
def unexpected (c : Context α) (h : Handle) : Step (Context α) Unit :=
  ⟨.transferred h, { c with aborted := true },
    .logged (.unexpected h) :: c.seen (.unexpected h)⟩

end Context

end ExceptionLifetime
