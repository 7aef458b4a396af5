/-
References to exceptions.

An exception is destroyed when its last reference is given back, unless it is
being rethrown: the handler that catches it next takes a reference of its own
and gives that back later. Destruction forgets the record first, so that a
destructor that throws or looks around finds the exception gone. If the
destructor does not return, the rest of the destruction does not happen.
-/
import ExceptionLifetime.Context.Storage

set_option autoImplicit false

namespace ExceptionLifetime

namespace Context

variable {α : Type}

/-- Takes a reference to the exception with this very handle. The null handle and unknown
handles are ignored. -/
def retain (c : Context α) (h : Handle) : Step (Context α) Unit :=
  if h.isNull then .returning c ()
  else
    match c.registry.find? h with
    | none => ⟨.returned (), c, [.logged (.retainedUnknown h)]⟩
    | some r =>
      let r := r.retained
      ⟨.returned (), { c with registry := c.registry.insert r },
        .logged (.retained h r.refcount) :: c.seen (.retained h r.refcount)⟩

/-- Takes a reference to the exception that `h` leads to. -/
def retainAny (c : Context α) (h : Handle) : Step (Context α) Unit :=
  (c.resolve h).andThen fun h c => c.retain h

/-- Captures the exception of the innermost catch scope, taking a reference to it. Outside
every scope there is nothing to capture. -/
def capture (c : Context α) : Step (Context α) Handle :=
  match c.scopes with
  | [] => .returning c Handle.null
  | top :: _ =>
    if top.isNull then .returning c Handle.null
    else (c.resolve top).andThen fun h c => (c.retain h).map fun _ => h

/-! ## Giving references back -/

/-- Calls the destructor of an exception, if it has one. -/
def destruct (conduct : Conduct) (c : Context α) (h : Handle) :
    Option Destructor → Step (Context α) Unit
  | none => .returning c ()
  | some d => d.call conduct c h

variable [Allocator α]

/-- Destroys a dead exception: forgets it, calls its destructor, hands back its storage. -/
def destroy (conduct : Conduct) (c : Context α) (r : Record) : Step (Context α) Unit :=
  -- the record goes first, so a destructor that is left early is never called again
  let forgotten := { c with registry := c.registry.erase r.handle }
  (forgotten.destruct conduct r.handle r.destructor).andThen fun _ c =>
  (c.free r.handle).andThen fun _ c =>
  ⟨.returned (), c,
    .logged (.freed r.handle c.lastThrown c.depth) :: c.seen (.destroyed r.handle)⟩

/-- Gives back a reference to the exception with this very handle, and destroys it if that
was the last. The null handle and unknown handles are ignored. -/
def release (build : Build) (conduct : Conduct) (c : Context α) (h : Handle) :
    Step (Context α) Unit :=
  if h.isNull then .returning c ()
  else
    match c.registry.find? h with
    | none => ⟨.returned (), c, [.logged (.releasedUnknown h)]⟩
    | some r =>
      if r.refcount.isZero then
        reported build (.refcountUnderflow h) c (.returning c ())
      else
        -- a rethrown exception is kept without references, and its count is kept with it
        let r := r.released
        let c' := { c with registry := c.registry.insert r }
        .after (.logged (.released h r.refcount) :: c.seen (.released h r.refcount)) <|
          if r.isDead then c'.destroy conduct r else .returning c' ()

/-- Gives back a reference to the exception that `h` leads to. -/
def releaseAny (build : Build) (conduct : Conduct) (c : Context α) (h : Handle) :
    Step (Context α) Unit :=
  (c.resolve h).andThen fun h c => c.release build conduct h

end Context

end ExceptionLifetime
