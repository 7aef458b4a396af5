/-
Storage for exception objects, and what happens to it when a context ends.

Storage that an allocator refuses to take back is logged and otherwise ignored:
by then nobody is left who could do anything about it. A context that ends hands
back the storage of the exceptions that are still alive. Their destructors do
not run, since the objects may refer to what is gone already.
-/
import ExceptionLifetime.Context.State

set_option autoImplicit false

namespace ExceptionLifetime

namespace Context

variable {α : Type} [Allocator α]

/-- Storage for an exception object of `size` bytes. -/
def allocate (c : Context α) (size : UInt64) : Step (Context α) Handle :=
  match Allocator.allocate c.allocator size with
  | .ok (h, allocator) => ⟨.returned h, { c with allocator }, [.allocated h size]⟩
  | .error e => .aborting c (.oversized e)

/-- Hands storage back; `refused` words the refusal for the log. -/
def handBack (refused : UnknownStorage → LogEntry) (c : Context α) (h : Handle) :
    Step (Context α) Unit :=
  match Allocator.free c.allocator h with
  | .ok allocator => ⟨.returned (), { c with allocator }, [.freed h true]⟩
  | .error e => ⟨.returned (), c, [.freed h false, .logged (refused e)]⟩

/-- Hands back storage, say of an object whose construction failed. -/
def free (c : Context α) (h : Handle) : Step (Context α) Unit := handBack .freeRefused c h

/-- Hands back the storage of each of these exceptions in turn. -/
def freeAll (c : Context α) : List Handle → Step (Context α) Unit
  | [] => .returning c ()
  | h :: rest => (handBack .teardownRefused c h).andThen fun _ c' => freeAll c' rest

/-- Ends the context: live exceptions are forgotten and their storage handed back, in
ascending order of handle. -/
def teardown (c : Context α) : Step (Context α) Unit :=
  let alive := c.registry.toList.map Record.handle
  let closed := freeAll { c with registry := Registry.empty } alive
  if alive.isEmpty then closed
  else closed.after [.logged (.aliveAtTeardown alive.length)]

end Context

end ExceptionLifetime
