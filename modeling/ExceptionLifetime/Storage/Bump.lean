/-
An allocator that only moves forward.

Each object is placed behind the one before it, and storage that is handed back
is not used again. Only which addresses are in use is remembered. At the end of
the address space the next address starts over at the bottom.
-/
import ExceptionLifetime.Handle.Set
import ExceptionLifetime.Storage.Basic
import ExceptionLifetime.Storage.Layout

set_option autoImplicit false

namespace ExceptionLifetime

/-- The next multiple of the alignment that is not below `size`, in a word: past the last
multiple the sum wraps to zero. -/
def roundUp (size : UInt64) : UInt64 := (size + (objectAlign - 1)) / objectAlign * objectAlign

/-- The next free address and the addresses in use. -/
structure Bump where
  next : UInt64
  live : HandleSet
  deriving DecidableEq

namespace Bump

/-- An allocator that starts at `base`. -/
def startingAt (base : UInt64) : Bump := ⟨base, Ascending.empty⟩

/-- The number of addresses in use. -/
def count (m : Bump) : Nat := m.live.size

/-- Hands out the next address, whatever the size. -/
def allocate (m : Bump) (size : UInt64) : Handle × Bump :=
  (⟨m.next⟩, ⟨m.next + roundUp (max size 1), m.live.insert ⟨m.next⟩⟩)

/-- Takes back an address in use. -/
def free (m : Bump) (h : Handle) : Except UnknownStorage Bump :=
  if m.live.has h then .ok { m with live := m.live.erase h.toNat } else .error ⟨h⟩

instance : Allocator Bump := ⟨fun m size => .ok (m.allocate size), free⟩

/-! ## What is in use -/

/-- An allocation adds one live address. -/
theorem mem_live_allocate (m : Bump) (size : UInt64) (a : Handle) :
    a ∈ (m.allocate size).2.live ↔ a = ⟨m.next⟩ ∨ a ∈ m.live :=
  HandleSet.mem_insert m.live a ⟨m.next⟩

/-- An address is taken back exactly if it is in use. -/
theorem free_isOk (m : Bump) (h : Handle) : (m.free h).isOk = true ↔ h ∈ m.live := by
  rw [← HandleSet.has_iff, free]
  cases m.live.has h <;> simp [Except.isOk, Except.toBool]

end Bump

end ExceptionLifetime
