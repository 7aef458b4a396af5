/-
An allocator over memory that is obtained block by block.

The memory itself belongs to someone else, who answers a request for a block by
naming its start. What is named may depend on everything that was asked for and
given back before, so a placement is a function of those calls, and the heap
keeps them. Beside them the heap remembers the layout of each block in use:
that is what lets a block be given back by its handle alone, with the layout it
was obtained with, and what lets an unknown handle be refused.
-/
import ExceptionLifetime.Ascending
import ExceptionLifetime.Storage.Basic
import ExceptionLifetime.Storage.Layout

set_option autoImplicit false

namespace ExceptionLifetime

/-- A block of memory. -/
structure Block where
  start : Handle
  layout : Layout
  deriving DecidableEq

/-- A block of memory changes hands. -/
inductive MemoryCall where
  | obtained (block : Block)
  | released (block : Block)
  deriving DecidableEq

/-- Where memory places the next block, given the calls before, latest first. -/
abbrev Placement := List MemoryCall → Layout → Handle

/-- The blocks in use, and the calls of memory that led there, latest first. -/
structure Heap (place : Placement) where
  calls : List MemoryCall
  live : Ascending Block (fun b => b.start.toNat)
  deriving DecidableEq

namespace Heap

variable {place : Placement}

/-- A heap without blocks. -/
def empty : Heap place := ⟨[], Ascending.empty⟩

/-- The number of blocks in use. -/
def count (m : Heap place) : Nat := m.live.size

/-- Obtains a block for an object of `size` bytes. A size without a layout is refused before
memory is asked. -/
def allocate (m : Heap place) (size : UInt64) : Except OversizedRequest (Handle × Heap place) :=
  match Layout.forObject? size with
  | none => .error ⟨size⟩
  | some layout =>
    let block : Block := ⟨place m.calls layout, layout⟩
    .ok (block.start, ⟨.obtained block :: m.calls, m.live.insert block⟩)

/-- Gives a block back. -/
def release (m : Heap place) (block : Block) : Heap place :=
  ⟨.released block :: m.calls, m.live.erase block.start.toNat⟩

/-- Gives back the block that starts at `h`. -/
def free (m : Heap place) (h : Handle) : Except UnknownStorage (Heap place) :=
  match m.live.find? h.toNat with
  | none => .error ⟨h⟩
  | some block => .ok (m.release block)

/-- Gives back every block still in use, in ascending order of address. -/
def close (m : Heap place) : Heap place := m.live.toList.foldl release m

instance : Allocator (Heap place) := ⟨allocate, free⟩

end Heap

/-- Memory that places every block behind all earlier ones, sixteen bytes apart, from `base`
upwards, and never uses a place again. -/
def Placement.upward (base : UInt64) : Placement := fun calls _ =>
  ⟨calls.foldr (fun
    | .obtained block, next => next + block.layout.size + objectAlign
    | .released _, next => next) base⟩

end ExceptionLifetime
