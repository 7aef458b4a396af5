/-
The blocks that hold exception objects.

A block starts at a multiple of sixteen and its size is one, so that any object
that can be thrown fits where its block starts. An object of no bytes still
needs an address of its own and gets a block of sixteen. Sizes are words, and
the next multiple of sixteen is not one for the last few of them. Such a size
has no layout, and neither has one whose block would take half of the address
space or more.
-/

set_option autoImplicit false

namespace ExceptionLifetime

/-- The alignment of exception objects, in bytes. -/
def objectAlign : UInt64 := 16

/-- The largest size a block can have. A block is smaller than half of the address space, and would
still be so if all that rounding to the alignment can add were added to it. -/
def largestBlock : UInt64 := .ofNat (UInt64.size / 2 - 1) - (objectAlign - 1)

/-- The sum of two words, if it is a word. -/
def wordSum? (a b : UInt64) : Option UInt64 :=
  if h : a.toNat + b.toNat < UInt64.size then some (.ofNatLT (a.toNat + b.toNat) h) else none

/-- The next multiple of the alignment that is not below `size`, if it is a word. -/
def nextMultiple? (size : UInt64) : Option UInt64 :=
  let excess := size % objectAlign
  if excess = 0 then some size else wordSum? size (objectAlign - excess)

/-- The size and alignment of a block. -/
structure Layout where
  size : UInt64
  align : UInt64
  deriving DecidableEq

/-- The layout for an object of `size` bytes, if it is not too large. -/
def Layout.forObject? (size : UInt64) : Option Layout :=
  match nextMultiple? (max size 1) with
  | none => none
  | some rounded => if largestBlock < rounded then none else some ⟨rounded, objectAlign⟩

/-! ## Words as natural numbers -/

@[simp] theorem toNat_objectAlign : objectAlign.toNat = 16 := rfl

@[simp] theorem toNat_largestBlock : largestBlock.toNat = 0x7ffffffffffffff0 := rfl

/-- A sum of words is that of numbers where it is a word. -/
theorem wordSum?_eq_some_iff {a b c : UInt64} :
    wordSum? a b = some c ↔ c.toNat = a.toNat + b.toNat := by
  unfold wordSum?
  split
  · rw [Option.some.injEq, ← UInt64.toNat_inj, UInt64.toNat_ofNatLT, eq_comm]
  next h =>
    refine iff_of_false (by simp) fun heq => h ?_
    rw [← heq]
    exact c.toNat_lt

end ExceptionLifetime
