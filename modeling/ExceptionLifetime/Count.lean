/-
Counts that stop at the largest 64-bit word.

References to an exception and exceptions not yet caught are counted in words.
A count at the top stays there when something is added, and a count at zero
stays there when something is taken away, so neither direction ever wraps and
a count is never smaller than it should be by a whole turn of the word.
-/

set_option autoImplicit false

namespace ExceptionLifetime

/-- A number of things held in one 64-bit word. -/
structure Count where
  toNat : Nat
  toNat_lt : toNat < UInt64.size
  deriving DecidableEq

namespace Count

/-- Nothing counted. -/
def zero : Count := ⟨0, by decide⟩

/-- One more, unless the word is full. -/
def up (n : Count) : Count :=
  if h : n.toNat + 1 < UInt64.size then ⟨n.toNat + 1, h⟩ else n

/-- One less, unless nothing is left. -/
def down (n : Count) : Count := ⟨n.toNat - 1, by have := n.toNat_lt; omega⟩

/-- Whether nothing is counted. -/
def isZero (n : Count) : Bool := n.toNat == 0

instance : Inhabited Count := ⟨zero⟩

instance : ToString Count := ⟨fun n => toString n.toNat⟩

/-! ## Counts as natural numbers -/

theorem ext_toNat {m n : Count} (h : m.toNat = n.toNat) : m = n := by
  cases m
  cases n
  cases h
  rfl

@[simp] theorem toNat_zero : zero.toNat = 0 := rfl

/-- Adding one saturates at the largest word. -/
theorem toNat_up (n : Count) : n.up.toNat = min (n.toNat + 1) (UInt64.size - 1) := by
  have := n.toNat_lt
  unfold up
  split
  · simp only
    omega
  · omega

/-- Below the largest word, adding one adds one. -/
theorem toNat_up_of_lt {n : Count} (h : n.toNat + 1 < UInt64.size) :
    n.up.toNat = n.toNat + 1 := by
  rw [toNat_up]
  omega

/-- A count of zero does not go below. -/
@[simp] theorem toNat_down (n : Count) : n.down.toNat = n.toNat - 1 := rfl

theorem isZero_iff (n : Count) : n.isZero = true ↔ n = zero :=
  ⟨fun h => ext_toNat (by simpa [isZero] using h), fun h => by simp [isZero, h]⟩

end Count

end ExceptionLifetime
