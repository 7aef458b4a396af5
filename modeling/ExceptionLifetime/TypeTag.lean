/-
Type tags, the names types go by.

A tag is a positive number. Zero is left to mean that no type is known, which
everywhere else is said by an option.
-/
import ExceptionLifetime.Handle.Basic

set_option autoImplicit false

namespace ExceptionLifetime

/-- The number of a type in a hierarchy. -/
structure TypeTag where
  raw : Nat
  raw_pos : 0 < raw
  deriving DecidableEq

namespace TypeTag

/-- The tag with this number, if it is one. -/
def ofNat? (n : Nat) : Option TypeTag :=
  if h : 0 < n then some ⟨n, h⟩ else none

/-- The tag as it is shown inside a larger value. -/
def describe (t : TypeTag) : String := s!"TypeTag({hexText t.raw})"

/-- A tag that may be missing, as it is shown. -/
def describe? : Option TypeTag → String
  | none => "None"
  | some t => s!"Some({t.describe})"

theorem ext_raw {s t : TypeTag} (h : s.raw = t.raw) : s = t := by
  cases s
  cases t
  cases h
  rfl

@[simp] theorem ofNat?_raw (t : TypeTag) : ofNat? t.raw = some t := by
  simp [ofNat?, t.raw_pos]

end TypeTag

end ExceptionLifetime
