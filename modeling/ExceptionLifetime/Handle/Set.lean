/-
Finite sets of handles, listed by address.

An exception is known by its own handle and by every handle that matching has
derived from it; storage is known by the handles still in use. Both are sets,
and both are shown and walked in ascending order of address.
-/
import ExceptionLifetime.Ascending
import ExceptionLifetime.Handle.Basic

set_option autoImplicit false

namespace ExceptionLifetime

/-- A finite set of handles. -/
abbrev HandleSet := Ascending Handle Handle.toNat

namespace HandleSet

/-- The set of one handle. -/
def single (h : Handle) : HandleSet := Ascending.empty.insert h

/-- Whether the handle is in the set. -/
def has (s : HandleSet) (h : Handle) : Bool := s.contains h.toNat

/-- The handles between braces, as they are shown inside a larger value. -/
def describe (s : HandleSet) : String :=
  "\x7b" ++ ", ".intercalate (s.toList.map Handle.describe) ++ "\x7d"

@[simp] theorem has_iff (s : HandleSet) (h : Handle) : s.has h = true ↔ h ∈ s := by
  rw [has, Ascending.contains, Option.isSome_iff_exists]
  constructor
  · rintro ⟨a, ha⟩
    obtain ⟨ha, hk⟩ := Ascending.find?_eq_some_iff.1 ha
    exact Handle.ext_toNat hk ▸ ha
  · intro hm
    exact ⟨h, Ascending.find?_eq_some_iff.2 ⟨hm, rfl⟩⟩

@[simp] theorem mem_single (a h : Handle) : a ∈ single h ↔ a = h := by
  simp [single, Ascending.mem_insert]

/-- Adding a handle adds that one only. -/
theorem mem_insert (s : HandleSet) (a h : Handle) : a ∈ s.insert h ↔ a = h ∨ a ∈ s := by
  rw [Ascending.mem_insert, ne_eq, Handle.toNat_inj]
  constructor
  · rintro (ha | ⟨ha, _⟩)
    · exact .inl ha
    · exact .inr ha
  · rintro (ha | ha)
    · exact .inl ha
    · exact (Decidable.em (a = h)).imp id fun hne => ⟨ha, hne⟩

end HandleSet

end ExceptionLifetime
