/-
Handles, the names exceptions go by.

A handle is the address of the storage of a thrown object, or an address
inside it that a conversion to a base class has produced. The runtime never
looks behind a handle: it compares handles, displaces them and writes them
down. Address zero names no exception.
-/

set_option autoImplicit false

namespace ExceptionLifetime

/-- A natural number in lower-case hexadecimal, marked by `0x`. -/
def hexText (n : Nat) : String :=
  "0x" ++ String.ofList (Nat.toDigits 16 n)

/-- The address by which an exception, or one of its subobjects, is known. -/
structure Handle where
  addr : UInt64
  deriving DecidableEq, Inhabited

namespace Handle

/-- The handle of no exception. -/
def null : Handle := ⟨0⟩

/-- Whether the handle names no exception. -/
def isNull (h : Handle) : Bool := h.addr == 0

/-- The address as a number, by which handles are ordered. -/
def toNat (h : Handle) : Nat := h.addr.toNat

/-- The address `delta` bytes further on, around the end of the address space if need
be: a conversion to a base may step in either direction. -/
def displace (h : Handle) (delta : Int64) : Handle := ⟨h.addr + delta.toUInt64⟩

/-- How two handles compare, by address. -/
def compare (a b : Handle) : Ordering := Ord.compare a.toNat b.toNat

instance : ToString Handle := ⟨fun h => hexText h.toNat⟩

/-- The handle as it is shown inside a larger value. -/
def describe (h : Handle) : String := s!"Handle({h})"

/-! ## Addresses as natural numbers -/

theorem ext_toNat {a b : Handle} (h : a.toNat = b.toNat) : a = b := by
  cases a
  cases b
  exact congrArg Handle.mk (UInt64.toNat_inj.1 h)

theorem toNat_inj {a b : Handle} : a.toNat = b.toNat ↔ a = b :=
  ⟨ext_toNat, congrArg toNat⟩

@[simp] theorem isNull_iff (h : Handle) : h.isNull = true ↔ h = null := by
  cases h
  simp [isNull, null]

/-! ## Displacement -/

@[simp] theorem displace_zero (h : Handle) : h.displace 0 = h :=
  ext_toNat (by simp [displace, toNat, show (0 : Int64).toUInt64 = 0 from rfl])

/-- Two displacements in a row are one by the wrapped sum. -/
theorem displace_displace (h : Handle) (a b : Int64) :
    (h.displace a).displace b = h.displace (a + b) := by
  simp [displace, UInt64.add_assoc]

end Handle

end ExceptionLifetime
