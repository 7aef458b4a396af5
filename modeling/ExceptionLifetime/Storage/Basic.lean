/-
Where exception objects are stored.

The runtime asks for storage when an exception object is about to be
constructed and hands it back after the last reference is gone. It never looks
into the storage, so all it needs is an allocator: something that hands out
handles for sizes and takes handles back. An allocator may refuse a handle it
does not know; a size that no block can have ends the process.
-/
import ExceptionLifetime.Handle.Basic

set_option autoImplicit false

namespace ExceptionLifetime

/-- A request for more bytes than any block can have. -/
structure OversizedRequest where
  size : UInt64
  deriving DecidableEq

/-- The refusal in words. -/
def OversizedRequest.message (e : OversizedRequest) : String :=
  s!"cannot allocate an exception object of {e.size} bytes"

/-- A handle that the allocator does not know. -/
structure UnknownStorage where
  handle : Handle
  deriving DecidableEq

/-- The refusal in words. -/
def UnknownStorage.message (e : UnknownStorage) : String :=
  s!"exception storage {e.handle} was not allocated by this allocator"

/-- Allocators of exception storage. -/
class Allocator (α : Type) where
  /-- Storage for an object of so many bytes. -/
  allocate : α → UInt64 → Except OversizedRequest (Handle × α)
  /-- Takes storage back. -/
  free : α → Handle → Except UnknownStorage α

end ExceptionLifetime
