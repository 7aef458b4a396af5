/-
Types that can be thrown and caught.

A hierarchy declares class types, with bases at byte offsets inside the derived
object, and pointer types. Tags are handed out in order of declaration,
starting at one, and a declared tag keeps its name and its kind. Two kinds of
type are declared at most once: the pointer to a given type, and the class that
stands for a given type of the host program.
-/
import ExceptionLifetime.TypeTag

set_option autoImplicit false

namespace ExceptionLifetime

/-- A base class, and where its subobject lies in an object of the derived class. -/
structure Base where
  type : TypeTag
  offset : Int64
  deriving DecidableEq

/-- What kind of type a tag stands for. Bases are kept in order of declaration. -/
inductive TypeKind where
  | classType (bases : List Base)
  | pointer (pointee : TypeTag)
  deriving DecidableEq

/-- A declared type. -/
structure TypeEntry where
  name : String
  kind : TypeKind
  deriving DecidableEq

/-- A type of the host program. Names do not identify types: those that share one are told
apart by a number. Types that differ only in how long something is borrowed are the same. -/
structure HostType where
  name : String
  number : Nat
  deriving DecidableEq

/-- A type is called by its name where no other type has that name. -/
instance : Coe String HostType := ⟨fun name => ⟨name, 0⟩⟩

/-- The declared types, in order of declaration. `hostTypes` has the class declared for
each type of the host program that was asked for. -/
structure Hierarchy where
  entries : Array TypeEntry
  hostTypes : List (HostType × TypeTag)
  deriving DecidableEq

namespace Hierarchy

/-- The hierarchy without types. -/
def empty : Hierarchy := ⟨#[], []⟩

/-- What is declared under a tag. -/
def find? (t : Hierarchy) (type : TypeTag) : Option TypeEntry := t.entries[type.raw - 1]?

/-- The kind of a declared type. -/
def kind? (t : Hierarchy) (type : TypeTag) : Option TypeKind :=
  (t.find? type).map TypeEntry.kind

/-- The name of a declared type. -/
def name? (t : Hierarchy) (type : TypeTag) : Option String :=
  (t.find? type).map TypeEntry.name

/-- Whether a tag is declared as a pointer type. -/
def isPointer (t : Hierarchy) (type : TypeTag) : Bool :=
  match t.kind? type with
  | some (.pointer _) => true
  | _ => false

/-- The bases of a class; other types have none. -/
def basesOf (t : Hierarchy) (type : TypeTag) : List Base :=
  match t.kind? type with
  | some (.classType bases) => bases
  | _ => []

/-- The tag that the next declaration receives. -/
def nextTag (t : Hierarchy) : TypeTag := ⟨t.entries.size + 1, Nat.succ_pos _⟩

/-- Declares one more type. -/
def push (t : Hierarchy) (e : TypeEntry) : TypeTag × Hierarchy :=
  (t.nextTag, { t with entries := t.entries.push e })

/-- Declares a class without bases. Names are not compared: each declaration is a type
of its own. -/
def declare (t : Hierarchy) (name : String) : TypeTag × Hierarchy :=
  t.push ⟨name, .classType []⟩

/-- The class declared for a type of the host program. -/
def hostType? (t : Hierarchy) (host : HostType) : Option TypeTag := t.hostTypes.lookup host

/-- The class that stands for a type of the host program, declared by its name on first
use. -/
def declareHost (t : Hierarchy) (host : HostType) : TypeTag × Hierarchy :=
  match t.hostType? host with
  | some type => (type, t)
  | none =>
    let (type, t') := t.declare host.name
    (type, { t' with hostTypes := (host, type) :: t'.hostTypes })

/-- The pointer type to a given type, declared on first use. The pointee may be declared
later, or never. -/
def pointerTo (t : Hierarchy) (pointee : TypeTag) : TypeTag × Hierarchy :=
  match t.entries.findIdx? (·.kind == .pointer pointee) with
  | some i => (⟨i + 1, Nat.succ_pos i⟩, t)
  | none => t.push ⟨"*", .pointer pointee⟩

/-! ## What a declaration changes -/

/-- A new entry is found under the next tag, and nothing else has changed. -/
theorem find?_push (t : Hierarchy) (e : TypeEntry) (type : TypeTag) :
    (t.push e).2.find? type = if type = t.nextTag then some e else t.find? type := by
  have hpos := type.raw_pos
  have hiff : type = t.nextTag ↔ type.raw - 1 = t.entries.size := by
    constructor
    · rintro rfl
      simp [nextTag]
    · intro h
      exact TypeTag.ext_raw (by simp only [nextTag]; omega)
  simp only [push, find?, Array.getElem?_push, hiff]

end Hierarchy

end ExceptionLifetime
