/-
The search for a base subobject.

A class contains its bases, they contain theirs, and a subobject is found by
following bases in order of declaration, depth first: the first path wins and
its offsets add up. The search is cut off one level below the number of
declared types. No path of bases is longer than that as long as no class
derives from itself, and a base that would close such a circle is refused when
it is declared. That a search was cut off is an answer of its own, so that it
cannot be taken for the absence of a base.
-/
import ExceptionLifetime.Hierarchy.Basic

set_option autoImplicit false

namespace ExceptionLifetime

/-- How a search for a base subobject ends. -/
inductive Search where
  | found (offset : Int64)
  | absent
  | cutOff
  deriving DecidableEq

namespace Search

/-- The offset, if the search found one. -/
def offset? : Search → Option Int64
  | found offset => some offset
  | _ => none

/-- A search that starts `offset` bytes further in. -/
def within (offset : Int64) : Search → Search
  | found rest => found (offset + rest)
  | absent => absent
  | cutOff => cutOff

/-- The answer of the first base that is not without one. -/
def firstOf (answer : Base → Search) : List Base → Search
  | [] => absent
  | b :: bases =>
    match answer b with
    | absent => firstOf answer bases
    | found offset => found offset
    | cutOff => cutOff

end Search

/-- Why a base is refused. -/
inductive BaseRefusal where
  | circular (base derived : TypeTag)
  | notAClass (derived : TypeTag)
  deriving DecidableEq

/-- The refusal in words. -/
def BaseRefusal.message : BaseRefusal → String
  | circular base derived =>
    s!"{base.describe} can't be a base of {derived.describe}: it would derive from itself"
  | notAClass derived => s!"{derived.describe} is not a class of this hierarchy"

namespace Hierarchy

/-- Looks for the subobject of type `target` in an object of type `type`, at most `depth`
levels deep. Every type, declared or not, contains itself. -/
def search (t : Hierarchy) (target : TypeTag) : Nat → TypeTag → Search
  | 0, _ => .cutOff
  | depth + 1, type =>
    if type = target then .found 0
    else Search.firstOf (fun b => (t.search target depth b.type).within b.offset)
      (t.basesOf type)

/-- Where the subobject of type `target` lies in an object of type `type`. -/
def upcast? (t : Hierarchy) (type target : TypeTag) : Option Int64 :=
  (t.search target (t.entries.size + 1) type).offset?

/-- Makes `base` the last base of the class `derived`. A base that contains `derived` is
refused before `derived` is looked at. -/
def addBase (t : Hierarchy) (derived base : TypeTag) (offset : Int64) :
    Except BaseRefusal Hierarchy :=
  if (t.upcast? base derived).isSome then .error (.circular base derived)
  else
    match t.find? derived with
    | some ⟨name, .classType bases⟩ =>
      .ok { t with
        entries := t.entries.setIfInBounds (derived.raw - 1)
          ⟨name, .classType (bases ++ [⟨base, offset⟩])⟩ }
    | _ => .error (.notAClass derived)

/-! ## First answers of the search -/

/-- Every type lies at the start of its own objects. -/
@[simp] theorem upcast?_self (t : Hierarchy) (type : TypeTag) : t.upcast? type type = some 0 := by
  simp [upcast?, search, Search.offset?]

/-- No class is made its own base. -/
theorem addBase_self (t : Hierarchy) (type : TypeTag) (offset : Int64) :
    t.addBase type type offset = .error (.circular type type) := by
  simp [addBase]

end Hierarchy

end ExceptionLifetime
