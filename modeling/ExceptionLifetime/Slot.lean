/-
The place where a thread keeps its context.

Code that has no room for a context among its arguments finds one in a slot of
its thread. The slot holds one thing at a time, of one of several kinds, and
nobody gets what is installed without naming its kind. For the time of a call it
is lent to that call, and the call alone has it: any use of the slot from within
panics. However the call ends, what was lent comes back as the call left it.
-/
import ExceptionLifetime.Step

set_option autoImplicit false

namespace ExceptionLifetime

/-- The slot of a thread, for contents of the kinds `κ`. -/
inductive Slot (κ : Type) (C : κ → Type) where
  | here (content : Option (Sigma C))
  /-- A call has the content. -/
  | lent

namespace Slot

variable {κ : Type} {C : κ → Type} {β : Type}

/-- The slot of a new thread. -/
def empty : Slot κ C := .here none

/-- Installs a content. If the slot is occupied, the content is handed back. -/
def install (s : Slot κ C) (k : κ) (c : C k) : Step (Slot κ C) (Except (C k) Unit) :=
  match s with
  | .lent => .panicking s .lent
  | .here none => .returning (.here (some ⟨k, c⟩)) (.ok ())
  | .here (some _) => .returning s (.error c)

variable [DecidableEq κ]

/-- What is installed, if it is of kind `k`. -/
def content? (k : κ) : Option (Sigma C) → Option (C k)
  | some ⟨j, c⟩ => if h : j = k then some (h ▸ c) else none
  | none => none

/-- Takes out the content of kind `k`, if that is what is installed. -/
def uninstall (s : Slot κ C) (k : κ) : Step (Slot κ C) (Option (C k)) :=
  match s with
  | .lent => .panicking s .lent
  | .here content =>
    match content? k content with
    | some c => .returning (.here none) (some c)
    | none => .returning s none

/-- Whether a content of kind `k` is installed. -/
def isInstalled (s : Slot κ C) (k : κ) : Step (Slot κ C) Bool :=
  match s with
  | .lent => .panicking s .lent
  | .here content => .returning s (content? k content).isSome

/-- Takes the content of kind `k` out on loan, if that is what is installed. -/
def borrow (s : Slot κ C) (k : κ) : Step (Slot κ C) (Option (C k)) :=
  match s with
  | .lent => .panicking s .lent
  | .here content =>
    match content? k content with
    | some c => .returning .lent (some c)
    | none => .returning s none

/-- The slot after a loan has come back. -/
def giveBack (k : κ) (c : C k) : Slot κ C := .here (some ⟨k, c⟩)

/-- Lends the content of kind `k`, if that is what is installed, to a call. -/
def lend (s : Slot κ C) (k : κ) (call : C k → Step (C k) β) : Step (Slot κ C) (Option β) :=
  (s.borrow k).andThen fun
    | some c, _ =>
      let r := call c
      ⟨r.outcome.map some, giveBack k r.state, r.trace⟩
    | none, s => .returning s none

/-! ## Loans -/

/-- However a call ends, its content comes back as the call left it. -/
theorem lend_giveBack (k : κ) (c : C k) (call : C k → Step (C k) β) :
    (giveBack k c).lend k call =
      ⟨(call c).outcome.map some, giveBack k (call c).state, (call c).trace⟩ := by
  simp [lend, borrow, giveBack, content?, Step.andThen, Step.returning, Step.after]

end Slot

end ExceptionLifetime
