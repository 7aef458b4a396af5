/-
Runs of a program: its calls, one after the other.

Each call comes with the endings of the destructors that it may call, since these
are settled at the call. A run goes on whatever the ending of a call, as if every
call had an interceptor of its own. After a call that ends the process nothing
would follow; the runs that stop there are among the runs considered here, so
that what holds of all runs holds of them.
-/
import ExceptionLifetime.Proofs.Change

set_option autoImplicit false

namespace ExceptionLifetime

/-- A call, and how destructors end during it. -/
structure Call where
  conduct : Conduct
  operation : Operation

/-- What holds wherever a list is split holds at its head and wherever the rest is split. -/
theorem forall_split_cons {β : Type} {x : β} {l : List β} {P : List β → β → Prop} :
    (∀ before y rest, x :: l = before ++ y :: rest → P before y) ↔
      P [] x ∧ ∀ before y rest, l = before ++ y :: rest → P (x :: before) y := by
  constructor
  · intro h
    exact ⟨h [] x l rfl, fun before y rest hl => h (x :: before) y rest (by rw [hl]; rfl)⟩
  · rintro ⟨hhead, htail⟩ before y rest hl
    rcases before with _ | ⟨z, before⟩
    · obtain ⟨rfl, rfl⟩ := List.cons.inj hl
      exact hhead
    · obtain ⟨rfl, hrest⟩ := List.cons.inj hl
      exact htail before y rest hrest

/-- What holds of the beginnings of a list holds of none of it, and of those that have its
head. -/
theorem forall_prefix_cons {β : Type} {x : β} {l : List β} {P : List β → Prop} :
    (∀ before rest, x :: l = before ++ rest → P before) ↔
      P [] ∧ ∀ before rest, l = before ++ rest → P (x :: before) := by
  constructor
  · intro h
    exact ⟨h [] (x :: l) rfl, fun before rest hl => h (x :: before) rest (by rw [hl]; rfl)⟩
  · rintro ⟨hnil, hcons⟩ before rest hl
    rcases before with _ | ⟨z, before⟩
    · exact hnil
    · obtain ⟨rfl, hrest⟩ := List.cons.inj hl
      exact hcons before rest hrest

namespace Context

variable {α : Type} [Allocator α]

/-- One call of a run. -/
def call (build : Build) (c : Context α) (k : Call) : Step (Context α) Reply :=
  c.perform build k.conduct k.operation

/-- The context after a run. -/
def run (build : Build) (c : Context α) : List Call → Context α
  | [] => c
  | k :: l => run build (c.call build k).state l

/-- What a run lets others see. -/
def observed (build : Build) (c : Context α) : List Call → List Observation
  | [] => []
  | k :: l => (c.call build k).trace ++ observed build (c.call build k).state l

@[simp] theorem run_nil (build : Build) (c : Context α) : c.run build [] = c := rfl

@[simp] theorem run_cons (build : Build) (c : Context α) (k : Call) (l : List Call) :
    c.run build (k :: l) = (c.call build k).state.run build l := rfl

/-- A run may be cut anywhere, and goes on from the context at the cut. -/
theorem run_append (build : Build) (c : Context α) (l m : List Call) :
    c.run build (l ++ m) = (c.run build l).run build m := by
  induction l generalizing c with
  | nil => rfl
  | cons k l ih => exact ih (c.call build k).state

/-- What is observed in a run is what is observed in its parts, in order. -/
theorem observed_append (build : Build) (c : Context α) (l m : List Call) :
    c.observed build (l ++ m) = c.observed build l ++ (c.run build l).observed build m := by
  induction l generalizing c with
  | nil => rfl
  | cons k l ih =>
    rw [List.cons_append, observed, observed, ih, run_cons, List.append_assoc]

/-- A call changes the registry as its operation says, whatever destructors do. -/
@[simp] theorem registry_call (build : Build) (c : Context α) (k : Call) :
    (c.call build k).state.registry = c.registryAfter k.operation :=
  registry_perform build k.conduct c k.operation

/-- A call changes the open scopes as its operation says, whatever destructors do. -/
@[simp] theorem scopes_call (build : Build) (c : Context α) (k : Call) :
    (c.call build k).state.scopes = c.scopesAfter k.operation :=
  scopes_perform build k.conduct c k.operation

@[simp] theorem types_run (build : Build) (c : Context α) (l : List Call) :
    (c.run build l).types = c.types := by
  induction l generalizing c with
  | nil => rfl
  | cons k l ih => exact (ih _).trans (types_perform build k.conduct c k.operation)

/-- What holds of every exception when it is thrown, and passes from a record to what becomes of
it, holds of all live exceptions throughout a run. -/
theorem all_run {P : Record → Prop} (hfresh : ∀ h type d, P (.fresh h type d))
    (hstep : ∀ ch r r', P r → r.Becomes ch (some r') → ch ≠ .thrown r' → P r') (build : Build)
    {c : Context α} (hc : c.registry.All P) (l : List Call) : (c.run build l).registry.All P := by
  induction l generalizing c with
  | nil => exact hc
  | cons k l ih =>
    apply ih
    rw [registry_call]
    refine Change.all_on hc (fun s hs => ?_) (hstep _)
    obtain ⟨type, d, hfr⟩ := fresh_of_change hs
    rw [hfr]
    exact hfresh s.handle type d

end Context

end ExceptionLifetime
