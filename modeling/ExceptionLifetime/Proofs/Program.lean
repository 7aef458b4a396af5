/-
Programs in which every exception that is thrown is also handled.

Such a program is a tree. An exception that it throws goes to a handler, which
opens a scope, runs a program of this kind, and then ends the scope, or rethrows
the exception to a handler inside of the scope, or rethrows it out of the scope.
A handler may also capture the exception. Once its scope has ended, the captured
exception can be rethrown any number of times before the reference is given back.

A tree says which calls are made and what they are given. Whether it fits is a
matter of the context it is run in: who goes by which handle changes from call to
call, and so does where a value leads.
-/
import ExceptionLifetime.Proofs.Quiet

set_option autoImplicit false

namespace ExceptionLifetime

/-! ## Programs -/

/-- How a handler is entered: a clause may be chosen first, and the scope is begun with some
value that leads to the exception. -/
structure Landing where
  clauses? : Option (List TypeTag)
  value : Handle

mutual

/-- A program that handles what it throws. -/
inductive Segment where
  | empty
  | seq (first second : Segment)
  | handled (handle : Handle) (type : Option TypeTag) (destructor : Option Destructor)
      (handler : Handler)
  /-- The exception is captured in its handler and let go of in the end. -/
  | captured (handle : Handle) (type : Option TypeTag) (destructor : Option Destructor)
      (landing : Landing) (before after : Segment) (later : Aftermath)

/-- What becomes of an exception that is on its way. -/
inductive Handler where
  | scope (landing : Landing) (body : Segment)
  /-- The handler rethrows, and a handler inside of its scope catches. -/
  | nested (landing : Landing) (body : Segment) (again : Handler)
  /-- The handler rethrows out of its scope, and a handler further out catches. -/
  | outward (landing : Landing) (body : Segment) (resumed : Handle) (again : Handler)

/-- What is done while an exception is captured and its scope has ended. -/
inductive Aftermath where
  | done
  | segment (body : Segment) (later : Aftermath)
  | rethrow (value : Handle) (handler : Handler) (later : Aftermath)

end

/-- Choosing a clause on entry, if there is a choice. -/
def Landing.choice (p : Landing) : List Operation := (p.clauses?.map .matchClause).toList

/-- The calls on entry. -/
def Landing.operations (p : Landing) : List Operation := p.choice ++ [.beginCatch p.value]

mutual

/-- The calls of a program. -/
def Segment.operations : Segment → List Operation
  | .empty => []
  | .seq first second => first.operations ++ second.operations
  | .handled h type d handler => .throw h type d :: handler.operations
  | .captured h type d landing before after later =>
    .throw h type d :: (landing.operations ++ (before.operations ++ .capture ::
      (after.operations ++ .endCatch :: (later.operations ++ [.releaseAny h]))))

/-- The calls from the entry of a handler on. -/
def Handler.operations : Handler → List Operation
  | .scope landing body => landing.operations ++ (body.operations ++ [.endCatch])
  | .nested landing body again =>
    landing.operations ++ (body.operations ++ .rethrow :: (again.operations ++ [.endCatch]))
  | .outward landing body x again =>
    landing.operations ++ (body.operations ++ .rethrow :: .endCatch :: .resume x ::
      again.operations)

/-- The calls while an exception is captured. -/
def Aftermath.operations : Aftermath → List Operation
  | .done => []
  | .segment body later => body.operations ++ later.operations
  | .rethrow x handler later => .rethrowCaptured x :: (handler.operations ++ later.operations)

end

mutual

/-- The exceptions that a program throws, in the order in which they end. -/
def Segment.ended : Segment → List Ended
  | .empty => []
  | .seq first second => first.ended ++ second.ended
  | .handled h _ d handler => handler.ended ++ [⟨h, d⟩]
  | .captured h _ d _ before after later =>
    before.ended ++ (after.ended ++ (later.ended ++ [⟨h, d⟩]))

def Handler.ended : Handler → List Ended
  | .scope _ body => body.ended
  | .nested _ body again => body.ended ++ again.ended
  | .outward _ body _ again => body.ended ++ again.ended

def Aftermath.ended : Aftermath → List Ended
  | .done => []
  | .segment body later => body.ended ++ later.ended
  | .rethrow _ handler later => handler.ended ++ later.ended

end

mutual

/-- The greatest number of scopes that are open inside of each other. -/
def Segment.depth : Segment → Nat
  | .empty => 0
  | .seq first second => max first.depth second.depth
  | .handled _ _ _ handler => handler.depth
  | .captured _ _ _ _ before after later =>
    max (1 + max before.depth after.depth) later.depth

def Handler.depth : Handler → Nat
  | .scope _ body => 1 + body.depth
  | .nested _ body again => 1 + max body.depth again.depth
  | .outward _ body _ again => max (1 + body.depth) again.depth

def Aftermath.depth : Aftermath → Nat
  | .done => 0
  | .segment body later => max body.depth later.depth
  | .rethrow _ handler later => max handler.depth later.depth

end

/-! ## Programs that fit -/

section Fits

variable {α : Type} [Allocator α]

/-- The choice on entry meets no name of another exception, and after it the value that is
caught leads to `h`. -/
def Landing.Fits (build : Build) (p : Landing) (c : Context α) (h : Handle) : Prop :=
  (∀ clauses ∈ p.clauses?, c.collision? clauses = none) ∧
    (c.follow build p.choice).registry.resolve p.value = h

mutual

/-- What a program says fits the context it is run in: it throws what nobody goes by at that
moment, and the values by which it catches, resumes and rethrows an exception lead there. -/
def Segment.Fits (build : Build) : Segment → Context α → Prop
  | .empty, _ => True
  | .seq first second, c => first.Fits build c ∧ second.Fits build (c.follow build first.operations)
  | .handled h type d handler, c =>
    h ≠ Handle.null ∧ c.registry.IsUnknown h ∧
      handler.Fits build (c.follow build [.throw h type d]) h
  | .captured h type d landing before after later, c =>
    let thrown := c.follow build [.throw h type d]
    let caught := thrown.follow build landing.operations
    let taken := caught.follow build (before.operations ++ [.capture])
    let closed := taken.follow build (after.operations ++ [.endCatch])
    h ≠ Handle.null ∧ c.registry.IsUnknown h ∧ landing.Fits build thrown h ∧
      before.Fits build caught ∧ after.Fits build taken ∧ later.Fits build closed h

def Handler.Fits (build : Build) : Handler → Context α → Handle → Prop
  | .scope landing body, c, h =>
    landing.Fits build c h ∧ body.Fits build (c.follow build landing.operations)
  | .nested landing body again, c, h =>
    let caught := c.follow build landing.operations
    landing.Fits build c h ∧ body.Fits build caught ∧
      again.Fits build (caught.follow build (body.operations ++ [.rethrow])) h
  | .outward landing body x again, c, h =>
    let caught := c.follow build landing.operations
    let left := caught.follow build (body.operations ++ [.rethrow, .endCatch])
    landing.Fits build c h ∧ body.Fits build caught ∧ left.registry.resolve x = h ∧
      again.Fits build (left.follow build [.resume x]) h

def Aftermath.Fits (build : Build) : Aftermath → Context α → Handle → Prop
  | .done, _, _ => True
  | .segment body later, c, h =>
    body.Fits build c ∧ later.Fits build (c.follow build body.operations) h
  | .rethrow x handler later, c, h =>
    let thrown := c.follow build [.rethrowCaptured x]
    c.registry.resolve x = h ∧ handler.Fits build thrown h ∧
      later.Fits build (thrown.follow build handler.operations) h

end

instance (build : Build) (p : Landing) (c : Context α) (h : Handle) :
    Decidable (p.Fits build c h) :=
  inferInstanceAs (Decidable (_ ∧ _))

mutual

instance Segment.decidableFits (build : Build) :
    (s : Segment) → (c : Context α) → Decidable (s.Fits build c)
  | .empty, _ => instDecidableTrue
  | .seq first second, _ =>
    have := first.decidableFits build
    have := second.decidableFits build
    inferInstanceAs (Decidable (_ ∧ _))
  | .handled _ _ _ handler, _ =>
    have := handler.decidableFits build
    inferInstanceAs (Decidable (_ ∧ _ ∧ _))
  | .captured _ _ _ _ before after later, _ =>
    have := before.decidableFits build
    have := after.decidableFits build
    have := later.decidableFits build
    inferInstanceAs (Decidable (_ ∧ _ ∧ _ ∧ _ ∧ _ ∧ _))

instance Handler.decidableFits (build : Build) :
    (handler : Handler) → (c : Context α) → (h : Handle) → Decidable (handler.Fits build c h)
  | .scope _ body, _, _ =>
    have := body.decidableFits build
    inferInstanceAs (Decidable (_ ∧ _))
  | .nested _ body again, _, _ =>
    have := body.decidableFits build
    have := again.decidableFits build
    inferInstanceAs (Decidable (_ ∧ _ ∧ _))
  | .outward _ body _ again, _, _ =>
    have := body.decidableFits build
    have := again.decidableFits build
    inferInstanceAs (Decidable (_ ∧ _ ∧ _ ∧ _))

instance Aftermath.decidableFits (build : Build) :
    (later : Aftermath) → (c : Context α) → (h : Handle) → Decidable (later.Fits build c h)
  | .done, _, _ => instDecidableTrue
  | .segment body later, _, _ =>
    have := body.decidableFits build
    have := later.decidableFits build
    inferInstanceAs (Decidable (_ ∧ _))
  | .rethrow _ handler later, _, _ =>
    have := handler.decidableFits build
    have := later.decidableFits build
    inferInstanceAs (Decidable (_ ∧ _ ∧ _))

end

end Fits

/-! ## What a program throws -/

/-- The exceptions that calls throw, as they will end. -/
def thrownBy (l : List Operation) : List Ended := (l.filterMap Operation.thrown?).map Record.ended

/-- What two programs throw is what they throw one after the other. -/
@[simp] theorem thrownBy_append (l m : List Operation) :
    thrownBy (l ++ m) = thrownBy l ++ thrownBy m := by
  simp [thrownBy]

/-- A call that throws nothing new adds nothing. A rethrow is one of these. -/
theorem thrownBy_cons_of_none {op : Operation} (hop : op.thrown? = none) (l : List Operation) :
    thrownBy (op :: l) = thrownBy l := by
  simp [thrownBy, hop]

theorem thrownBy_throw (h : Handle) (type : Option TypeTag) (d : Option Destructor)
    (l : List Operation) : thrownBy (.throw h type d :: l) = ⟨h, d⟩ :: thrownBy l := rfl

theorem thrownBy_landing (p : Landing) : thrownBy p.operations = [] := by
  unfold Landing.operations Landing.choice
  cases p.clauses? <;> rfl

mutual

/-- What a program throws is what ends in it. -/
theorem Segment.thrownBy_perm : (s : Segment) → (thrownBy s.operations).Perm s.ended
  | .empty => .nil
  | .seq first second => by
    rw [Segment.operations, Segment.ended, thrownBy_append]
    exact first.thrownBy_perm.append second.thrownBy_perm
  | .handled h type d handler => by
    rw [Segment.operations, Segment.ended, thrownBy_throw]
    exact (handler.thrownBy_perm.cons _).trans (List.perm_append_singleton _ _).symm
  | .captured h type d landing before after later => by
    have hlast : thrownBy [.releaseAny h] = [] := rfl
    -- the captured exception is thrown first and ends last
    have hended : (Segment.captured h type d landing before after later).ended =
        (before.ended ++ (after.ended ++ later.ended)) ++ [⟨h, d⟩] := by
      simp [Segment.ended]
    rw [Segment.operations, hended, thrownBy_throw, thrownBy_append, thrownBy_landing,
      thrownBy_append, thrownBy_cons_of_none rfl, thrownBy_append, thrownBy_cons_of_none rfl,
      thrownBy_append, hlast, List.append_nil, List.nil_append]
    have hrest := before.thrownBy_perm.append (after.thrownBy_perm.append later.thrownBy_perm)
    exact (hrest.cons _).trans (List.perm_append_singleton _ _).symm

/-- What a handler throws is what has ended in it, perhaps in another order. -/
theorem Handler.thrownBy_perm :
    (handler : Handler) → (thrownBy handler.operations).Perm handler.ended
  | .scope landing body => by
    have hend : thrownBy [.endCatch] = [] := rfl
    rw [Handler.operations, Handler.ended, thrownBy_append, thrownBy_landing, thrownBy_append,
      hend, List.append_nil]
    exact body.thrownBy_perm
  | .nested landing body again => by
    have hend : thrownBy [.endCatch] = [] := rfl
    rw [Handler.operations, Handler.ended, thrownBy_append, thrownBy_landing, thrownBy_append,
      thrownBy_cons_of_none rfl, thrownBy_append, hend, List.append_nil]
    exact body.thrownBy_perm.append again.thrownBy_perm
  | .outward landing body x again => by
    rw [Handler.operations, Handler.ended, thrownBy_append, thrownBy_landing, thrownBy_append,
      thrownBy_cons_of_none rfl, thrownBy_cons_of_none rfl, thrownBy_cons_of_none rfl]
    exact body.thrownBy_perm.append again.thrownBy_perm

/-- What is thrown while an exception is captured has ended when it is given back. -/
theorem Aftermath.thrownBy_perm :
    (later : Aftermath) → (thrownBy later.operations).Perm later.ended
  | .done => .nil
  | .segment body later => by
    rw [Aftermath.operations, Aftermath.ended, thrownBy_append]
    exact body.thrownBy_perm.append later.thrownBy_perm
  | .rethrow x handler later => by
    rw [Aftermath.operations, Aftermath.ended, thrownBy_cons_of_none rfl, thrownBy_append]
    exact handler.thrownBy_perm.append later.thrownBy_perm

end

end ExceptionLifetime
