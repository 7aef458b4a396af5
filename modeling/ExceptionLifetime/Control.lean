/-
Transfers of control on their own.

An expression is evaluated from left to right. A transfer leaves frame after
frame until the innermost interceptor around it, a panic leaves all of them
unless it is caught, and a guard runs its drop code whichever way its body is
left. Drop code is an expression again and may transfer and intercept on its
own account while another exception is under way; the two do not meet, since
the drop code has to come to its end before the frames further out are left.
Drop code that would leave a frame while a frame is being left already ends the
process.

Everything that happens is recorded in order, so that a run can be judged by
its record: which handle was sent, where it landed, which guards were dropped.
-/
import ExceptionLifetime.Outcome

set_option autoImplicit false

namespace ExceptionLifetime

namespace Control

/-- An expression over values of type `ν`, with guards named by `ι`. -/
inductive Expr (ν ι : Type) where
  | value (v : ν)
  /-- The value of a sequence without items. -/
  | nothing
  /-- Two expressions one after the other, with both values. -/
  | both (first second : Expr ν ι)
  | transfer (handle : Handle)
  | panic (message : String)
  | intercept (body : Expr ν ι)
  /-- Intercepts and sends a handle that lands on, displaced. -/
  | relay (offset : Int64) (body : Expr ν ι)
  | catchPanic (body : Expr ν ι)
  | guarded (guard : ι) (drop body : Expr ν ι)

/-- Items one after the other. -/
def Expr.sequence {ν ι : Type} (items : List (Expr ν ι)) : Expr ν ι :=
  items.foldr .both .nothing

/-- The value of an expression. -/
inductive Value (ν : Type) where
  | leaf (v : ν)
  | nothing
  | both (first second : Value ν)
  /-- The body of an interceptor, or of a catch of panics, returned. -/
  | ok (v : Value ν)
  /-- A handle landed. -/
  | err (handle : Handle)
  /-- A panic was caught. -/
  | panic (message : String)
  /-- A transfer was caught by what catches panics. -/
  | inFlight
  deriving DecidableEq

/-- Something that happens during evaluation. -/
inductive Effect (ν ι : Type) where
  | sent (handle : Handle)
  | panicked (message : String)
  /-- The evaluation of an interceptor's body begins. -/
  | opened
  /-- An interceptor returns. -/
  | landed (result : Value ν)
  /-- An interceptor that relays lets a value through or takes in a handle. -/
  | relayed (handle : Option Handle)
  /-- A panic passes an interceptor. -/
  | passed
  | entered (guard : ι)
  | dropped (guard : ι)
  deriving DecidableEq

/-- How an evaluation ends, and what happened until then. -/
structure Run (ν ι : Type) where
  outcome : Outcome (Value ν)
  effects : List (Effect ν ι)
  deriving DecidableEq

variable {ν ι : Type}

namespace Run

/-- The run after something else happened. -/
def after (earlier : List (Effect ν ι)) (r : Run ν ι) : Run ν ι :=
  { r with effects := earlier ++ r.effects }

/-- Goes on with `next` if the first evaluation returns. -/
def andThen (r : Run ν ι) (next : Value ν → Run ν ι) : Run ν ι :=
  match r.outcome with
  | .returned v => (next v).after r.effects
  | _ => r

@[simp] theorem outcome_after (earlier : List (Effect ν ι)) (r : Run ν ι) :
    (r.after earlier).outcome = r.outcome := rfl

@[simp] theorem effects_after (earlier : List (Effect ν ι)) (r : Run ν ι) :
    (r.after earlier).effects = earlier ++ r.effects := rfl

/-- After a return the next evaluation adds its record to what there is. -/
theorem andThen_of_returned {r : Run ν ι} {v : Value ν} (h : r.outcome = .returned v)
    (next : Value ν → Run ν ι) : r.andThen next = (next v).after r.effects := by
  rw [andThen, h]

/-- What is left is left for good: nothing that was to come next is evaluated. -/
theorem andThen_of_left {r : Run ν ι} (h : ∀ v, r.outcome ≠ .returned v)
    (next : Value ν → Run ν ι) : r.andThen next = r := by
  unfold andThen
  split
  next v hv => exact absurd hv (h v)
  next => rfl

/-- The interceptor around an evaluation: it gives every result that reaches it to `land`,
and panics pass. -/
def intercepted (r : Run ν ι) (land : Except Handle (Value ν) → Run ν ι) : Run ν ι :=
  match r.outcome.intercept with
  | .returned result => (land result).after (.opened :: r.effects)
  | _ => ⟨r.outcome, .opened :: r.effects ++ [.passed]⟩

/-- A frame is left as `r` says and its drop code runs. A body that was left by a transfer or
a panic goes on being left by it; drop code that does not return takes its place if the body
returned, and is too much otherwise. -/
def dropping (r drop : Run ν ι) : Run ν ι :=
  match r.outcome with
  | .aborted _ => r
  | .returned _ =>
    match drop.outcome with
    | .returned _ => ⟨r.outcome, r.effects ++ drop.effects⟩
    | _ => ⟨drop.outcome, r.effects ++ drop.effects⟩
  | _ =>
    match drop.outcome with
    | .returned _ => ⟨r.outcome, r.effects ++ drop.effects⟩
    | .aborted e => ⟨.aborted e, r.effects ++ drop.effects⟩
    | _ => ⟨.aborted .unwoundTwice, r.effects ++ drop.effects⟩

end Run

/-- Evaluates an expression. -/
def Expr.eval : Expr ν ι → Run ν ι
  | .value v => ⟨.returned (.leaf v), []⟩
  | .nothing => ⟨.returned .nothing, []⟩
  | .both first second =>
    first.eval.andThen fun v => second.eval.andThen fun w => ⟨.returned (.both v w), []⟩
  | .transfer h => ⟨.transferred h, [.sent h]⟩
  | .panic message => ⟨.panicked (.client message), [.panicked message]⟩
  | .intercept body =>
    body.eval.intercepted fun
      | .ok v => ⟨.returned (.ok v), [.landed (.ok v)]⟩
      | .error h => ⟨.returned (.err h), [.landed (.err h)]⟩
  | .relay offset body =>
    body.eval.intercepted fun
      | .ok v => ⟨.returned v, [.relayed none]⟩
      | .error h =>
        let further := h.displace offset
        ⟨.transferred further, [.relayed (some h), .sent further]⟩
  | .catchPanic body =>
    let r := body.eval
    match r.outcome with
    | .returned v => ⟨.returned (.ok v), r.effects⟩
    | .transferred _ => ⟨.returned .inFlight, r.effects⟩
    | .panicked p => ⟨.returned (.panic p.message), r.effects⟩
    | .aborted e => ⟨.aborted e, r.effects⟩
  | .guarded guard drop body =>
    (body.eval.after [.entered guard]).dropping (drop.eval.after [.dropped guard])

end Control

end ExceptionLifetime
