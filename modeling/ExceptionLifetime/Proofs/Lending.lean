/-
The slot of a thread, as the code that uses it sees it.

Whoever has the content on loan may go on to use the slot, at any depth and in
whatever way it ends, and may intercept how such a use ends. So uses of the slot
and calls that have a loan are given together: a use may lend the content to a
call, and a call may use the slot between its own work. As long as the slot has
nothing to give, every use panics and leaves it alone. Therefore a loan is worth
what its call does to the content alone, with a panic in the place of every use.

From this it follows that the slot is never found lent between two uses, that
what is installed stays until it is taken out, changed by nothing but the calls
that it is lent to, and that a context in the slot behaves as it does by itself.
-/
import ExceptionLifetime.Proofs.Run
import ExceptionLifetime.Slot

set_option autoImplicit false

namespace ExceptionLifetime

/-! ## Uses and loans -/

/-- Goes on with `next` however the first call ends, unless it ends the process. -/
def Step.onward {σ α β : Type} (r : Step σ α) (next : Outcome α → σ → Step σ β) : Step σ β :=
  match r.outcome with
  | .aborted e => ⟨.aborted e, r.state, r.trace⟩
  | o => (next o r.state).after r.trace

/-- The same call on a state beside which there is another. -/
def Step.beside {σ τ α : Type} (r : Step σ α) (t : τ) : Step (σ × τ) α :=
  ⟨r.outcome, (r.state, t), r.trace⟩

/-- What stays out of every call stays out of the whole. -/
theorem Step.onward_beside {σ τ α β : Type} {t : τ} {next : Outcome α → σ → Step σ β}
    {next' : Outcome α → σ × τ → Step (σ × τ) β}
    (hnext : ∀ o s, next' o (s, t) = (next o s).beside t) (r : Step σ α) :
    (r.beside t).onward next' = (r.onward next).beside t := by
  unfold onward
  simp only [beside]
  cases r.outcome with
  | aborted e => rfl
  | returned _ | transferred _ | panicked _ =>
    simp only [hnext]
    rfl

mutual

/-- A use of the slot, which answers with a `β`. -/
inductive Use {κ : Type} (C : κ → Type) : Type → Type 1 where
  | install (k : κ) (content : C k) : Use C (Except (C k) Unit)
  | uninstall (k : κ) : Use C (Option (C k))
  | isInstalled (k : κ) : Use C Bool
  | lend {β : Type} (k : κ) (body : Loan C (C k) β) : Use C (Option β)

/-- What a call does that has a content of type `σ` on loan, until it ends. How its own work and
its uses of the slot end is known to what comes next, as if each had an interceptor. -/
inductive Loan {κ : Type} (C : κ → Type) : Type → Type → Type 1 where
  | leave {σ β : Type} (outcome : Outcome β) : Loan C σ β
  | work {σ β γ : Type} (f : σ → Step σ γ) (next : Outcome γ → Loan C σ β) : Loan C σ β
  | use {σ β γ : Type} (u : Use C γ) (next : Outcome γ → Loan C σ β) : Loan C σ β

end

/-- A call that does not use the slot. -/
def Loan.only {κ : Type} {C : κ → Type} {σ β : Type} (f : σ → Step σ β) : Loan C σ β :=
  .work f .leave

variable {κ : Type} {C : κ → Type} [DecidableEq κ] {σ β : Type}

mutual

/-- What a use of the slot does. -/
def Use.run {β : Type} : Use C β → Slot κ C → Step (Slot κ C) β
  | .install k c, s => s.install k c
  | .uninstall k, s => s.uninstall k
  | .isInstalled k, s => s.isInstalled k
  | .lend k body, s =>
    (s.borrow k).andThen fun
      | some c, s =>
        -- the slot is still lent when the call ends, see `Loan.run_lent`
        let r := body.run (c, s)
        ⟨r.outcome.map some, Slot.giveBack k r.state.1, r.trace⟩
      | none, s => .returning s none

/-- What a call does to the content that it has on loan, and to the slot. -/
def Loan.run {σ β : Type} : Loan C σ β → σ × Slot κ C → Step (σ × Slot κ C) β
  | .leave o, s => ⟨o, s, []⟩
  | .work f next, s => ((f s.1).beside s.2).onward fun o s => (next o).run s
  | .use u next, s =>
    let r := u.run s.2
    Step.onward ⟨r.outcome, (s.1, r.state), r.trace⟩ fun o s => (next o).run s

end

/-- What a call does to the content that it has on loan when every use of the slot panics. -/
def Loan.alone {σ β : Type} : Loan C σ β → σ → Step σ β
  | .leave o, c => ⟨o, c, []⟩
  | .work f next, c => (f c).onward fun o c => (next o).alone c
  | .use _ next, c => (next (.panicked .lent)).alone c

omit [DecidableEq κ] in
/-- A loan that does one thing is that thing. -/
@[simp] theorem Loan.alone_only (f : σ → Step σ β) : (only f : Loan C σ β).alone = f := by
  funext c
  rw [only, alone, Step.onward]
  obtain ⟨o, c, trace⟩ := f c
  cases o <;> simp [alone, Step.after]

/-- The slot after some uses. -/
def Slot.afterUses (s : Slot κ C) : List (Σ β : Type, Use C β) → Slot κ C
  | [] => s
  | u :: l => (u.2.run s).state.afterUses l

/-! ## While the content is lent -/

/-- While the content is lent no use gets anything. -/
theorem Use.run_lent (u : Use C β) : u.run .lent = .panicking .lent .lent := by
  cases u <;> rfl

/-- A call never gets hold of the slot that its content comes from. -/
theorem Loan.run_lent : ∀ {σ β : Type} (body : Loan C σ β) (c : σ),
    body.run (c, .lent) = (body.alone c).beside .lent
  | _, _, .leave _, _ => rfl
  | _, _, .work f next, c => Step.onward_beside (fun o c => (next o).run_lent c) (f c)
  | _, _, .use u next, c => by
    rw [Loan.run, alone, u.run_lent]
    exact (next (.panicked .lent)).run_lent c

/-! ## Between two uses -/

namespace Slot

theorem content?_eq_some_iff {k : κ} {o : Option (Sigma C)} {c : C k} :
    content? k o = some c ↔ o = some ⟨k, c⟩ := by
  match o with
  | none => simp [content?]
  | some ⟨j, d⟩ =>
    by_cases h : j = k
    · subst h
      simp [content?]
    · simp [content?, h]

theorem content?_eq_none_iff {k : κ} {o : Option (Sigma C)} :
    content? k o = none ↔ ∀ c, o ≠ some ⟨k, c⟩ := by
  rw [Option.eq_none_iff_forall_ne_some]
  exact forall_congr' fun c => not_congr content?_eq_some_iff

end Slot

/-- What is lent comes back as the call alone leaves it. -/
theorem Use.run_lend (k : κ) (c : C k) (body : Loan C (C k) β) :
    (Use.lend k body).run (Slot.giveBack k c) = (Slot.giveBack k c).lend k body.alone := by
  have hborrow : (Slot.giveBack k c).borrow k = .returning .lent (some c) := by
    simp [Slot.borrow, Slot.giveBack, Slot.content?_eq_some_iff.2 rfl]
  rw [Use.run, Slot.lend, hborrow]
  simp only [Step.returning_andThen, body.run_lent]
  rfl

/-- A use that finds nothing of its kind leaves the slot as it is. -/
theorem Use.run_other {k : κ} {o : Option (Sigma C)} (ho : ∀ c, o ≠ some ⟨k, c⟩) :
    (Use.uninstall k).run (.here o) = .returning (.here o) none ∧
      (Use.isInstalled k).run (.here o) = .returning (.here o) false ∧
      ∀ {β : Type} (body : Loan C (C k) β),
        (Use.lend k body).run (.here o) = .returning (.here o) none := by
  have hnone := Slot.content?_eq_none_iff.2 ho
  refine ⟨?_, ?_, fun body => ?_⟩
  · simp [Use.run, Slot.uninstall, hnone]
  · simp [Use.run, Slot.isInstalled, hnone]
  · simp [Use.run, Slot.borrow, hnone]

/-- A slot from which nothing is lent is left so by every use. -/
theorem Use.run_here (u : Use C β) (o : Option (Sigma C)) : (u.run (.here o)).state ≠ .lent := by
  cases u with
  | install k c => cases o <;> simp [Use.run, Slot.install, Step.returning]
  | uninstall k =>
    cases h : Slot.content? k o <;> simp [Use.run, Slot.uninstall, h, Step.returning]
  | isInstalled k => simp [Use.run, Slot.isInstalled, Step.returning]
  | lend k body =>
    cases h : Slot.content? k o with
    | none => simp [Use.run, Slot.borrow, h, Step.returning]
    | some c => simp [Use.run, Slot.borrow, h, Slot.giveBack]

/-- A slot that is not lent is not lent after any uses: each of them gives back what it was lent. -/
theorem Slot.afterUses_ne_lent {s : Slot κ C} (hs : s ≠ .lent) (l : List (Σ β : Type, Use C β)) :
    s.afterUses l ≠ .lent := by
  induction l generalizing s with
  | nil => exact hs
  | cons u l ih =>
    cases s with
    | lent => exact absurd rfl hs
    | here o => exact ih (u.2.run_here o)

/-! ## What stays in the slot -/

/-- What a use leaves of the content `c` of kind `k`, unless it takes it out. -/
def Use.leaves (k : κ) (c : C k) : Use C β → C k
  | .lend j body => if h : j = k then h ▸ (body.alone (h ▸ c)).state else c
  | _ => c

/-- What is installed stays until it is taken out, as the calls leave it to which it is lent. -/
theorem Slot.afterUses_giveBack (k : κ) (c : C k) {l : List (Σ β : Type, Use C β)}
    (hl : ∀ u ∈ l, u ≠ ⟨_, .uninstall k⟩) :
    (giveBack k c).afterUses l = giveBack k (l.foldl (fun c u => u.2.leaves k c) c) := by
  induction l generalizing c with
  | nil => rfl
  | cons u l ih =>
    obtain ⟨hu, hl⟩ := List.forall_mem_cons.1 hl
    have hstep : (u.2.run (giveBack k c)).state = giveBack k (u.2.leaves k c) := by
      obtain ⟨γ, u⟩ := u
      -- what is asked for under another kind does not find the content
      have hother : ∀ j, j ≠ k → ∀ d : C j, some (⟨k, c⟩ : Sigma C) ≠ some ⟨j, d⟩ :=
        fun j hj d heq => hj (congrArg Sigma.fst (Option.some.inj heq)).symm
      cases u with
      | install j d => rfl
      | uninstall j =>
        have hj : j ≠ k := fun hj => hu (by rw [hj])
        exact congrArg Step.state (Use.run_other (hother j hj)).1
      | isInstalled j => rfl
      | lend j body =>
        by_cases hj : j = k
        · subst hj
          rw [Use.run_lend, lend_giveBack]
          simp [Use.leaves]
        · have hrun := (Use.run_other (hother j hj)).2.2 body
          simp only [Use.leaves, hj, ↓reduceDIte]
          exact congrArg Step.state hrun
    rw [afterUses, hstep, List.foldl_cons]
    exact ih _ hl

/-- What is installed is handed over, and the slot is empty. -/
theorem Use.run_uninstall (k : κ) (c : C k) :
    (Use.uninstall k).run (Slot.giveBack k c) = .returning Slot.empty (some c) := by
  simp [Use.run, Slot.uninstall, Slot.giveBack, Slot.content?_eq_some_iff.2 rfl, Slot.empty]

/-- What code that uses the slot can rely on, whatever it installs and lends. -/
structure Slot.Dependable (C : κ → Type) : Prop where
  /-- However uses end, nothing is on loan when they have ended. -/
  returned : ∀ uses : List (Σ β : Type, Use C β), (empty : Slot κ C).afterUses uses ≠ .lent
  /-- While the content is lent every use panics and leaves the slot alone. -/
  refuses_lent : ∀ {β : Type} (u : Use C β), u.run .lent = .panicking .lent .lent
  /-- A loan is worth what its call does by itself. -/
  lends : ∀ {β : Type} k c (body : Loan C (C k) β),
    (Use.lend k body).run (giveBack k c) =
      ⟨(body.alone c).outcome.map some, giveBack k (body.alone c).state, (body.alone c).trace⟩
  /-- What a call has done to the content remains when it panics over a use of the slot. -/
  keeps_work : ∀ {β γ : Type} k c (f : C k → Step (C k) γ) (u : Use C β),
    (∀ e, (f c).outcome ≠ .aborted e) →
      (Use.lend k (.work f fun _ => .use u .leave)).run (giveBack k c) =
        ⟨.panicked .lent, giveBack k (f c).state, (f c).trace⟩
  installs : ∀ k c, (Use.install k c).run (empty : Slot κ C) = .returning (giveBack k c) (.ok ())
  /-- What does not find room is handed back. -/
  hands_back : ∀ k c (installed : Sigma C),
    (Use.install k c).run (.here (some installed)) =
      .returning (.here (some installed)) (.error c)
  finds : ∀ k (c : C k),
    (Use.isInstalled k).run (giveBack k c) = .returning (giveBack k c) true
  /-- What is of another kind is neither found nor taken out nor lent. -/
  passes_over : ∀ k (o : Option (Sigma C)), (∀ c, o ≠ some ⟨k, c⟩) →
    (Use.uninstall k).run (.here o) = .returning (.here o) none ∧
      (Use.isInstalled k).run (.here o) = .returning (.here o) false ∧
      ∀ {β : Type} (body : Loan C (C k) β),
        (Use.lend k body).run (.here o) = .returning (.here o) none
  /-- What is taken out is what was installed, as the calls have left it to which it was lent. -/
  gives_up : ∀ k c (uses : List (Σ β : Type, Use C β)), (∀ u ∈ uses, u ≠ ⟨_, .uninstall k⟩) →
    (Use.uninstall k).run ((giveBack k c).afterUses uses) =
      .returning empty (some (uses.foldl (fun c u => u.2.leaves k c) c))

/-- All that is asked of a slot. The parts are facts about single uses, and those about many follow
from them by induction. -/
theorem Slot.dependable (C : κ → Type) : Dependable C where
  returned := afterUses_ne_lent (by simp [empty])
  refuses_lent := Use.run_lent
  lends k c body := (Use.run_lend k c body).trans (lend_giveBack k c body.alone)
  keeps_work k c f u hf := by
    -- the use inside panics, and what was done before it stays done
    have halone : (Loan.work f fun _ => Loan.use u Loan.leave).alone c =
        ⟨.panicked .lent, (f c).state, (f c).trace⟩ := by
      rw [Loan.alone, Step.onward]
      cases ho : (f c).outcome with
      | aborted e => exact absurd ho (hf e)
      | returned _ | transferred _ | panicked _ => simp [Loan.alone, Step.after]
    rw [Use.run_lend, lend_giveBack, halone]
    rfl
  installs k c := rfl
  hands_back k c installed := rfl
  finds k c := by
    simp [Use.run, isInstalled, giveBack, content?_eq_some_iff.2 rfl]
  passes_over k o ho := Use.run_other ho
  gives_up k c uses huses := by
    rw [afterUses_giveBack k c huses]
    exact Use.run_uninstall k _

/-! ## A context in the slot -/

/-- The kinds of things that a thread can have installed: contexts and others. -/
abbrev Beside (α : Type) {κ : Type} (D : κ → Type) : Option κ → Type
  | none => Context α
  | some k => D k

/-- A call on the context of the thread. -/
def Call.onThread (α : Type) [Allocator α] (D : κ → Type) (build : Build) (k : Call) :
    Use (Beside α D) (Option Reply) :=
  .lend none (.only fun c : Context α => c.call build k)

section

variable {α : Type} [Allocator α] (D : κ → Type) (build : Build) (c : Context α)

/-- A context is installed on a new thread, and calls are made on it. -/
def Context.onThread (l : List Call) : Slot (Option κ) (Beside α D) :=
  Slot.empty.afterUses (⟨_, .install none c⟩ :: l.map fun k => ⟨_, k.onThread α D build⟩)

/-- A call by way of the thread is the call itself, and the context is given back as the call has
left it. -/
theorem Call.run_onThread (k : Call) :
    (k.onThread α D build).run (Slot.giveBack none c) =
      ⟨(c.call build k).outcome.map some, Slot.giveBack none (c.call build k).state,
        (c.call build k).trace⟩ := by
  have hlend := Use.run_lend (C := Beside α D) none c (.only fun c : Context α => c.call build k)
  rw [Loan.alone_only, Slot.lend_giveBack] at hlend
  exact hlend

/-- Several calls by way of the thread lead where the calls themselves lead. -/
theorem Context.onThread_eq (l : List Call) :
    c.onThread D build l = Slot.giveBack none (c.run build l) := by
  have hcalls : ∀ c : Context α, (Slot.giveBack none c).afterUses
      (l.map fun k => ⟨_, k.onThread α D build⟩) = Slot.giveBack none (c.run build l) := by
    induction l with
    | nil => exact fun c => rfl
    | cons k l ih =>
      intro c
      rw [List.map_cons, Slot.afterUses, Call.run_onThread D build c k]
      exact ih _
  exact hcalls c

/-- A context that is installed and lent to each call of a run behaves as it does by itself: every
call ends as it would, with its value marked as found, leaves the context as it would, and is
observed as it would be; and what is taken out of the slot is the context that the run leaves. The
slot can be depended on whatever else is done with it. -/
theorem Context.same_on_thread :
    (∀ (l : List Call) (k : Call),
        (k.onThread α D build).run (c.onThread D build l) =
          ⟨((c.run build l).call build k).outcome.map some,
            Slot.giveBack none (c.run build (l ++ [k])),
            ((c.run build l).call build k).trace⟩) ∧
      (∀ l : List Call, (Use.uninstall none).run (c.onThread D build l) =
        .returning Slot.empty (some (c.run build l))) ∧
      Slot.Dependable (Beside α D) := by
  refine ⟨fun l k => ?_, fun l => ?_, Slot.dependable _⟩
  · rw [onThread_eq, Call.run_onThread, run_append]
    rfl
  · rw [onThread_eq]
    exact Use.run_uninstall (C := Beside α D) none (c.run build l)

end

end ExceptionLifetime
