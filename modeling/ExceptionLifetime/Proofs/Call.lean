/-
What a call does to the live exceptions, to the open scopes and to storage.

The live exceptions and the open scopes after a call are written down once, as
functions of the context before it and of the call alone. Neither the build nor
the endings of destructors have a say in them: a misuse that one build reports
and the other passes over leaves them alike, and an exception is forgotten
before its destructor is called. What a call lets others see of destructors and
of storage comes down to the one exception, if any, that ends during it.
-/
import ExceptionLifetime.Proofs.Effect

set_option autoImplicit false

namespace ExceptionLifetime

/-- The record that a call enters, if it throws. A call that names an index without a destructor
throws nothing. -/
def Operation.thrown? : Operation → Option Record
  | .throw h type d => some (.fresh h type d)
  | .throwIndexed h type _ none => some (.fresh h type none)
  | .throwIndexed h type table (some index) =>
    match table.resolve index with
    | .ok d => some (.fresh h type (some d))
    | .error _ => none
  | _ => none

/-- The handle that a call throws, whether or not it comes to that. -/
def Operation.throws? : Operation → Option Handle
  | .throw h _ _ | .throwIndexed h _ _ _ => some h
  | _ => none

/-- What an operation throws enters as a fresh record, under the handle that the operation is given.
-/
theorem Operation.thrown?_eq_some {op : Operation} {r : Record} (h : op.thrown? = some r) :
    ∃ type d, r = .fresh r.handle type d ∧ op.throws? = some r.handle := by
  unfold thrown? at h
  split at h
  case h_1 k type d =>
    cases h
    exact ⟨type, d, rfl, rfl⟩
  case h_2 k type table =>
    cases h
    exact ⟨type, none, rfl, rfl⟩
  case h_3 k type table index =>
    split at h
    next d _ =>
      cases h
      exact ⟨type, some d, rfl, rfl⟩
    · cases h
  case h_4 => cases h

/-! ## Changes -/

/-- What a call can do to the live exceptions. -/
inductive Change where
  | nothing
  | thrown (record : Record)
  | caught (handle : Handle)
  | rethrown (handle : Handle)
  | retained (handle : Handle)
  | released (handle : Handle)
  | named (owner name : Handle)

/-- The live exceptions after a change. -/
def Change.on (g : Registry) : Change → Registry
  | .nothing => g
  | .thrown r => g.insert r
  | .caught h => (g.modify h Record.nowCaught).retain h
  | .rethrown h => g.modify h Record.nowRethrown
  | .retained h => g.retain h
  | .released h => g.release h
  | .named owner a =>
    match g.addAlias owner a with
    | .ok g' => g'
    | .error _ => g

namespace Context

variable {α : Type}

/-- What a call does to the live exceptions. -/
def change (c : Context α) : Operation → Change
  | .throw h type d => .thrown (.fresh h type d)
  | .throwIndexed h type table i =>
    match (Operation.throwIndexed h type table i).thrown? with
    | some r => .thrown r
    | none => .nothing
  | .beginCatch h => .caught (c.registry.resolve h)
  | .endCatch => .released (c.registry.resolve c.top)
  | .rethrow =>
    match c.scopes with
    | [] => .nothing
    | t :: _ => .rethrown (c.registry.resolve t)
  | .capture => .retained (c.registry.resolve c.top)
  | .rethrowCaptured h =>
    if h = Handle.null then .nothing else .rethrown (c.registry.resolve h)
  | .retain h => .retained h
  | .retainAny h => .retained (c.registry.resolve h)
  | .release h => .released h
  | .releaseAny h => .released (c.registry.resolve h)
  | .matchClause clauses =>
    match c.choice? clauses with
    | some (h, a) => .named h a
    | none => .nothing
  | _ => .nothing

/-- The live exceptions after a call. -/
def registryAfter (c : Context α) (op : Operation) : Registry := (c.change op).on c.registry

/-- The exception to which a call gives back a reference. -/
def givesBack? (c : Context α) : Operation → Option Handle
  | .endCatch => some (c.registry.resolve c.top)
  | .release h => some h
  | .releaseAny h => some (c.registry.resolve h)
  | _ => none

/-- The exception that a handler catches with a call. -/
def catches? (c : Context α) : Operation → Option Handle
  | .beginCatch h => some (c.registry.resolve h)
  | _ => none

/-- The exception that a call sends on its way again. -/
def rethrows? (c : Context α) : Operation → Option Handle
  | .rethrow => c.scopes.head?.map c.registry.resolve
  | .rethrowCaptured h => if h = Handle.null then none else some (c.registry.resolve h)
  | _ => none

/-- The exception that ends during a call. -/
def ending? (c : Context α) (op : Operation) : Option Record :=
  (c.givesBack? op).bind c.registry.dying?

/-- The open catch scopes after a call. -/
def scopesAfter (c : Context α) : Operation → List Handle
  | .beginCatch h => c.registry.resolve h :: c.scopes
  | .endCatch => c.scopes.tail
  | .rethrow =>
    match c.scopes with
    | [] => []
    | t :: rest =>
      if (c.registry.find? (c.registry.resolve t)).any Record.rethrown then rest
      else c.registry.resolve t :: rest
  | _ => c.scopes

/-- To throw by index enters a record if the index resolves. If it does not, the process ends, and
the context is as it was. -/
theorem state_throwIndexed (c : Context α) (h : Handle) (type : Option TypeTag)
    (table : DestructorTable) (i : Option UInt64) :
    (c.throwIndexed h type table i).state =
      match (Operation.throwIndexed h type table i).thrown? with
      | some r => c.noteThrown r
      | none => c := by
  cases i with
  | none => rfl
  | some index =>
    cases hr : table.resolve index <;>
      simp [throwIndexed, hr, Operation.thrown?, Step.aborting, throw]

variable [Allocator α]

/-- An allocation leaves exceptions and scopes alone, and storage that is out already. -/
theorem state_allocate (c : Context α) (size : UInt64) :
    (c.allocate size).state.registry = c.registry ∧ (c.allocate size).state.scopes = c.scopes ∧
      destructions (c.allocate size).trace = [] ∧ handedBack (c.allocate size).trace = [] := by
  cases ha : Allocator.allocate c.allocator size <;>
    simp [allocate, ha, Step.aborting, destructions, handedBack]

/-- What a call does to the live exceptions is the same in both builds and for all endings of
destructors. -/
theorem registry_perform (build : Build) (conduct : Conduct) (c : Context α) (op : Operation) :
    (c.perform build conduct op).state.registry = c.registryAfter op := by
  -- one case for each call: the change it makes, against what its own lemma says of the state
  unfold registryAfter
  cases op with
  | allocate size => exact (state_allocate c size).1
  | free h => simp [perform, Context.free, state_handBack, change, Change.on]
  | throw h type d => rfl
  | throwIndexed h type table i =>
    rw [perform, Step.state_map, state_throwIndexed, change]
    cases (Operation.throwIndexed h type table i).thrown? <;> rfl
  | resume h => rfl
  | beginCatch h => simp [perform, state_beginCatch, change, Change.on]
  | endCatch =>
    rw [perform, Step.state_map, change, Change.on]
    by_cases hs : c.scopes = []
    · rw [state_endCatch_nil build conduct c hs, top_of_scopes_nil hs, Registry.resolve_null,
        Registry.release_null]
    · obtain ⟨t, rest, hs⟩ := List.exists_cons_of_ne_nil hs
      rw [(endCatch_spec build conduct c hs).2.1, top_of_scopes hs]
      exact registry_released conduct _ _
  | exceptionPtr h => rfl
  | rethrow =>
    rw [perform, Step.state_map, change]
    by_cases hs : c.scopes = []
    · rw [state_rethrow_nil build c hs, hs]
      rfl
    · obtain ⟨t, rest, hs⟩ := List.exists_cons_of_ne_nil hs
      rw [state_rethrow build c hs, hs]
      rfl
  | capture => simp [perform, state_capture, change, Change.on]
  | rethrowCaptured h =>
    rw [perform, Step.state_map, change]
    by_cases hn : h = Handle.null
    · rw [hn, state_rethrowCaptured_null, if_pos rfl]
      rfl
    · rw [state_rethrowCaptured build c hn, if_neg hn]
      rfl
  | unexpected h => rfl
  | retain h => simp [perform, state_retain, change, Change.on]
  | release h => simp [perform, state_release, registry_released, change, Change.on]
  | retainAny h => simp [perform, state_retainAny, change, Change.on]
  | releaseAny h =>
    simp [perform, releaseAny, state_release, registry_released, change, Change.on]
  | resolve h => rfl
  | record? h => rfl
  | matchClause clauses =>
    rw [perform, Step.state_map, state_matchClause, matched, change]
    cases c.choice? clauses <;> rfl
  | setThrew b => rfl
  | setSink i => rfl

/-- What a call does to the open scopes is the same in both builds and for all endings of
destructors. -/
theorem scopes_perform (build : Build) (conduct : Conduct) (c : Context α) (op : Operation) :
    (c.perform build conduct op).state.scopes = c.scopesAfter op := by
  -- one call opens a scope and two close the innermost one, which need not be there
  cases op with
  | allocate size => exact (state_allocate c size).2.1
  | free h => simp [perform, Context.free, state_handBack, scopesAfter]
  | throw h type d => rfl
  | throwIndexed h type table i =>
    rw [perform, Step.state_map, state_throwIndexed]
    cases (Operation.throwIndexed h type table i).thrown? <;> rfl
  | resume h => rfl
  | beginCatch h => simp [perform, state_beginCatch, scopesAfter]
  | endCatch =>
    rw [perform, Step.state_map, scopesAfter]
    by_cases hs : c.scopes = []
    · simp [state_endCatch_nil build conduct c hs, hs]
    · obtain ⟨t, rest, hs⟩ := List.exists_cons_of_ne_nil hs
      rw [(endCatch_spec build conduct c hs).2.1, hs, List.tail_cons]
      exact scopes_released conduct _ _
  | exceptionPtr h => rfl
  | rethrow =>
    rw [perform, Step.state_map, scopesAfter]
    by_cases hs : c.scopes = []
    · rw [state_rethrow_nil build c hs, hs]
    · obtain ⟨t, rest, hs⟩ := List.exists_cons_of_ne_nil hs
      rw [state_rethrow build c hs, hs]
  | capture => simp [perform, state_capture, scopesAfter]
  | rethrowCaptured h =>
    rw [perform, Step.state_map]
    by_cases hn : h = Handle.null
    · rw [hn, state_rethrowCaptured_null]
      rfl
    · rw [state_rethrowCaptured build c hn]
      rfl
  | unexpected h => rfl
  | retain h => simp [perform, state_retain, scopesAfter]
  | release h => simp [perform, state_release, scopes_released, scopesAfter]
  | retainAny h => simp [perform, state_retainAny, scopesAfter]
  | releaseAny h => simp [perform, releaseAny, state_release, scopes_released, scopesAfter]
  | resolve h => rfl
  | record? h => rfl
  | matchClause clauses => simp [perform, state_matchClause, scopesAfter]
  | setThrew b => rfl
  | setSink i => rfl

/-- No call adds types or bases. -/
theorem types_perform (build : Build) (conduct : Conduct) (c : Context α) (op : Operation) :
    (c.perform build conduct op).state.types = c.types := by
  -- the end of an exception is the one change that several calls share
  have hreleased : ∀ (c : Context α) h, (c.released conduct h).types = c.types := by
    intro c h
    unfold released
    split <;> rfl
  cases op with
  | allocate size =>
    cases ha : Allocator.allocate c.allocator size <;> simp [perform, allocate, ha, Step.aborting]
  | free h => simp [perform, Context.free, state_handBack]
  | throwIndexed h type table i =>
    rw [perform, Step.state_map, state_throwIndexed]
    cases (Operation.throwIndexed h type table i).thrown? <;> rfl
  | beginCatch h =>
    rw [perform, Step.state_map, state_beginCatch]
    unfold noteCaught
    split <;> rfl
  | endCatch =>
    rw [perform, Step.state_map]
    by_cases hs : c.scopes = []
    · rw [state_endCatch_nil build conduct c hs]
    · obtain ⟨t, rest, hs⟩ := List.exists_cons_of_ne_nil hs
      rw [(endCatch_spec build conduct c hs).2.1]
      exact hreleased _ _
  | rethrow =>
    rw [perform, Step.state_map]
    by_cases hs : c.scopes = []
    · rw [state_rethrow_nil build c hs]
    · obtain ⟨t, rest, hs⟩ := List.exists_cons_of_ne_nil hs
      rw [state_rethrow build c hs]
  | capture => simp [perform, state_capture]
  | rethrowCaptured h =>
    rw [perform, Step.state_map]
    by_cases hn : h = Handle.null
    · rw [hn, state_rethrowCaptured_null]
    · rw [state_rethrowCaptured build c hn]
  | retain h => simp [perform, state_retain]
  | release h => rw [perform, Step.state_map, state_release, hreleased]
  | retainAny h => simp [perform, state_retainAny]
  | releaseAny h => simp [perform, releaseAny, state_release, hreleased]
  | matchClause clauses => simp [perform, state_matchClause]
  | throw _ _ _ | resume _ | exceptionPtr _ | unexpected _ | resolve _ | record? _ | setThrew _
  | setSink _ => rfl

/-- The handles that a call hands back to the allocator. -/
def handsBack (conduct : Conduct) (c : Context α) : Operation → List Handle
  | .free h => [h]
  | op =>
    match c.ending? op with
    | some r => if conduct.finishes r.destructor then [r.handle] else []
    | none => []

omit [Allocator α] in
/-- Apart from the call that frees storage outright, storage is handed back only where an exception
ends and its destructor returns. -/
theorem handsBack_of_ne_free {op : Operation} (hop : ∀ h, op ≠ .free h) (conduct : Conduct)
    (c : Context α) :
    c.handsBack conduct op =
      match c.ending? op with
      | some r => if conduct.finishes r.destructor then [r.handle] else []
      | none => [] := by
  unfold handsBack
  split
  next h => exact absurd rfl (hop h)
  · rfl

/-- A call calls the destructor of the exception that ends during it, if there are both, and
no other. It hands back the storage of that exception unless the destructor keeps it from
that, and what it is asked to hand back, and nothing else. -/
theorem trace_perform (build : Build) (conduct : Conduct) (c : Context α) (op : Operation) :
    destructions (c.perform build conduct op).trace
        = (match c.ending? op with
          | some r => r.destructor.toList.map fun d => (d.label, r.handle)
          | none => []) ∧
      handedBack (c.perform build conduct op).trace = c.handsBack conduct op := by
  -- references are given back in three ways, and each of them comes down to this
  have hrelease : ∀ (c : Context α) h,
      destructions (c.release build conduct h).trace
          = (match c.registry.dying? h with
            | some r => r.destructor.toList.map fun d => (d.label, r.handle)
            | none => []) ∧
        handedBack (c.release build conduct h).trace
          = (match c.registry.dying? h with
            | some r => if conduct.finishes r.destructor then [r.handle] else []
            | none => []) := by
    intro c h
    cases hd : c.registry.dying? h with
    | none => exact (release_of_dying?_none build conduct c hd).2.2
    | some r => exact (release_of_dying? build conduct c hd).2.2
  cases op with
  | allocate size => exact (state_allocate c size).2.2
  | free h => exact ⟨destructions_handBack _ c h, handedBack_handBack _ c h⟩
  | throw h type d =>
    simp only [perform, Step.trace_map, throw]
    split <;> simp [ending?, givesBack?, handsBack]
  | throwIndexed h type table i =>
    rw [perform, Step.trace_map]
    -- what is found in the table is thrown as if it had been named
    have hthrow : ∀ d, Silent (c.throw h type d).trace := by
      intro d
      unfold throw
      simp only
      split <;> simp [Silent]
    cases i with
    | none => exact hthrow none
    | some index =>
      cases hr : table.resolve index with
      | ok d =>
        simp only [throwIndexed, hr]
        exact hthrow (some d)
      | error e =>
        simp only [throwIndexed, hr]
        exact ⟨rfl, rfl⟩
  | resume h => simp [perform, resume, ending?, givesBack?, handsBack]
  | beginCatch h => exact silent_beginCatch c h
  | endCatch =>
    rw [perform, Step.trace_map, handsBack_of_ne_free (fun _ => Operation.noConfusion), ending?,
      givesBack?, Option.bind_some]
    by_cases hs : c.scopes = []
    · rw [top_of_scopes_nil hs, Registry.resolve_null]
      cases build <;> simp [endCatch, hs, Step.returning, Step.panicking, Registry.dying?]
    · obtain ⟨t, rest, hs⟩ := List.exists_cons_of_ne_nil hs
      obtain ⟨-, -, hdes, hback⟩ := endCatch_spec build conduct c hs
      rw [hdes, hback, top_of_scopes hs]
      exact hrelease _ _
  | exceptionPtr h => exact ⟨rfl, rfl⟩
  | rethrow => exact silent_rethrow build c
  | capture => exact silent_capture c
  | rethrowCaptured h => exact silent_rethrowCaptured build c h
  | unexpected h => simp [perform, unexpected, ending?, givesBack?, handsBack]
  | retain h => exact silent_retain c h
  | release h =>
    rw [handsBack_of_ne_free (fun _ => Operation.noConfusion)]
    exact hrelease c h
  | retainAny h =>
    have hretain := silent_retain c (c.registry.resolve h)
    simp [perform, retainAny, ending?, givesBack?, handsBack, hretain.1, hretain.2]
  | releaseAny h =>
    obtain ⟨hdes, hback⟩ := hrelease c (c.registry.resolve h)
    simp [perform, releaseAny, ending?, givesBack?, handsBack, hdes, hback]
  | resolve h => simp [perform, resolve, ending?, givesBack?, handsBack]
  | record? h => simp [perform, record?, ending?, givesBack?, handsBack]
  | matchClause clauses => exact silent_matchClause build c clauses
  | setThrew b => exact ⟨rfl, rfl⟩
  | setSink i => exact ⟨rfl, rfl⟩

/-- The allocator after a call. -/
def allocatorAfter (conduct : Conduct) (c : Context α) : Operation → α
  | .allocate size =>
    match Allocator.allocate c.allocator size with
    | .ok (_, a) => a
    | .error _ => c.allocator
  | op => (c.handsBack conduct op).foldl discard c.allocator

/-- A call asks the allocator for storage or hands storage back, and leaves it alone otherwise. -/
theorem allocator_perform (build : Build) (conduct : Conduct) (c : Context α) (op : Operation) :
    (c.perform build conduct op).state.allocator = c.allocatorAfter conduct op := by
  -- storage goes back with an exception that ends, unless its destructor is cut short
  have hreleased : ∀ (c : Context α) h, (c.released conduct h).allocator =
      (match c.registry.dying? h with
        | some r => if conduct.finishes r.destructor then [r.handle] else []
        | none => []).foldl discard c.allocator := by
    intro c h
    unfold released without
    cases c.registry.dying? h with
    | none => rfl
    | some r => cases hf : conduct.finishes r.destructor <;> simp [hf]
  cases op with
  | allocate size =>
    cases ha : Allocator.allocate c.allocator size <;>
      simp [perform, allocate, ha, Step.aborting, allocatorAfter]
  | free h => simp [perform, Context.free, state_handBack, allocatorAfter, handsBack]
  | throwIndexed h type table i =>
    rw [perform, Step.state_map, state_throwIndexed]
    cases (Operation.throwIndexed h type table i).thrown? <;> rfl
  | beginCatch h =>
    rw [perform, Step.state_map, state_beginCatch]
    unfold noteCaught
    split <;> rfl
  | endCatch =>
    change _ = (c.handsBack conduct .endCatch).foldl discard c.allocator
    rw [perform, Step.state_map, handsBack_of_ne_free (fun _ => Operation.noConfusion), ending?,
      givesBack?, Option.bind_some]
    by_cases hs : c.scopes = []
    · -- outside of all scopes the reference would be to null, which is never dying
      rw [state_endCatch_nil build conduct c hs, top_of_scopes_nil hs, Registry.resolve_null]
      simp [Registry.dying?]
    · obtain ⟨t, rest, hs⟩ := List.exists_cons_of_ne_nil hs
      rw [(endCatch_spec build conduct c hs).2.1, top_of_scopes hs]
      exact hreleased _ _
  | rethrow =>
    rw [perform, Step.state_map]
    by_cases hs : c.scopes = []
    · rw [state_rethrow_nil build c hs]
      rfl
    · obtain ⟨t, rest, hs⟩ := List.exists_cons_of_ne_nil hs
      rw [state_rethrow build c hs]
      rfl
  | capture => simp [perform, state_capture, allocatorAfter, handsBack, ending?, givesBack?]
  | rethrowCaptured h =>
    rw [perform, Step.state_map]
    by_cases hn : h = Handle.null
    · rw [hn, state_rethrowCaptured_null]
      rfl
    · rw [state_rethrowCaptured build c hn]
      rfl
  | retain h => simp [perform, state_retain, allocatorAfter, handsBack, ending?, givesBack?]
  | release h =>
    rw [perform, Step.state_map, state_release, hreleased]
    rfl
  | retainAny h => simp [perform, state_retainAny, allocatorAfter, handsBack, ending?, givesBack?]
  | releaseAny h =>
    rw [perform, Step.state_map, releaseAny, resolve_andThen, Step.state_after, state_release,
      hreleased]
    rfl
  | matchClause clauses =>
    simp [perform, state_matchClause, allocatorAfter, handsBack, ending?, givesBack?]
  | throw _ _ _ | resume _ | exceptionPtr _ | unexpected _ | resolve _ | record? _ | setThrew _
  | setSink _ => rfl

/-! ## Misuse -/

/-- The misuse of giving back a reference to an exception without references. -/
def underflow? (c : Context α) (h : Handle) : Option Violation :=
  if h ≠ Handle.null ∧ c.registry.contains h = true ∧ c.registry.refs h = 0 then
    some (.refcountUnderflow h)
  else none

/-- The misuse that a call is, if it is one. -/
def misuse? (c : Context α) : Operation → Option Violation
  | .endCatch =>
    match c.scopes with
    | [] => some .unbalancedEndCatch
    | t :: _ => c.underflow? (c.registry.resolve t)
  | .rethrow => if c.scopes = [] then some .rethrowWithoutException else none
  | .release h => c.underflow? h
  | .releaseAny h => c.underflow? (c.registry.resolve h)
  | .matchClause clauses => c.collision? clauses
  | _ => none

omit [Allocator α] in
/-- A destructor cannot report a misuse: what it panics with is its own. -/
theorem outcome_conduct_ne_violation (conduct : Conduct) (d : Option Destructor) (v : Violation) :
    conduct.outcome d ≠ .panicked (.violation v) := by
  cases d with
  | none => simp [Conduct.outcome]
  | some d => cases hd : conduct d <;> simp [Conduct.outcome, hd]

/-- A misuse that is reported while a reference is given back is that there was none, and only the
checked build reports it. -/
theorem outcome_release_eq_violation {h : Handle} {v : Violation} {build : Build}
    {conduct : Conduct} {c : Context α}
    (hv : (c.release build conduct h).outcome = .panicked (.violation v)) :
    build = .checked ∧ c.underflow? h = some v := by
  -- what ends calls a destructor, and that has panics of its own
  cases hd : c.registry.dying? h with
  | some r =>
    rw [(release_of_dying? build conduct c hd).1] at hv
    exact absurd hv (outcome_conduct_ne_violation conduct r.destructor v)
  | none =>
    rw [(release_of_dying?_none build conduct c hd).1] at hv
    unfold underflow?
    split at hv
    next hu =>
      rw [if_pos hu]
      cases build with
      | checked =>
        cases hv
        exact ⟨rfl, rfl⟩
      | unchecked => cases hv
    · cases hv

/-- A panic is the same panic whatever would have been returned. -/
theorem map_eq_panicked {β γ : Type} {f : β → γ} {o : Outcome β} {p : Panic} :
    o.map f = .panicked p ↔ o = .panicked p := by
  cases o <;> simp [Outcome.map]

/-- What is reported is a misuse, and it is reported in checked builds only. -/
theorem misuse?_of_violation {op : Operation} {v : Violation} {build : Build} {conduct : Conduct}
    {c : Context α} (hv : (c.perform build conduct op).outcome = .panicked (.violation v)) :
    build = .checked ∧ c.misuse? op = some v := by
  -- each outcome is computed from the call; what cannot be a report is closed by its shape
  cases op with
  | allocate size =>
    cases ha : Allocator.allocate c.allocator size <;>
      simp [perform, allocate, ha, Step.aborting, Outcome.map] at hv
  | free h => simp [perform, Context.free, outcome_handBack, Outcome.map] at hv
  | throw h type d => cases hv
  | throwIndexed h type table i =>
    cases i with
    | none => cases hv
    | some index =>
      cases hr : table.resolve index <;>
        simp [perform, throwIndexed, hr, throw, Step.aborting, Outcome.map] at hv
  | resume h => cases hv
  | beginCatch h => simp [perform, outcome_beginCatch, Outcome.map] at hv
  | endCatch =>
    rw [perform, Step.outcome_map, map_eq_panicked] at hv
    by_cases hs : c.scopes = []
    · cases build with
      | checked =>
        simp only [endCatch, hs, reported_checked, Step.panicking] at hv
        cases hv
        exact ⟨rfl, by simp [misuse?, hs]⟩
      | unchecked => simp [endCatch, hs, Step.returning] at hv
    · obtain ⟨t, rest, hs⟩ := List.exists_cons_of_ne_nil hs
      rw [(endCatch_spec build conduct c hs).1] at hv
      obtain ⟨hb, hu⟩ := outcome_release_eq_violation hv
      exact ⟨hb, by simpa [misuse?, hs, underflow?] using hu⟩
  | exceptionPtr h => cases hv
  | rethrow =>
    rw [perform, Step.outcome_map, map_eq_panicked] at hv
    by_cases hs : c.scopes = []
    · rw [outcome_rethrow_nil build c hs] at hv
      cases build with
      | checked =>
        cases hv
        exact ⟨rfl, by simp [misuse?, hs]⟩
      | unchecked => cases hv
    · obtain ⟨t, rest, hs⟩ := List.exists_cons_of_ne_nil hs
      rw [outcome_rethrow build c hs] at hv
      cases hv
  | capture =>
    obtain ⟨h, hout⟩ := outcome_capture c
    simp [perform, hout, Outcome.map] at hv
  | rethrowCaptured h =>
    rw [perform, Step.outcome_map, map_eq_panicked] at hv
    by_cases hn : h = Handle.null
    · simp [rethrowCaptured, hn, Step.returning] at hv
    · rw [outcome_rethrowCaptured build c hn] at hv
      cases hv
  | unexpected h => cases hv
  | retain h => simp [perform, outcome_retain, Outcome.map] at hv
  | release h =>
    rw [perform, Step.outcome_map, map_eq_panicked] at hv
    exact outcome_release_eq_violation hv
  | retainAny h => simp [perform, retainAny, outcome_retain, Outcome.map] at hv
  | releaseAny h =>
    rw [perform, Step.outcome_map, map_eq_panicked, releaseAny, resolve_andThen,
      Step.outcome_after] at hv
    exact outcome_release_eq_violation hv
  | resolve h => cases hv
  | record? h => cases hv
  | matchClause clauses =>
    rw [perform, Step.outcome_map, map_eq_panicked] at hv
    rcases outcome_matchClause build c clauses with ⟨m, hm⟩ | ⟨w, hb, hw, hp⟩
    · rw [hm] at hv
      cases hv
    · rw [hp] at hv
      cases hv
      exact ⟨hb, hw⟩
  | setThrew b => cases hv
  | setSink i => cases hv

end Context

end ExceptionLifetime
