/-
Calls during which destructors return.

A sequence of such calls is described by one judgement: the context it leaves,
and the exceptions that ended on the way, in order. That no call of it panics or
ends the process, that the destructor of each of these exceptions was called and
no other, and that their storage was handed back and no other, is part of the
judgement, so that two sequences are put together by putting together what ended.
-/
import ExceptionLifetime.Proofs.Run

set_option autoImplicit false

namespace ExceptionLifetime

/-- An exception that has come to its end. -/
structure Ended where
  handle : Handle
  destructor : Option Destructor
  deriving DecidableEq

/-- The call of its destructor, if it has one. -/
def Ended.calls (e : Ended) : List (Nat × Handle) :=
  e.destructor.toList.map fun d => (d.label, e.handle)

/-- What is left of an exception to tell when it ends. -/
def Record.ended (r : Record) : Ended := ⟨r.handle, r.destructor⟩

/-- A call that returns or transfers. -/
def Outcome.isOrderly {β : Type} : Outcome β → Bool
  | .returned _ | .transferred _ => true
  | _ => false

/-- The call needs something that may not be there: storage, or a destructor in a table. -/
def Operation.asks : Operation → Bool
  | .allocate _ | .throwIndexed _ _ _ _ => true
  | _ => false

/-- Calls during which every destructor returns. -/
def quietly (l : List Operation) : List Call := l.map (Call.mk .quiet)

/-- The allocator after it was asked to take back each of these in turn. -/
def discardAll {α : Type} [Allocator α] (a : α) (e : List Ended) : α :=
  (e.map Ended.handle).foldl discard a

/-- Storage of several exceptions is handed back in the order in which they ended. -/
theorem discardAll_append {α : Type} [Allocator α] (a : α) (e e' : List Ended) :
    discardAll a (e ++ e') = discardAll (discardAll a e) e' := by
  rw [discardAll, List.map_append, List.foldl_append]
  rfl

namespace Context

variable {α : Type} [Allocator α]

/-- The context after calls during which every destructor returns. -/
def follow (build : Build) (c : Context α) (l : List Operation) : Context α :=
  c.run build (quietly l)

/-- None of the calls panics or ends the process. -/
def Orderly (build : Build) (c : Context α) : List Operation → Prop
  | [] => True
  | op :: l =>
    (c.perform build .quiet op).outcome.isOrderly = true ∧
      (c.perform build .quiet op).state.Orderly build l

theorem follow_append (build : Build) (c : Context α) (l m : List Operation) :
    c.follow build (l ++ m) = (c.follow build l).follow build m := by
  rw [follow, quietly, List.map_append]
  exact run_append build c _ _

/-- If none of the first calls panics, and none of the others in the context that those leave, none
does. -/
theorem orderly_append {build : Build} {c : Context α} {l m : List Operation}
    (hl : c.Orderly build l) (hm : (c.follow build l).Orderly build m) :
    c.Orderly build (l ++ m) := by
  induction l generalizing c with
  | nil => exact hm
  | cons op l ih => exact ⟨hl.1, ih hl.2 hm⟩

/-- The calls `l` leave the context `c'`, and `e` are the exceptions that end. -/
structure Runs (build : Build) (c : Context α) (l : List Operation) (c' : Context α)
    (e : List Ended) : Prop where
  state : c.follow build l = c'
  orderly : c.Orderly build l
  destructions_eq : destructions (c.observed build (quietly l)) = e.flatMap Ended.calls
  handedBack_eq : handedBack (c.observed build (quietly l)) = e.map Ended.handle

namespace Runs

variable {build : Build} {c c₁ c₂ : Context α} {l m : List Operation} {e e' : List Ended}

theorem nil (build : Build) (c : Context α) : Runs build c [] c [] := ⟨rfl, trivial, rfl, rfl⟩

/-- Two runs one after the other: what has ended in them is listed in their order. -/
theorem append (hl : Runs build c l c₁ e) (hm : Runs build c₁ m c₂ e') :
    Runs build c (l ++ m) c₂ (e ++ e') := by
  obtain ⟨rfl, horderly, hdes, hback⟩ := hl
  obtain ⟨rfl, horderly', hdes', hback'⟩ := hm
  have hobserved : c.observed build (quietly (l ++ m)) =
      c.observed build (quietly l) ++ (c.follow build l).observed build (quietly m) := by
    rw [quietly, List.map_append]
    exact observed_append build c _ _
  refine ⟨follow_append build c l m, orderly_append horderly horderly', ?_, ?_⟩
  · rw [hobserved, destructions_append, hdes, hdes', List.flatMap_append]
  · rw [hobserved, handedBack_append, hback, hback', List.map_append]

theorem cons {op : Operation} (h : Runs build c [op] c₁ e) (hl : Runs build c₁ l c₂ e') :
    Runs build c (op :: l) c₂ (e ++ e') := h.append hl

/-- One call, other than that of a client who hands storage back. -/
theorem single (build : Build) (c : Context α) (op : Operation) (hop : ∀ h, op ≠ .free h)
    (horderly : (c.perform build .quiet op).outcome.isOrderly = true) :
    Runs build c [op] (c.perform build .quiet op).state
      ((c.ending? op).toList.map Record.ended) := by
  obtain ⟨hdes, hback⟩ := trace_perform build .quiet c op
  have hobserved : c.observed build (quietly [op]) = (c.perform build .quiet op).trace :=
    List.append_nil _
  refine ⟨rfl, ⟨horderly, trivial⟩, ?_, ?_⟩
  · rw [hobserved, hdes]
    cases c.ending? op <;> simp [Record.ended, Ended.calls]
  · rw [hobserved, hback, handsBack_of_ne_free hop]
    cases c.ending? op <;> simp [Record.ended]

end Runs

/-! ## Calls that are no misuse -/

section NoMisuse

variable {build : Build} {c : Context α} {h : Handle}

omit [Allocator α] in
/-- A reference that there is can be given back. -/
theorem underflow?_of_refs_pos (hrefs : 0 < c.registry.refs h) : c.underflow? h = none := by
  rw [underflow?, if_neg]
  rintro ⟨-, -, hzero⟩
  omega

/-- Nothing keeps a reference from being given back but that there is none. -/
theorem outcome_release_quiet (build : Build) (hu : c.underflow? h = none) :
    (c.release build .quiet h).outcome = .returned () := by
  cases hd : c.registry.dying? h with
  | some r => rw [(release_of_dying? build .quiet c hd).1, Conduct.outcome_quiet]
  | none =>
    rw [(release_of_dying?_none build .quiet c hd).1, if_neg]
    intro hcase
    rw [underflow?, if_pos hcase] at hu
    cases hu

/-- Where destructors return, a call that can do without an allocator and a table panics or ends
the process only if it is a misuse. -/
theorem isOrderly_perform {op : Operation} (hm : c.misuse? op = none) (hop : op.asks = false) :
    (c.perform build .quiet op).outcome.isOrderly = true := by
  cases op with
  | allocate _ | throwIndexed _ _ _ _ => cases hop
  | free h =>
    rw [perform, Step.outcome_map, Context.free, outcome_handBack]
    rfl
  | beginCatch h =>
    rw [perform, Step.outcome_map, outcome_beginCatch]
    rfl
  | endCatch =>
    by_cases hs : c.scopes = []
    · -- to end a scope outside of all scopes is a misuse
      rw [misuse?, hs] at hm
      cases hm
    · obtain ⟨t, rest, hs⟩ := List.exists_cons_of_ne_nil hs
      rw [misuse?, hs] at hm
      have hout := outcome_release_quiet build
        (c := { c with threw := false, scopes := rest }) hm
      rw [perform, Step.outcome_map, (endCatch_spec build .quiet c hs).1, hout]
      rfl
  | rethrow =>
    by_cases hs : c.scopes = []
    · rw [misuse?, if_pos hs] at hm
      cases hm
    · obtain ⟨t, rest, hs⟩ := List.exists_cons_of_ne_nil hs
      rw [perform, Step.outcome_map, outcome_rethrow build c hs]
      rfl
  | capture =>
    obtain ⟨k, hk⟩ := outcome_capture c
    rw [perform, Step.outcome_map, hk]
    rfl
  | rethrowCaptured h =>
    by_cases hn : h = Handle.null
    · simp [perform, rethrowCaptured, hn, Step.returning, Outcome.map, Outcome.isOrderly]
    · rw [perform, Step.outcome_map, outcome_rethrowCaptured build c hn]
      rfl
  | retain h =>
    rw [perform, Step.outcome_map, outcome_retain]
    rfl
  | release h =>
    rw [perform, Step.outcome_map, outcome_release_quiet build hm]
    rfl
  | retainAny h =>
    rw [perform, Step.outcome_map, retainAny, resolve_andThen, Step.outcome_after, outcome_retain]
    rfl
  | releaseAny h =>
    rw [perform, Step.outcome_map, releaseAny, resolve_andThen, Step.outcome_after,
      outcome_release_quiet build hm]
    rfl
  | matchClause clauses =>
    rw [perform, Step.outcome_map, outcome_matchClause_eq, show c.collision? clauses = none from hm]
    rfl
  | throw _ _ _ | resume _ | exceptionPtr _ | unexpected _ | resolve _ | record? _ | setThrew _
  | setSink _ => rfl

/-- Ending a scope gives back its reference, and nothing counts as thrown last. -/
theorem state_endCatch_quiet {t : Handle} {rest : List Handle} (build : Build)
    (hnull : t ≠ Handle.null) (hs : c.scopes = t :: rest) (hm : c.misuse? .endCatch = none) :
    (c.endCatch build .quiet).state =
      { c with scopes := rest, lastThrown := Handle.null, threw := false }.released .quiet
        (c.registry.resolve t) := by
  rw [misuse?, hs] at hm
  have hreturns := outcome_release_quiet build
    (c := { c with threw := false, scopes := rest }) hm
  rw [(endCatch_spec build .quiet c hs).2.1, hreturns, if_pos ⟨hnull, rfl⟩]
  -- giving the reference back has nothing to do with what was thrown last
  simp only [released]
  split <;> rfl

end NoMisuse

/-! ## Calls for one exception -/

variable (build : Build) {c : Context α} {h x : Handle} {rest : List Handle} {r : Record}

/-- An exception is thrown that is not alive. It enters, and the count of uncaught exceptions goes
up. -/
theorem runs_throw (hdead : c.registry.find? h = none) (type : Option TypeTag)
    (d : Option Destructor) :
    Runs build c [.throw h type d]
      { c with
        registry := c.registry.insert (.fresh h type d)
        lastThrown := h
        uncaught := c.uncaught.up
        threw := true } [] := by
  have hrun := Runs.single build c (.throw h type d) (fun _ => Operation.noConfusion) rfl
  have hstate : (c.throw h type d).state = c.noteThrown (.fresh h type d) := rfl
  have hhandle : (Record.fresh h type d).handle = h := rfl
  rw [perform, Step.state_map, hstate, noteThrown, hhandle, hdead] at hrun
  exact hrun

/-- A live exception is caught by any of its names. It is held by the scope, and counts as uncaught
no longer if it did. -/
theorem runs_beginCatch (hnull : h ≠ Handle.null) (hx : c.registry.resolve x = h)
    (hr : c.registry.find? h = some r) :
    Runs build c [.beginCatch x]
      { c with
        registry := c.registry.insert r.nowCaught.retained
        scopes := h :: c.scopes
        uncaught := if r.caught then c.uncaught else c.uncaught.down } [] := by
  have hrun := Runs.single build c (.beginCatch x) (fun _ => Operation.noConfusion)
    (isOrderly_perform rfl rfl)
  have hhandle : r.handle = h := Registry.handle_of_find? hr
  have hcaught : (c.registry.insert r.nowCaught).find? h = some r.nowCaught := by
    rw [Registry.find?_insert, if_pos (show r.nowCaught.handle = h from hhandle)]
  -- marking and holding each enter the record, and the second entry replaces the first
  have hagain : (c.registry.insert r.nowCaught).retain h
      = c.registry.insert r.nowCaught.retained := by
    rw [Registry.retain, if_neg (by simpa using hnull), Registry.modify_of_find? hcaught]
    exact Registry.insert_insert rfl
  rw [perform, Step.state_map, state_beginCatch, hx, noteCaught, hr,
    Registry.modify_of_find? hr, hagain] at hrun
  exact hrun

/-- The exception of the innermost scope is captured. -/
theorem runs_capture (hnull : h ≠ Handle.null) (hs : c.scopes = h :: rest)
    (hr : c.registry.find? h = some r) :
    Runs build c [.capture] { c with registry := c.registry.insert r.retained } [] := by
  have hrun := Runs.single build c .capture (fun _ => Operation.noConfusion)
    (isOrderly_perform rfl rfl)
  have hretain : c.registry.retain h = c.registry.insert r.retained := by
    rw [Registry.retain, if_neg (by simpa using hnull), Registry.modify_of_find? hr]
  rw [perform, Step.state_map, state_capture, top_of_scopes hs, Registry.resolve_of_find? hr,
    hretain] at hrun
  exact hrun

/-- The exception of the innermost scope is rethrown for the first time since it was caught. The
scope stays. -/
theorem runs_rethrow (hs : c.scopes = h :: rest) (hr : c.registry.find? h = some r)
    (hfirst : r.rethrown = false) :
    Runs build c [.rethrow]
      { c with
        registry := c.registry.insert r.nowRethrown
        lastThrown := h
        threw := true } [] := by
  have hrun := Runs.single build c .rethrow (fun _ => Operation.noConfusion)
    (isOrderly_perform (if_neg (by simp [hs])) rfl)
  rw [perform, Step.state_map, state_rethrow build c hs, Registry.resolve_of_find? hr,
    Registry.modify_of_find? hr, hr, Option.any_some, hfirst, if_neg Bool.false_ne_true,
    ← hs] at hrun
  exact hrun

/-- A captured exception is thrown again, whether it is on its way already or not. -/
theorem runs_rethrowCaptured (hnull : h ≠ Handle.null) (hx : c.registry.resolve x = h)
    (hr : c.registry.find? h = some r) :
    Runs build c [.rethrowCaptured x]
      { c with
        registry := c.registry.insert r.nowRethrown
        lastThrown := h
        threw := true } [] := by
  have hxnull := Registry.ne_null_of_resolve hnull hx
  have hrun := Runs.single build c (.rethrowCaptured x) (fun _ => Operation.noConfusion)
    (isOrderly_perform rfl rfl)
  rw [perform, Step.state_map, state_rethrowCaptured build c hxnull, hx,
    Registry.modify_of_find? hr] at hrun
  exact hrun

/-- To resume where nothing counts as thrown last is to throw that handle. -/
theorem runs_resume (hlast : c.lastThrown = Handle.null) :
    Runs build c [.resume x] { c with lastThrown := x, threw := true } [] := by
  have hrun := Runs.single build c (.resume x) (fun _ => Operation.noConfusion) rfl
  have hstate : (c.resume x).state = { c with lastThrown := x, threw := true } := by
    simp [resume, hlast]
  rw [perform, Step.state_map, hstate] at hrun
  exact hrun

/-- Choosing a clause for `h` gives it a name more, at most. -/
theorem runs_matchClause {clauses : List TypeTag} (hlead : c.registry.resolve c.lastThrown = h)
    (hr : c.registry.find? h = some r) (hok : c.collision? clauses = none) :
    ∃ r', (r' = r ∨ ∃ a, r' = r.withAlias a) ∧
      Runs build c [.matchClause clauses] { c with registry := c.registry.insert r' } [] := by
  have hrun := Runs.single build c (.matchClause clauses) (fun _ => Operation.noConfusion)
    (isOrderly_perform hok rfl)
  rw [perform, Step.state_map, state_matchClause] at hrun
  have hsame : c.registry.insert r = c.registry :=
    Registry.insert_of_find? (by rw [Registry.handle_of_find? hr, hr])
  unfold matched at hrun
  split at hrun
  · rw [← hsame] at hrun
    exact ⟨r, .inl rfl, hrun⟩
  next k a hk =>
    -- the choice is made for what is in flight
    have hk' : k = h := (choice?_eq_some hk).1.trans hlead
    split at hrun
    next g hg =>
      rcases Registry.addAlias_eq_ok hg with rfl | ⟨-, -, rfl⟩
      · rw [← hsame] at hrun
        exact ⟨r, .inl rfl, hrun⟩
      · rw [Registry.named, hk', hr] at hrun
        exact ⟨r.withAlias a, .inr ⟨a, rfl⟩, hrun⟩
    · rw [← hsame] at hrun
      exact ⟨r, .inl rfl, hrun⟩

/-- A reference that there is, is given back. If it was the last one, the exception is what has
ended. -/
theorem runs_releaseAny (hx : c.registry.resolve x = h) (hrefs : 0 < c.registry.refs h) :
    Runs build c [.releaseAny x] (c.released .quiet h)
      ((c.registry.dying? h).toList.map Record.ended) := by
  have hm : c.misuse? (.releaseAny x) = none := by
    rw [misuse?, hx, underflow?_of_refs_pos hrefs]
  have hrun := Runs.single build c (.releaseAny x) (fun _ => Operation.noConfusion)
    (isOrderly_perform hm rfl)
  rw [perform, Step.state_map, releaseAny, resolve_andThen, Step.state_after, hx, state_release,
    ending?, givesBack?, hx, Option.bind_some] at hrun
  exact hrun

/-- A scope ends. Its reference is given back and nothing counts as thrown last any more. -/
theorem runs_endCatch (hnull : h ≠ Handle.null) (hs : c.scopes = h :: rest)
    (hrefs : 0 < c.registry.refs h) :
    Runs build c [.endCatch]
      ({ c with scopes := rest, lastThrown := Handle.null, threw := false }.released .quiet h)
      ((c.registry.dying? h).toList.map Record.ended) := by
  have hh : c.registry.resolve h = h := by
    obtain ⟨r, hr⟩ := (Registry.contains_iff _ _).1 (Registry.contains_of_refs_pos hrefs)
    exact Registry.resolve_of_find? hr
  have hm : c.misuse? .endCatch = none := by
    simp only [misuse?, hs, hh, underflow?_of_refs_pos hrefs]
  have hrun := Runs.single build c .endCatch (fun _ => Operation.noConfusion)
    (isOrderly_perform hm rfl)
  rw [perform, Step.state_map, state_endCatch_quiet build hnull hs hm, hh, ending?, givesBack?,
    top_of_scopes hs, hh, Option.bind_some] at hrun
  exact hrun

end Context

end ExceptionLifetime
