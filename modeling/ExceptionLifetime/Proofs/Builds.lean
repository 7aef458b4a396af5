/-
Checked and unchecked builds.

A checked build differs from an unchecked one in that it reports misuse by a panic. Up
to the first report the two do the same, call by call, in everything that can be seen of
them. A report comes from inside of a call, and what is left of that call is done in the
unchecked build only. With two exceptions that is nothing that changes the context: an
unchecked build that is asked to rethrow outside of all scopes ends the process, and one
that ends a scope whose exception has no references goes on to forget what was thrown
last.

The two builds are compared part by part, the way the calls are put together. A part
agrees with its counterpart if it reports a misuse or is the same, and so do calls that
are chained from parts that agree.
-/
import ExceptionLifetime.Proofs.Run
import ExceptionLifetime.Storage.Bump

set_option autoImplicit false

namespace ExceptionLifetime

/-! ## Steps that agree -/

/-- The call panics with the report of a misuse. -/
def Outcome.Reports {β : Type} (o : Outcome β) : Prop := ∃ v, o = .panicked (.violation v)

namespace Step

variable {σ β γ : Type} {s t : Step σ β}

/-- The step `s` reports a misuse, or it is the step `t`. -/
def Agrees (s t : Step σ β) : Prop := s.outcome.Reports ∨ s = t

theorem Agrees.refl (s : Step σ β) : s.Agrees s := .inr rfl

theorem Agrees.after (h : s.Agrees t) (l : List Observation) : (s.after l).Agrees (t.after l) := by
  rcases h with hv | rfl
  · exact .inl hv
  · exact .refl _

theorem Agrees.map (h : s.Agrees t) (f : β → γ) : (s.map f).Agrees (t.map f) := by
  rcases h with ⟨v, hv⟩ | rfl
  · exact .inl ⟨v, by rw [outcome_map, hv, Outcome.map]⟩
  · exact .refl _

/-- What follows a report does not happen, and what follows the same step is compared alone. -/
theorem Agrees.andThen (h : s.Agrees t) {f g : β → σ → Step σ γ}
    (hnext : ∀ b x, (f b x).Agrees (g b x)) : (s.andThen f).Agrees (t.andThen g) := by
  rcases h with ⟨v, hv⟩ | rfl
  · refine .inl ⟨v, ?_⟩
    rw [Step.andThen, hv]
  · obtain ⟨o, x, l⟩ := s
    cases o with
    | returned b => exact (hnext b x).after l
    | transferred _ | panicked _ | aborted _ => exact .refl _

end Step

/-! ## Calls -/

namespace Context

variable {α : Type}

/-- A misuse is where the checked build reports, and what the other one does there is not looked at.
-/
theorem agrees_reported {β : Type} (v : Violation) (c : Context α) (r r' : Step (Context α) β) :
    (reported .checked v c r).Agrees (reported .unchecked v c r') :=
  .inl ⟨v, rfl⟩

/-- A rethrow is reported where there is no scope. -/
theorem agrees_rethrow (c : Context α) : (c.rethrow .checked).Agrees (c.rethrow .unchecked) := by
  unfold rethrow
  split
  · exact agrees_reported _ _ _ _
  · exact .refl _

/-- A captured exception is rethrown from a scope of its own, so there is nothing to report. -/
theorem rethrowCaptured_eq (c : Context α) (h : Handle) :
    c.rethrowCaptured .checked h = c.rethrowCaptured .unchecked h := by
  unfold rethrowCaptured
  rfl

theorem agrees_giveAlias (c : Context α) (h a : Handle) :
    (c.giveAlias .checked h a).Agrees (c.giveAlias .unchecked h a) := by
  unfold giveAlias
  split
  · exact .refl _
  · exact agrees_reported _ _ _ _

/-- The choice of a clause is reported where the name that it gives is. -/
theorem agrees_chooseClause (c : Context α) (h : Handle) (type : TypeTag)
    (clauses : List TypeTag) :
    (c.chooseClause .checked h type clauses).Agrees (c.chooseClause .unchecked h type clauses) := by
  unfold chooseClause
  split
  · exact (agrees_giveAlias c h _).andThen fun _ _ => .refl _
  · exact .refl _

/-- A landing pad is reported where its choice is, and apart from this the builds choose alike. -/
theorem agrees_matchClause (c : Context α) (clauses : List TypeTag) :
    (c.matchClause .checked clauses).Agrees (c.matchClause .unchecked clauses) := by
  unfold matchClause
  refine (Step.Agrees.refl _).andThen fun h c => ?_
  split
  · exact .refl _
  · split
    · exact .refl _
    · exact ((agrees_chooseClause c h _ clauses).andThen fun _ _ => .refl _).after _

variable [Allocator α]

/-- A reference that is given back is reported where there is none. -/
theorem agrees_release (conduct : Conduct) (c : Context α) (h : Handle) :
    (c.release .checked conduct h).Agrees (c.release .unchecked conduct h) := by
  unfold release
  split
  · exact .refl _
  · split
    · exact .refl _
    · split
      · exact agrees_reported _ _ _ _
      · exact .refl _

/-- The builds agree on which exception a name leads to, and so on its references. -/
theorem agrees_releaseAny (conduct : Conduct) (c : Context α) (h : Handle) :
    (c.releaseAny .checked conduct h).Agrees (c.releaseAny .unchecked conduct h) :=
  (Step.Agrees.refl _).andThen fun h c => agrees_release conduct c h

/-- The end of a scope is reported where there is none, or where its exception has no reference. -/
theorem agrees_endCatch (conduct : Conduct) (c : Context α) :
    (c.endCatch .checked conduct).Agrees (c.endCatch .unchecked conduct) := by
  unfold endCatch
  simp only
  split
  · exact agrees_reported _ _ _ _
  · refine Step.Agrees.after ?_ _
    split
    · exact .refl _
    · exact (agrees_releaseAny conduct _ _).andThen fun _ _ => .refl _

/-- What a checked build does not report it does as an unchecked one. -/
theorem agrees_perform (conduct : Conduct) (c : Context α) (op : Operation) :
    (c.perform .checked conduct op).Agrees (c.perform .unchecked conduct op) := by
  cases op with
  | endCatch => exact (agrees_endCatch conduct c).map _
  | rethrow => exact (agrees_rethrow c).map _
  | rethrowCaptured h =>
    exact .inr (congrArg (Step.map fun _ => Reply.nothing) (rethrowCaptured_eq c h))
  | release h => exact (agrees_release conduct c h).map _
  | releaseAny h => exact (agrees_releaseAny conduct c h).map _
  | matchClause clauses => exact (agrees_matchClause c clauses).map _
  | _ => exact .refl _

/-! ## Calls that are reported -/

variable {c : Context α} {op : Operation} {v : Violation}

omit [Allocator α] in
/-- A reference is missing where a live exception has a count of zero. -/
theorem underflow?_eq_some {h : Handle} (hu : c.underflow? h = some v) :
    h ≠ Handle.null ∧ ∃ r, c.registry.find? h = some r ∧ r.refcount = Count.zero := by
  unfold underflow? at hu
  split at hu
  next hcase =>
    obtain ⟨hnull, hlive, hrefs⟩ := hcase
    obtain ⟨r, hr⟩ := (Registry.contains_iff _ _).1 hlive
    rw [Registry.refs_of_find? hr] at hrefs
    exact ⟨hnull, r, hr, Count.ext_toNat hrefs⟩
  · cases hu

/-- A reference too many changes nothing. -/
theorem released_of_refcount_zero {h : Handle} {r : Record} (hr : c.registry.find? h = some r)
    (hzero : r.refcount = Count.zero) (conduct : Conduct) : c.released conduct h = c := by
  have hisZero : r.refcount.isZero = true := (Count.isZero_iff _).2 hzero
  have hdying : c.registry.dying? h = none := by
    refine Option.eq_none_iff_forall_ne_some.2 fun r' hd => ?_
    obtain ⟨-, hr', hlast⟩ := Registry.dying?_eq_some_iff.1 hd
    obtain rfl := Option.some.inj (hr.symm.trans hr')
    rw [Record.isLast, hisZero] at hlast
    cases hlast
  have hrelease : c.registry.release h = c.registry := by
    simp [Registry.release, hr, hisZero]
  simp only [released, hdying, hrelease]

/-- A scope ends whose exception has no references. Only an unchecked build goes on to forget what
was thrown last. -/
theorem endCatch_of_underflow {t : Handle} {rest : List Handle} (hs : c.scopes = t :: rest)
    (hu : c.underflow? (c.registry.resolve t) = some v) (conduct : Conduct) :
    (c.endCatch .checked conduct).state = { c with threw := false, scopes := rest } ∧
      (c.endCatch .unchecked conduct).outcome = .returned () ∧
      (c.endCatch .unchecked conduct).state =
        { c with threw := false, scopes := rest, lastThrown := Handle.null } := by
  obtain ⟨hnull, r, hr, hzero⟩ := underflow?_eq_some hu
  have ht : t ≠ Handle.null := by
    rintro rfl
    exact hnull (Registry.resolve_null _)
  -- the scope is gone before its reference is given back, and there is none to give
  let closed : Context α := { c with threw := false, scopes := rest }
  have hreleased : closed.released conduct (c.registry.resolve t) = closed :=
    released_of_refcount_zero (c := closed) hr hzero conduct
  have hisZero : r.refcount.isZero = true := (Count.isZero_iff _).2 hzero
  obtain ⟨-, hchecked, -, -⟩ := endCatch_spec .checked conduct c hs
  obtain ⟨hout, hunchecked, -, -⟩ := endCatch_spec .unchecked conduct c hs
  -- what was thrown last is forgotten only after a return
  have hrc :
      (closed.release .checked conduct (c.registry.resolve t)).outcome.isReturned = false := by
    simp [release, closed, hnull, hr, hisZero, Step.panicking, Outcome.isReturned]
  have hru : (closed.release .unchecked conduct (c.registry.resolve t)).outcome = .returned () := by
    simp [release, closed, hnull, hr, hisZero, Step.returning]
  refine ⟨?_, hout.trans hru, ?_⟩
  · rw [hchecked, hreleased, hrc]
    simp [closed]
  · rw [hunchecked, hreleased, hru, if_pos ⟨ht, rfl⟩]

/-- The checked build panics with what is missing. -/
theorem outcome_release_of_underflow {h : Handle} (hu : c.underflow? h = some v)
    (conduct : Conduct) : (c.release .checked conduct h).outcome = .panicked (.violation v) := by
  obtain ⟨hnull, r, hr, hzero⟩ := underflow?_eq_some hu
  have hv : v = .refcountUnderflow h := by
    unfold underflow? at hu
    split at hu
    · exact (Option.some.inj hu).symm
    · cases hu
  rw [hv]
  simp [release, hnull, hr, (Count.isZero_iff _).2 hzero, Step.panicking]

/-- A checked build reports what is a misuse, and nothing else. -/
theorem reports_iff (conduct : Conduct) :
    (c.perform .checked conduct op).outcome = .panicked (.violation v) ↔
      c.misuse? op = some v := by
  refine ⟨fun hv => (misuse?_of_violation hv).2, fun hv => ?_⟩
  cases op with
  | endCatch =>
    rw [perform, Step.outcome_map, map_eq_panicked]
    cases hs : c.scopes with
    | nil =>
      simp only [misuse?, hs] at hv
      cases hv
      simp [endCatch, hs, Step.panicking]
    | cons t rest =>
      simp only [misuse?, hs] at hv
      rw [(endCatch_spec .checked conduct c hs).1]
      exact outcome_release_of_underflow (c := { c with threw := false, scopes := rest }) hv conduct
  | rethrow =>
    rw [perform, Step.outcome_map, map_eq_panicked]
    by_cases hs : c.scopes = []
    · simp only [misuse?, hs, if_true] at hv
      cases hv
      rw [outcome_rethrow_nil _ c hs]
    · simp [misuse?, hs] at hv
  | release h =>
    rw [perform, Step.outcome_map, map_eq_panicked]
    exact outcome_release_of_underflow hv conduct
  | releaseAny h =>
    rw [perform, Step.outcome_map, map_eq_panicked, releaseAny, resolve_andThen,
      Step.outcome_after]
    exact outcome_release_of_underflow hv conduct
  | matchClause clauses =>
    rw [perform, Step.outcome_map, map_eq_panicked, outcome_matchClause_eq]
    rw [misuse?] at hv
    rw [hv]
    rfl
  | _ => cases hv

/-- Outside of rethrows and of scopes that are open, both builds come to the same context. -/
theorem state_perform_of_misuse {conduct : Conduct} (hv : c.misuse? op = some v)
    (hend : op = .endCatch → c.scopes = []) (hrethrow : op ≠ .rethrow) :
    (c.perform .checked conduct op).state = (c.perform .unchecked conduct op).state ∧
      ∃ reply, (c.perform .unchecked conduct op).outcome = .returned reply := by
  cases op with
  | endCatch =>
    have hs := hend rfl
    simp [perform, endCatch, hs, Step.panicking, Step.returning, Outcome.map]
  | rethrow => exact absurd rfl hrethrow
  | release h =>
    obtain ⟨hnull, r, hr, hzero⟩ := underflow?_eq_some hv
    refine ⟨by simp only [perform, Step.state_map, state_release], .nothing, ?_⟩
    simp [perform, release, hnull, hr, (Count.isZero_iff _).2 hzero, Step.returning, Outcome.map]
  | releaseAny h =>
    obtain ⟨hnull, r, hr, hzero⟩ := underflow?_eq_some hv
    refine ⟨?_, .nothing, ?_⟩
    · simp only [perform, Step.state_map, releaseAny, resolve_andThen, Step.state_after,
        state_release]
    · simp [perform, releaseAny, release, hnull, hr, (Count.isZero_iff _).2 hzero, Step.returning,
        Outcome.map]
  -- a name that is refused is passed over, so the choice stands
  | matchClause clauses =>
    refine ⟨by simp only [perform, Step.state_map, state_matchClause],
      .matched (c.selection clauses), ?_⟩
    rw [misuse?] at hv
    rw [perform, Step.outcome_map, outcome_matchClause_eq, hv]
    rfl
  | _ => cases hv

/-! ## Runs -/

/-- No call of a run reports a misuse in a checked build. -/
def Unreported (c : Context α) (l : List Call) : Prop :=
  ∀ before k rest, l = before ++ k :: rest →
    ¬ ((c.run .checked before).call .checked k).outcome.Reports

/-- Two runs that are never reported are the same, call by call: up to each call they have led to
the same context, and there the builds agree. -/
theorem agrees_run {l : List Call} (hl : c.Unreported l) :
    (∀ before k rest, l = before ++ k :: rest →
      (c.run .checked before).call .checked k = (c.run .unchecked before).call .unchecked k) ∧
    c.run .checked l = c.run .unchecked l ∧ c.observed .checked l = c.observed .unchecked l := by
  induction l generalizing c with
  | nil =>
    refine ⟨fun before k rest hl => ?_, rfl, rfl⟩
    simp at hl
  | cons k l ih =>
    -- the first call is not reported, so it leads both builds to one context
    rw [Unreported, forall_split_cons (P := fun before k =>
      ¬ ((c.run .checked before).call .checked k).outcome.Reports)] at hl
    obtain ⟨hhead, hrest⟩ := hl
    have hcall : c.call .checked k = c.call .unchecked k :=
      (agrees_perform k.conduct c k.operation).resolve_left hhead
    obtain ⟨hcalls, hrun, hobserved⟩ := ih (c := (c.call .checked k).state) hrest
    rw [forall_split_cons (P := fun before k =>
      (c.run .checked before).call .checked k = (c.run .unchecked before).call .unchecked k)]
    refine ⟨⟨hcall, fun before j rest hl => ?_⟩, ?_, ?_⟩
    · rw [run_cons, run_cons, ← hcall]
      exact hcalls before j rest hl
    · rw [run_cons, run_cons, ← hcall, hrun]
    · rw [observed, observed, ← hcall, hobserved]

/-- The two builds agree.

A call from any context does the same in both, with the same ending, the same context left and the
same observations in the same order, unless the checked build reports it; and that it does exactly
if the call is a misuse. Then both leave the same context, and the unchecked build returns, with two
exceptions. Outside of all scopes a rethrow ends the process in an unchecked build, and changes
nothing in a checked one. And where the exception of the scope that is ended is alive without
references, the scope is gone in both, but what was thrown last is forgotten in the unchecked build
only. A rethrow of a captured exception neither is reported nor ends the process.

So runs in which nothing is reported are the same. -/
theorem builds_agree (c : Context α) :
    (∀ conduct op,
      let s := c.perform .checked conduct op
      let t := c.perform .unchecked conduct op
      (∀ v, s.outcome = .panicked (.violation v) ↔ c.misuse? op = some v) ∧
      (¬ s.outcome.Reports → s = t) ∧
      (s.outcome.Reports →
        (op = .rethrow ∧ c.scopes = [] ∧ s.state = c ∧
          t.outcome = .aborted .rethrowOutsideCatch) ∨
        (op = .endCatch ∧ ∃ popped rest r, c.scopes = popped :: rest ∧
          c.registry.find? (c.registry.resolve popped) = some r ∧ r.refcount = Count.zero ∧
          s.state = { c with threw := false, scopes := rest } ∧ t.outcome = .returned .nothing ∧
          t.state = { c with threw := false, scopes := rest, lastThrown := Handle.null }) ∨
        (op ≠ .rethrow ∧ (op = .endCatch → c.scopes = []) ∧ s.state = t.state ∧
          ∃ reply, t.outcome = .returned reply))) ∧
    (∀ build conduct h,
      let r := c.perform build conduct (.rethrowCaptured h)
      ¬ r.outcome.Reports ∧ ∀ e, r.outcome ≠ .aborted e) ∧
    ∀ l, c.Unreported l →
      (∀ before k rest, l = before ++ k :: rest →
        (c.run .checked before).call .checked k = (c.run .unchecked before).call .unchecked k) ∧
      c.run .checked l = c.run .unchecked l ∧ c.observed .checked l = c.observed .unchecked l := by
  refine ⟨fun conduct op => ?_, fun build conduct h => ?_, fun l hl => agrees_run hl⟩
  · intro s t
    refine ⟨fun v => reports_iff conduct, (agrees_perform conduct c op).resolve_left, ?_⟩
    rintro ⟨v, hv⟩
    have hmisuse := (reports_iff conduct).1 hv
    -- the two calls that leave the builds apart are taken first
    by_cases hrethrow : op = .rethrow
    · subst hrethrow
      have hs : c.scopes = [] :=
        Decidable.byContradiction fun hs => by simp [misuse?, hs] at hmisuse
      refine .inl ⟨rfl, hs, ?_, ?_⟩
      · exact state_rethrow_nil .checked c hs
      · have hout := outcome_rethrow_nil .unchecked c hs
        simp only [t, perform, Step.outcome_map, hout, Outcome.map]
    by_cases hend : op = .endCatch → c.scopes = []
    · obtain ⟨hstate, hout⟩ := state_perform_of_misuse hmisuse hend hrethrow
      exact .inr (.inr ⟨hrethrow, hend, hstate, hout⟩)
    · obtain ⟨rfl, hs⟩ := Classical.not_imp.1 hend
      obtain ⟨popped, rest, hs⟩ := List.exists_cons_of_ne_nil hs
      simp only [misuse?, hs] at hmisuse
      obtain ⟨-, r, hr, hzero⟩ := underflow?_eq_some hmisuse
      obtain ⟨hchecked, hout, hunchecked⟩ := endCatch_of_underflow hs hmisuse conduct
      refine .inr (.inl ⟨rfl, popped, rest, r, hs, hr, hzero, hchecked, ?_, hunchecked⟩)
      simp only [t, perform, Step.outcome_map, hout, Outcome.map]
  · intro r
    by_cases hnull : h = Handle.null
    · simp [r, perform, rethrowCaptured, hnull, Step.returning, Outcome.map, Outcome.Reports]
    · simp [r, perform, outcome_rethrowCaptured build c hnull, Outcome.map, Outcome.Reports]

/-- A scope ends after its reference was given back already, while a rethrow keeps the exception.
What was thrown last is kept in one build and forgotten in the other. -/
example :
    let l := [Operation.throw ⟨16⟩ none none, .beginCatch ⟨16⟩, .rethrow, .release ⟨16⟩].map
      (Call.mk .quiet)
    let c := (fresh Hierarchy.empty (Bump.startingAt 4096)).run .unchecked l
    (c.perform .checked .quiet .endCatch).state.lastThrown = ⟨16⟩ ∧
      (c.perform .unchecked .quiet .endCatch).state.lastThrown = Handle.null := by
  decide +kernel

end Context

end ExceptionLifetime
