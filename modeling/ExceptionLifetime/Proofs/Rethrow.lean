/-
What a rethrow does to the open scopes.

A handler that rethrows its exception leaves its scope in doing so, and the scope is
closed while it is left. So its entry has to stay among the open scopes. Whether it
stays is decided by the mark of the exception: an entry of a marked one is taken for
the entry that a rethrow of a captured exception has made for itself a moment before,
and is dropped.

The mark tells that the exception has been rethrown and that no handler has caught it
since, as long as it lives, and what is marked does live. So a scope keeps its entry in
a rethrow exactly if the exception it is of has been caught after its last rethrow, or
never been rethrown, and if the entry still leads to that exception. The latter holds
wherever no exception ends while a scope of it is open. A rethrow of a captured
exception drops its own entry and no other.
-/
import ExceptionLifetime.Proofs.Endings
import ExceptionLifetime.Proofs.InFlight

set_option autoImplicit false

namespace ExceptionLifetime

/-! ## What marks tell -/

/-- What is covered after a change was rethrown by it, or was covered before and has been neither
caught nor replaced. -/
theorem Traffic.covered_after {g : Registry} {t : Traffic} {ch : Change} {k : Handle}
    (hk : (t.after g ch).covered k = true) :
    (ch = .rethrown k ∧ g.contains k = true) ∨
      t.covered k = true ∧ ch ≠ .caught k ∧ ∀ s, ch = .thrown s → s.handle ≠ k := by
  by_cases hs : ch.subject? = some k
  case neg =>
    rw [covered_after_of_ne hs] at hk
    refine .inr ⟨hk, ?_, ?_⟩
    · rintro rfl
      exact hs rfl
    · rintro s rfl hsk
      exact hs (congrArg some hsk)
  -- a throw and a handler take the mark away, so only a rethrow is left to set it
  cases ch with
  | nothing => cases hs
  | thrown r =>
    obtain rfl := Option.some.inj hs
    rw [after, covered_update_self] at hk
    cases hk
  | caught h =>
    obtain rfl := Option.some.inj hs
    rw [after, covered_update_self] at hk
    cases hk
  | rethrown h =>
    obtain rfl := Option.some.inj hs
    by_cases hlive : g.contains h = true
    · exact .inl ⟨rfl, hlive⟩
    · rw [after, if_neg hlive] at hk
      exact .inr ⟨hk, Change.noConfusion, fun _ => Change.noConfusion⟩
  | retained _ | released _ | named _ _ =>
    exact .inr ⟨hk, Change.noConfusion, fun _ => Change.noConfusion⟩

namespace Registry

variable {g : Registry} {t : Traffic}

/-- What is covered is alive. -/
def Covers (g : Registry) (t : Traffic) : Prop := ∀ k, t.covered k = true → g.contains k = true

/-- What is covered is alive, and stays so: a marked exception does not end. -/
theorem Covers.on (hc : g.Covers t) (hm : g.Marks t) (ch : Change) :
    (ch.on g).Covers (t.after g ch) := by
  intro k hk
  rcases Traffic.covered_after hk with ⟨rfl, hlive⟩ | ⟨hcov, hcaught, hthrown⟩
  · rwa [Change.on, contains_modify (f := Record.nowRethrown) fun _ => rfl]
  · obtain ⟨r, hr⟩ := (contains_iff g k).1 (hc k hcov)
    obtain ⟨r', hr', -⟩ := Change.find?_on_of_rethrown hr ((hm k r hr).trans hcov) hcaught hthrown
    exact (contains_iff _ k).2 ⟨r', hr'⟩

/-- Covered is what is alive and marked. -/
theorem Covers.covered_eq (hc : g.Covers t) (hm : g.Marks t) (k : Handle) :
    t.covered k = (g.find? k).any Record.rethrown := by
  cases hr : g.find? k with
  | some r => exact (hm k r hr).symm
  | none =>
    refine Bool.eq_false_iff.2 fun hcov => ?_
    obtain ⟨r, hr'⟩ := (contains_iff g k).1 (hc k hcov)
    rw [hr] at hr'
    cases hr'

/-- A mark leads no handle elsewhere. -/
theorem resolve_rethrown_eq_self {h : Handle} (k : Handle) (hself : g.resolve h = h) :
    (g.modify k Record.nowRethrown).resolve h = h := by
  rw [resolve_eq_self_iff] at hself ⊢
  rw [contains_modify (f := Record.nowRethrown) fun _ => rfl]
  refine hself.imp id (Or.imp id fun hnone k' r' hr' => ?_)
  rw [find?_modify (f := Record.nowRethrown) fun _ => rfl] at hr'
  split at hr'
  · obtain ⟨r, hr, rfl⟩ := Option.map_eq_some_iff.1 hr'
    exact hnone k' r hr
  · exact hnone k' r' hr'

end Registry

/-! ## Calls -/

namespace Context

variable {α : Type} {c : Context α} {t : Traffic} {op : Operation}

theorem top_mem (hs : c.scopes ≠ []) : c.top ∈ c.scopes := by
  obtain ⟨s, rest, hs⟩ := List.exists_cons_of_ne_nil hs
  rw [top_of_scopes hs, hs]
  exact List.mem_cons_self

/-- A rethrow drops the entry of the innermost scope if its exception is marked, and enters that
exception there otherwise. -/
theorem scopesAfter_rethrow (hs : c.scopes ≠ []) :
    c.scopesAfter .rethrow =
      if (c.registry.find? (c.registry.resolve c.top)).any Record.rethrown then c.scopes.tail
      else c.registry.resolve c.top :: c.scopes.tail := by
  obtain ⟨s, rest, hs⟩ := List.exists_cons_of_ne_nil hs
  rw [scopesAfter, hs, top_of_scopes hs]
  rfl

/-- A rethrow leaves the scopes as they are if the exception is not on its way and its scope is
listed under its own handle. -/
theorem scopesAfter_rethrow_eq_iff (hs : c.scopes ≠ []) :
    c.scopesAfter .rethrow = c.scopes ↔
      (c.registry.find? (c.registry.resolve c.top)).any Record.rethrown = false ∧
        c.registry.resolve c.top = c.top := by
  rw [scopesAfter_rethrow hs]
  obtain ⟨s, rest, hs⟩ := List.exists_cons_of_ne_nil hs
  rw [hs, top_of_scopes hs, List.tail_cons]
  cases (c.registry.find? (c.registry.resolve s)).any Record.rethrown with
  | true =>
    -- one entry fewer
    refine ⟨fun heq => absurd (congrArg List.length heq) ?_, fun ⟨hmark, _⟩ => by cases hmark⟩
    simp
  | false => simp

/-- An exception of an open scope is alive. -/
def ScopesLive (c : Context α) : Prop := ∀ h ∈ c.scopes, c.registry.contains h = true

/-- A handler catches something alive only, and no exception ends with a scope of it open. -/
def KeepsScopesLive (c : Context α) (op : Operation) : Prop :=
  (∀ h, c.catches? op = some h → c.registry.contains h = true) ∧
    ∀ r, c.ending? op = some r → ¬ r.handle ∈ c.scopesAfter op

theorem ScopesLive.resolve_eq (hl : c.ScopesLive) {h : Handle} (hh : h ∈ c.scopes) :
    c.registry.resolve h = h := by
  obtain ⟨r, hr⟩ := (Registry.contains_iff _ h).1 (hl h hh)
  exact Registry.resolve_of_find? hr

/-- The scopes that are open after a call were open before it, but for the one it opens. -/
theorem ScopesLive.mem_of_scopesAfter (hl : c.ScopesLive) {h : Handle}
    (hh : h ∈ c.scopesAfter op) : c.catches? op = some h ∨ h ∈ c.scopes := by
  cases op with
  | beginCatch x => exact (List.mem_cons.1 hh).imp (fun heq => by rw [heq, catches?]) id
  | endCatch => exact .inr (List.mem_of_mem_tail hh)
  | rethrow =>
    by_cases hs : c.scopes = []
    · rw [scopesAfter, hs] at hh
      cases hh
    · rw [scopesAfter_rethrow hs] at hh
      split at hh
      · exact .inr (List.mem_of_mem_tail hh)
      · rcases List.mem_cons.1 hh with rfl | hh
        · exact .inr (by rw [hl.resolve_eq (top_mem hs)]; exact top_mem hs)
        · exact .inr (List.mem_of_mem_tail hh)
  | _ => exact .inr hh

/-- Scopes are those of live exceptions after a call that catches nothing dead and ends nothing that
is caught. -/
theorem ScopesLive.step (hl : c.ScopesLive) (hk : c.KeepsScopesLive op) :
    ∀ h ∈ c.scopesAfter op, (c.registryAfter op).contains h = true := by
  intro h hh
  have hlive : c.registry.contains h = true :=
    (hl.mem_of_scopesAfter hh).elim (hk.1 h) (hl h)
  obtain ⟨r, hr⟩ := (Registry.contains_iff _ h).1 hlive
  refine Decidable.byContradiction fun hgone => ?_
  rw [Bool.not_eq_true, Registry.contains_eq_false_iff] at hgone
  have hending := ending?_of_find?_none hr hgone
  exact hk.2 r hending (by rwa [Registry.handle_of_find? hr])

/-! ## Runs -/

variable [Allocator α]

/-- A rethrow that keeps the open scopes leaves it to the end of the innermost one to give back
the reference to its exception. -/
theorem givesBack?_endCatch_of_rethrow (build : Build) (conduct : Conduct) (hs : c.scopes ≠ [])
    (hkept : (c.perform build conduct .rethrow).state.scopes = c.scopes) :
    (c.perform build conduct .rethrow).state.givesBack? .endCatch = some c.top := by
  have hown : c.registry.resolve c.top = c.top := by
    rw [scopes_perform] at hkept
    exact ((scopesAfter_rethrow_eq_iff hs).1 hkept).2
  have htop : (c.perform build conduct .rethrow).state.top = c.top := by rw [top, hkept, top]
  have hregistry : c.registryAfter .rethrow =
      c.registry.modify (c.registry.resolve c.top) Record.nowRethrown := by
    obtain ⟨s, rest, hs⟩ := List.exists_cons_of_ne_nil hs
    rw [registryAfter, change, hs, top_of_scopes hs]
    rfl
  rw [givesBack?, htop, registry_perform, hregistry, Registry.resolve_rethrown_eq_self _ hown]

/-- What is covered in a run is what is alive and marked. -/
theorem covered_run (build : Build) (l : List Call) (hm : c.registry.Marks t)
    (hc : c.registry.Covers t) (k : Handle) :
    (c.traffic build t l).covered k = ((c.run build l).registry.find? k).any Record.rethrown := by
  induction l generalizing c t with
  | nil => exact hc.covered_eq hm k
  | cons j l ih =>
    refine ih (marks_call hm build j) ?_
    rw [registry_call]
    exact hc.on hm _

/-- Scopes are those of live exceptions after a run of such calls. -/
theorem scopesLive_run (build : Build) {l : List Call} (hl : c.ScopesLive)
    (hkeeps : ∀ before k rest, l = before ++ k :: rest →
      (c.run build before).KeepsScopesLive k.operation) : (c.run build l).ScopesLive := by
  induction l generalizing c with
  | nil => exact hl
  | cons k l ih =>
    rw [forall_split_cons (P := fun before k =>
      (c.run build before).KeepsScopesLive k.operation)] at hkeeps
    refine ih ?_ hkeeps.2
    have hstep := hl.step hkeeps.1
    rwa [← registry_call build, ← scopes_call build] at hstep

/-- Rethrows and open scopes. In any state of a run, a rethrow leaves the open scopes as they are if
and only if the exception of the innermost one has not been rethrown since a handler last caught it,
and its entry is that of the exception it leads to. If it has been rethrown, the innermost scope is
closed instead. Where the scopes stay, the next scope to be closed is the innermost one, and the
reference that is given back is to its exception. A rethrow of a captured exception always leaves
the scopes as they are. And if in the run no handler catches anything that is not alive, and no
exception ends with a scope of it open, the entry of the innermost scope is that of the exception
it leads to. -/
theorem rethrow_keeps_scopes_iff (build : Build) (types : Hierarchy) (allocator : α)
    (l : List Call) :
    let c := (fresh types allocator).run build l
    let t := (fresh types allocator).traffic build Traffic.none l
    (c.scopes ≠ [] → ∀ conduct,
      let c' := (c.perform build conduct .rethrow).state
      (c'.scopes = c.scopes ↔ t.covered (c.registry.resolve c.top) = false ∧
          c.registry.resolve c.top = c.top) ∧
        (t.covered (c.registry.resolve c.top) = true → c'.scopes = c.scopes.tail) ∧
        (c'.scopes = c.scopes → c'.givesBack? .endCatch = some c.top ∧
          ∀ conduct', (c'.perform build conduct' .endCatch).state.scopes = c.scopes.tail)) ∧
    (∀ conduct h, (c.perform build conduct (.rethrowCaptured h)).state.scopes = c.scopes) ∧
    ((∀ before k rest, l = before ++ k :: rest →
        ((fresh types allocator).run build before).KeepsScopesLive k.operation) →
      c.scopes ≠ [] → c.registry.resolve c.top = c.top) := by
  intro c t
  -- what the traffic says is covered is what the record is marked as
  have hcovered : ∀ k, t.covered k = (c.registry.find? k).any Record.rethrown :=
    covered_run build l (Registry.marks_empty Traffic.none) fun k hk => by cases hk
  refine ⟨fun hs conduct => ?_, fun conduct h => ?_, fun hkeeps hs => ?_⟩
  · intro c'
    have hscopes : c'.scopes = c.scopesAfter .rethrow := scopes_perform build conduct c .rethrow
    refine ⟨?_, fun hcov => ?_, fun hkept => ⟨?_, fun conduct' => ?_⟩⟩
    · rw [hscopes, hcovered]
      exact scopesAfter_rethrow_eq_iff hs
    · rw [hcovered] at hcov
      rw [hscopes, scopesAfter_rethrow hs, if_pos hcov]
    · exact givesBack?_endCatch_of_rethrow build conduct hs hkept
    · rw [scopes_perform, scopesAfter, hkept]
  · exact scopes_perform build conduct c (.rethrowCaptured h)
  · have hlive : c.ScopesLive := scopesLive_run build (fun h hh => by cases hh) hkeeps
    exact hlive.resolve_eq (top_mem hs)

/-- An exception ends with its scope open, and its handle becomes a name of another one. The rethrow
is of that one, and so is the scope after it. -/
example :
    let base : TypeTag := ⟨1, by decide⟩
    let derived : TypeTag := ⟨2, by decide⟩
    let types : Hierarchy :=
      ⟨#[⟨"Base", .classType []⟩, ⟨"Derived", .classType [⟨base, 8⟩]⟩], []⟩
    let l := [Operation.throw ⟨24⟩ none none, .beginCatch ⟨24⟩, .release ⟨24⟩,
      .throw ⟨16⟩ (some derived) none, .matchClause [base]].map (Call.mk .quiet)
    let c := (fresh types (Bump.startingAt 4096)).run .checked l
    c.scopes = [⟨24⟩] ∧ (c.perform .checked .quiet .rethrow).state.scopes = [⟨16⟩] := by
  decide +kernel

/-- A handler rethrows, and rethrows once more before anybody has caught the exception. Its scope
is closed, and there is a reference that nobody will give back. -/
theorem rethrown_again_closes_scope :
    let l := [Operation.throw ⟨16⟩ none none, .beginCatch ⟨16⟩, .rethrow].map (Call.mk .quiet)
    let c₀ := fresh Hierarchy.empty (Bump.startingAt 4096)
    let c := c₀.run .checked l
    let c' := (c.perform .checked .quiet .rethrow).state
    c₀.Disciplined .checked Account.empty l ∧ c.scopes = [⟨16⟩] ∧ c'.scopes = [] ∧
      c'.registry.refs ⟨16⟩ = 1 := by
  decide +kernel

end Context

end ExceptionLifetime
