/-
Exceptions in flight.

A transfer of an exception sends it on a flight, and a handler that catches it
ends one. Several flights of one exception can be under way at once: a captured
exception that is rethrown can be rethrown again before anybody has caught it.
What keeps the exception alive in flight is its mark, and there is one mark for
all flights. The first handler takes it away.

So an exception in flight is lost where its last reference is given back after a
handler has caught it, if it is still in flight then, and nowhere else. Where no
handler catches an exception with two flights under way, this does not happen.
-/
import ExceptionLifetime.Proofs.Accounting

set_option autoImplicit false

namespace ExceptionLifetime

/-! ## Flights -/

/-- The flights of exceptions. -/
structure Traffic where
  /-- The transfers of the exception since it was thrown, less the handlers that caught it. -/
  flights : Handle → Int
  /-- The exception was rethrown, and no handler has caught it since. -/
  covered : Handle → Bool

namespace Traffic

/-- Nothing has been thrown yet. -/
def none : Traffic := ⟨fun _ => 0, fun _ => false⟩

/-- The exception `h` with so many flights, covered or not. -/
def update (t : Traffic) (h : Handle) (flights : Int) (covered : Bool) : Traffic :=
  ⟨fun k => if k = h then flights else t.flights k,
    fun k => if k = h then covered else t.covered k⟩

/-- The flights after a change of the live exceptions `g`. A throw begins the first flight,
and of what is not alive no flights are counted. -/
def after (g : Registry) (t : Traffic) : Change → Traffic
  | .thrown r => t.update r.handle 1 false
  | .caught h => t.update h (t.flights h - 1) false
  | .rethrown h => if g.contains h then t.update h (t.flights h + 1) true else t
  | _ => t

@[simp] theorem flights_update_self (t : Traffic) (h : Handle) (n : Int) (b : Bool) :
    (t.update h n b).flights h = n := if_pos rfl

@[simp] theorem covered_update_self (t : Traffic) (h : Handle) (n : Int) (b : Bool) :
    (t.update h n b).covered h = b := if_pos rfl

theorem flights_update_of_ne {h k : Handle} (hk : k ≠ h) (t : Traffic) (n : Int) (b : Bool) :
    (t.update h n b).flights k = t.flights k := if_neg hk

theorem covered_update_of_ne {h k : Handle} (hk : k ≠ h) (t : Traffic) (n : Int) (b : Bool) :
    (t.update h n b).covered k = t.covered k := if_neg hk

/-- A change covers and uncovers only what it concerns. -/
theorem covered_after_of_ne {ch : Change} {k : Handle} (hk : ch.subject? ≠ some k) (g : Registry)
    (t : Traffic) : (t.after g ch).covered k = t.covered k := by
  have hother : ∀ h, some h ≠ some k → k ≠ h := fun h hne heq => hne (congrArg some heq.symm)
  cases ch with
  | thrown r => exact covered_update_of_ne (hother _ hk) _ _ _
  | caught h => exact covered_update_of_ne (hother _ hk) _ _ _
  | rethrown h =>
    rw [after]
    split
    · exact covered_update_of_ne (hother _ hk) _ _ _
    · rfl
  | nothing | retained _ | released _ | named _ _ => rfl

end Traffic

/-! ## Marks -/

namespace Registry

/-- The marks of live exceptions tell which are covered. -/
def Marks (g : Registry) (t : Traffic) : Prop :=
  ∀ k r, g.find? k = some r → r.rethrown = t.covered k

theorem marks_empty (t : Traffic) : empty.Marks t := by
  intro k r hr
  cases hr

variable {g : Registry} {t : Traffic}

/-- Marks follow what is covered, whatever is done. -/
theorem Marks.on (hm : g.Marks t) {ch : Change}
    (hnew : ∀ r, ch = .thrown r → r.rethrown = false) :
    (ch.on g).Marks (t.after g ch) := by
  intro k r' hr'
  rcases Change.becomes_of_find?_on hr' with rfl | ⟨r, hr, hb⟩
  · rw [← handle_of_find? hr', Traffic.after, Traffic.covered_update_self]
    exact hnew r' rfl
  · have hmark := hm k r hr
    -- what was alive keeps its mark, except where the change is about the mark
    have hlive := (contains_iff g k).2 ⟨r, hr⟩
    obtain rfl := handle_of_find? hr
    cases hb with
    | apart hne => rw [Traffic.covered_after_of_ne hne, hmark]
    | displaced hs => rw [← hs, Traffic.after, Traffic.covered_update_self, hnew r' rfl]
    | caught =>
      rw [Traffic.after, Traffic.covered_update_self, Record.rethrown_held, Record.nowCaught]
    | rethrown => rw [Traffic.after, if_pos hlive, Traffic.covered_update_self, Record.nowRethrown]
    | retained => exact r.rethrown_held.trans hmark
    | released hrel => exact (Record.fields_relieved hrel).2.2.2.2.2.trans hmark
    | named _ | refused => exact hmark

/-- What is in flight is covered, or there is no reference to it that could be given back. -/
def Guards (g : Registry) (t : Traffic) : Prop :=
  ∀ k, 0 < t.flights k → t.covered k = true ∨ g.refs k = 0

/-- What guards a flight still does when references are lost. -/
theorem Guards.of_refs_le {g' : Registry} (hg : g.Guards t) (hle : ∀ k, g'.refs k ≤ g.refs k) :
    g'.Guards t := by
  intro k hk
  rcases hg k hk with hcov | hzero
  · exact .inl hcov
  · have := hle k
    exact .inr (by omega)

/-- References to what is in flight come from scopes, and who catches an exception ends its only
flight. -/
theorem Guards.on (hg : g.Guards t) {ch : Change}
    (hnew : ∀ r, ch = .thrown r →
      ∃ type d, r = .fresh r.handle type d ∧ g.find? r.handle = none)
    (hcaught : ∀ h, ch = .caught h → t.flights h ≤ 1)
    (hretained : ∀ h, ch = .retained h → g.retain h = g ∨ 0 < g.refs h) :
    (ch.on g).Guards (t.after g ch) := by
  cases ch with
  | nothing => exact hg
  | thrown r =>
    obtain ⟨type, d, hr, hdead⟩ := hnew r rfl
    intro k hk
    rw [Change.on, Traffic.after, hr, refs_insert_fresh hdead]
    by_cases hkr : k = r.handle
    · rw [hkr, refs_of_find?_none hdead]
      exact .inr rfl
    · rw [Traffic.after, Traffic.flights_update_of_ne hkr] at hk
      rw [Traffic.covered_update_of_ne (show k ≠ (Record.fresh r.handle type d).handle from hkr)]
      exact hg k hk
  | caught h =>
    intro k hk
    by_cases hkh : k = h
    · -- its one flight has ended
      subst hkh
      rw [Traffic.after, Traffic.flights_update_self] at hk
      have hone := hcaught k rfl
      omega
    · rw [Traffic.after, Traffic.flights_update_of_ne hkh] at hk
      rw [Change.on, Traffic.after, Traffic.covered_update_of_ne hkh, refs_retain_of_ne hkh,
        refs_modify (f := Record.nowCaught) (fun _ => rfl) (fun _ => rfl)]
      exact hg k hk
  | rethrown h =>
    intro k hk
    rw [Change.on, refs_modify (f := Record.nowRethrown) (fun _ => rfl) (fun _ => rfl)]
    rw [Traffic.after] at hk ⊢
    split at hk
    next hlive =>
      rw [if_pos hlive]
      by_cases hkh : k = h
      · exact .inl (by rw [hkh, Traffic.covered_update_self])
      · rw [Traffic.flights_update_of_ne hkh] at hk
        rw [Traffic.covered_update_of_ne hkh]
        exact hg k hk
    next hdead =>
      rw [if_neg hdead]
      exact hg k hk
  | retained h =>
    intro k hk
    by_cases hkh : k = h
    · subst hkh
      rcases hretained k rfl with hsame | hpos
      · rw [Change.on, hsame]
        exact hg k hk
      · -- who has a reference already is covered
        rcases hg k hk with hcov | hzero
        · exact .inl hcov
        · omega
    · rw [Change.on, refs_retain_of_ne hkh]
      exact hg k hk
  | released h =>
    apply hg.of_refs_le
    intro k
    by_cases hnull : h = Handle.null
    · have hsame : Change.on g (.released h) = g := by rw [Change.on, hnull, release_null]
      exact Nat.le_of_eq (by rw [hsame])
    · rw [Change.on, refs_release hnull]
      exact Nat.sub_le _ _
  | named owner a =>
    rw [Change.on]
    split
    next g' hg' =>
      intro k hk
      rw [refs_addAlias hg']
      exact hg k hk
    · exact hg

end Registry

/-! ## Calls -/

/-- A call that asks for a reference to an exception by one of its names. -/
def Operation.retains : Operation → Bool
  | .retain _ | .retainAny _ => true
  | _ => false

namespace Context

variable {α : Type} {c : Context α} {t : Traffic} {op : Operation}

/-- Every exception in flight is alive. -/
def KeepsFlying (c : Context α) (t : Traffic) : Prop :=
  ∀ h, 0 < t.flights h → c.registry.contains h = true

/-- A call that gives back the last reference to an exception in flight, after a handler has
caught it. -/
def Exposes (c : Context α) (t : Traffic) (op : Operation) : Prop :=
  ∃ h, c.givesBack? op = some h ∧ h ≠ Handle.null ∧ c.registry.refs h = 1 ∧
    0 < t.flights h ∧ t.covered h = false

/-- A handler catches an exception with more than one flight under way. -/
def CatchesMany (c : Context α) (t : Traffic) (op : Operation) : Prop :=
  ∃ x, op = .beginCatch x ∧ 1 < t.flights (c.registry.resolve x)

/-- The flights after a call. -/
def trafficAfter (c : Context α) (t : Traffic) (op : Operation) : Traffic :=
  t.after c.registry (c.change op)

theorem not_rethrown_of_thrown {r : Record} (hch : c.change op = .thrown r) :
    r.rethrown = false := by
  obtain ⟨type, d, hr⟩ := fresh_of_change hch
  rw [hr]
  rfl

/-- A call that exposes an exception in flight ends it. -/
theorem Exposes.lost (hm : c.registry.Marks t) (he : c.Exposes t op) :
    ∃ h, 0 < (c.trafficAfter t op).flights h ∧ (c.registryAfter op).contains h = false := by
  obtain ⟨h, hgives, hnull, hrefs, hflies, hopen⟩ := he
  have hlive := Registry.contains_of_refs_pos (g := c.registry) (h := h) (by omega)
  obtain ⟨r, hr⟩ := (Registry.contains_iff _ _).1 hlive
  rw [Registry.refs_of_find? hr] at hrefs
  rw [← hm h r hr] at hopen
  refine ⟨h, ?_, ?_⟩
  · rw [trafficAfter, change_eq_released_iff.2 hgives]
    exact hflies
  · rw [Registry.contains_eq_false_iff, find?_registryAfter_eq_none_iff hr]
    exact ⟨hgives, hnull, hrefs, hopen⟩

/-- What is alive and in flight after a call that exposes nothing is alive after it. -/
theorem contains_of_not_exposes (hm : c.registry.Marks t) (hexp : ¬ c.Exposes t op) {h : Handle}
    (hlive : c.registry.contains h = true) (hflies : 0 < (c.trafficAfter t op).flights h) :
    (c.registryAfter op).contains h = true := by
  obtain ⟨r, hr⟩ := (Registry.contains_iff _ _).1 hlive
  by_cases hgone : (c.registryAfter op).find? h = none
  · -- it ended by its last reference, so it was in flight without a mark
    obtain ⟨hgives, hnull, hone, hopen⟩ := (find?_registryAfter_eq_none_iff hr).1 hgone
    rw [trafficAfter, change_eq_released_iff.2 hgives] at hflies
    rw [← Registry.refs_of_find? hr] at hone
    rw [hm h r hr] at hopen
    exact absurd ⟨h, hgives, hnull, hone, hflies, hopen⟩ hexp
  · rw [Registry.contains, Option.isSome_iff_ne_none]
    exact hgone

/-- What was neither alive nor in flight and is in flight after a call has been thrown by it. -/
theorem contains_of_takeoff {h : Handle} (hdead : ¬ c.registry.contains h = true)
    (hground : ¬ 0 < t.flights h) (hflies : 0 < (c.trafficAfter t op).flights h) :
    (c.registryAfter op).contains h = true := by
  rw [trafficAfter] at hflies
  rw [registryAfter]
  cases hch : c.change op with
  | thrown r =>
    rw [hch, Traffic.after] at hflies
    by_cases hhr : h = r.handle
    · rw [Change.on, Registry.contains, Registry.find?_insert, if_pos hhr.symm]
      rfl
    · rw [Traffic.flights_update_of_ne hhr] at hflies
      exact absurd hflies hground
  | caught k =>
    rw [hch, Traffic.after] at hflies
    by_cases hhk : h = k
    · -- a handler only ends flights
      rw [hhk, Traffic.flights_update_self] at hflies
      rw [hhk] at hground
      omega
    · rw [Traffic.flights_update_of_ne hhk] at hflies
      exact absurd hflies hground
  | rethrown k =>
    rw [hch, Traffic.after] at hflies
    split at hflies
    next hk =>
      by_cases hhk : h = k
      · rw [hhk] at hdead
        exact absurd hk hdead
      · rw [Traffic.flights_update_of_ne hhk] at hflies
        exact absurd hflies hground
    · exact absurd hflies hground
  | nothing | retained k | released k | named owner a =>
    rw [hch] at hflies
    exact absurd hflies hground

/-- An exception in flight is lost where a call exposes it, and nowhere else. -/
theorem keepsFlying_step (hm : c.registry.Marks t) (hk : c.KeepsFlying t) (op : Operation) :
    (∀ h, 0 < (c.trafficAfter t op).flights h → (c.registryAfter op).contains h = true) ↔
      ¬ c.Exposes t op := by
  constructor
  · intro hafter hexp
    obtain ⟨h, hflies, hlost⟩ := hexp.lost hm
    rw [hafter h hflies] at hlost
    cases hlost
  · intro hexp h hflies
    by_cases hlive : c.registry.contains h = true
    · exact contains_of_not_exposes hm hexp hlive hflies
    · exact contains_of_takeoff hlive (fun hpos => hlive (hk h hpos)) hflies

/-- Three operations take a reference. -/
theorem change_eq_retained {h : Handle} (hch : c.change op = .retained h) :
    op = .retain h ∨ (∃ x, op = .retainAny x) ∨
      (op = .capture ∧ h = c.registry.resolve c.top) := by
  cases op with
  | retain k =>
    cases hch
    exact .inl rfl
  | retainAny k => exact .inr (.inl ⟨k, rfl⟩)
  | capture =>
    cases hch
    exact .inr (.inr ⟨rfl, rfl⟩)
  | throwIndexed _ _ _ _ | rethrow | rethrowCaptured _ | matchClause _ =>
    rw [change] at hch
    split at hch <;> cases hch
  | _ => cases hch

/-- One operation catches. -/
theorem change_eq_caught {h : Handle} (hch : c.change op = .caught h) :
    ∃ x, op = .beginCatch x ∧ c.registry.resolve x = h := by
  have hcatches := change_eq_caught_iff.1 hch
  cases op with
  | beginCatch x => exact ⟨x, rfl, Option.some.inj hcatches⟩
  | _ => cases hcatches

/-- A client that takes references by capturing only takes them from scopes. -/
theorem IsBalanced.retain_or_refs_pos {a : Account} {h : Handle} (hb : c.IsBalanced a)
    (hcapture : op.retains = false) (hch : c.change op = .retained h) :
    c.registry.retain h = c.registry ∨ 0 < c.registry.refs h := by
  rcases change_eq_retained hch with rfl | ⟨x, rfl⟩ | ⟨rfl, rfl⟩
  · cases hcapture
  · cases hcapture
  · by_cases hs : c.scopes = []
    · rw [top_of_scopes_nil hs, Registry.resolve_null, Registry.retain_null]
      exact .inl rfl
    · obtain ⟨s, rest, hs⟩ := List.exists_cons_of_ne_nil hs
      have hpos : 0 < c.scopes.count s := by
        rw [hs]
        exact List.count_pos_iff.2 List.mem_cons_self
      have heq := hb.refs_eq s
      rw [top_of_scopes hs, hb.resolve_head hs]
      exact .inr (by omega)

/-- What is covered or without references is not exposed. -/
theorem not_exposes_of_guards (hg : c.registry.Guards t) (op : Operation) :
    ¬ c.Exposes t op := by
  rintro ⟨h, -, -, hrefs, hflies, hopen⟩
  rcases hg h hflies with hcov | hzero
  · rw [hopen] at hcov
    cases hcov
  · omega

/-! ## Runs -/

variable [Allocator α]

/-- The flights after a run. -/
def traffic (build : Build) (c : Context α) (t : Traffic) : List Call → Traffic
  | [] => t
  | k :: l => (c.call build k).state.traffic build (c.trafficAfter t k.operation) l

/-- A call keeps the marks in step with the flights, however it ends. -/
theorem marks_call (hm : c.registry.Marks t) (build : Build) (k : Call) :
    (c.call build k).state.registry.Marks (c.trafficAfter t k.operation) := by
  rw [registry_call]
  exact hm.on fun _ => not_rethrown_of_thrown

/-- In a run exceptions in flight stay alive if and only if no call exposes one. -/
theorem keepsFlying_run (build : Build) (l : List Call) (hm : c.registry.Marks t)
    (hk : c.KeepsFlying t) :
    (∀ before rest, l = before ++ rest →
        (c.run build before).KeepsFlying (c.traffic build t before)) ↔
      ∀ before k rest, l = before ++ k :: rest →
        ¬ (c.run build before).Exposes (c.traffic build t before) k.operation := by
  induction l generalizing c t with
  | nil =>
    refine ⟨fun _ before k rest hl => ?_, fun _ before rest hl => ?_⟩
    · simp at hl
    · obtain ⟨rfl, -⟩ := List.append_eq_nil_iff.1 hl.symm
      exact hk
  | cons k l ih =>
    rw [forall_prefix_cons (P := fun before =>
        (c.run build before).KeepsFlying (c.traffic build t before)),
      forall_split_cons (P := fun before k =>
        ¬ (c.run build before).Exposes (c.traffic build t before) k.operation)]
    -- the step needs what is in flight to be alive before the call, which is given either way
    have hm' := marks_call hm build k
    have hstep := keepsFlying_step hm hk k.operation
    rw [← registry_call build c k] at hstep
    constructor
    · rintro ⟨-, hrest⟩
      have hk' := hrest [] l rfl
      exact ⟨hstep.1 hk', (ih hm' hk').1 hrest⟩
    · rintro ⟨hexp, hrest⟩
      exact ⟨hk, (ih hm' (hstep.2 hexp)).2 hrest⟩

/-- A disciplined client that takes references by capturing only exposes no exception, as long
as no handler catches one with more than one flight under way. -/
theorem not_exposes_of_run {build : Build} {a : Account} {l : List Call} (hb : c.IsBalanced a)
    (hg : c.registry.Guards t) (hd : c.Disciplined build a l)
    (hroom : (c.audit build a l).taken < UInt64.size - 1)
    (hcapture : ∀ k ∈ l, k.operation.retains = false)
    (hone : ∀ before k rest, l = before ++ k :: rest →
      ¬ (c.run build before).CatchesMany (c.traffic build t before) k.operation) :
    ∀ before k rest, l = before ++ k :: rest →
      ¬ (c.run build before).Exposes (c.traffic build t before) k.operation := by
  induction l generalizing c t a with
  | nil =>
    intro before k rest hl
    simp at hl
  | cons k l ih =>
    rw [forall_split_cons (P := fun before k =>
      ¬ (c.run build before).CatchesMany (c.traffic build t before) k.operation)] at hone
    rw [forall_split_cons (P := fun before k =>
      ¬ (c.run build before).Exposes (c.traffic build t before) k.operation)]
    obtain ⟨ha, hd⟩ := hd
    obtain ⟨hone, hrest⟩ := hone
    have hroom' : (c.account a k.operation).taken < UInt64.size - 1 :=
      Nat.lt_of_le_of_lt (taken_le_audit build _ _ l) hroom
    have hb' := hb.step ha hroom'
    rw [← registry_call build, ← scopes_call build] at hb'
    -- of the rules of a disciplined client, two matter: it throws what nobody goes by, and it
    -- has scopes only of what is alive
    have hg' : (c.registryAfter k.operation).Guards (c.trafficAfter t k.operation) := by
      refine hg.on (fun r hch => ?_) (fun h hch => ?_) fun h hch => ?_
      · obtain ⟨type, d, hr, hthrows⟩ := Operation.thrown?_eq_some (change_eq_thrown_iff.1 hch)
        exact ⟨type, d, hr, (ha.of_throws? hthrows).2.1⟩
      · obtain ⟨x, hx, rfl⟩ := change_eq_caught hch
        exact Int.not_lt.1 fun hmany => hone ⟨x, hx, hmany⟩
      · exact hb.retain_or_refs_pos (hcapture k List.mem_cons_self) hch
    rw [← registry_call build] at hg'
    refine ⟨not_exposes_of_guards hg k.operation, ih hb' hg' hd hroom (fun k' hk' => ?_) hrest⟩
    exact hcapture k' (List.mem_cons_of_mem k hk')

/-- A disciplined client takes references by capturing only. Exceptions in flight stay alive in
a run of it if and only if the last reference to one is never given back after a handler has
caught it. That does not happen where no handler catches an exception with more than one flight
under way, as long as there is room for the references. -/
theorem in_flight_alive_iff (build : Build) (types : Hierarchy) (allocator : α) (l : List Call)
    (hd : (fresh types allocator).Disciplined build Account.empty l)
    (hcapture : ∀ k ∈ l, k.operation.retains = false) :
    let c := fresh types allocator
    ((∀ before rest, l = before ++ rest →
        (c.run build before).KeepsFlying (c.traffic build Traffic.none before)) ↔
      ∀ before k rest, l = before ++ k :: rest →
        ¬ (c.run build before).Exposes (c.traffic build Traffic.none before) k.operation) ∧
    ((c.audit build Account.empty l).taken < UInt64.size - 1 →
      (∀ before k rest, l = before ++ k :: rest →
        ¬ (c.run build before).CatchesMany (c.traffic build Traffic.none before) k.operation) →
      ∀ before rest, l = before ++ rest →
        (c.run build before).KeepsFlying (c.traffic build Traffic.none before)) := by
  intro c
  -- at the beginning nothing is in flight, so nothing needs a guard
  have hground : c.KeepsFlying Traffic.none := fun h hpos => absurd hpos (Int.lt_irrefl 0)
  have hguards : c.registry.Guards Traffic.none := fun h hpos => absurd hpos (Int.lt_irrefl 0)
  have hiff := keepsFlying_run build l (Registry.marks_empty Traffic.none) hground
  refine ⟨hiff, fun hroom hone => hiff.2 ?_⟩
  exact not_exposes_of_run balanced_empty hguards hd hroom hcapture hone

/-- An exception that is rethrown from its scope and caught inside of it. -/
theorem in_flight_alive_rethrown :
    let c := fresh Hierarchy.empty (Bump.startingAt 4096)
    let l := [Operation.throw ⟨16⟩ none none, .beginCatch ⟨16⟩, .rethrow, .beginCatch ⟨16⟩].map
      (Call.mk .quiet)
    c.Disciplined .checked Account.empty l ∧ (∀ k ∈ l, k.operation.retains = false) ∧
      ∀ before rest, l = before ++ rest →
        (c.run .checked before).KeepsFlying (c.traffic .checked Traffic.none before) := by
  intro c l
  have hd : c.Disciplined .checked Account.empty l := by decide +kernel
  have hcapture : ∀ k ∈ l, k.operation.retains = false := by simp [l, Operation.retains]
  refine ⟨hd, hcapture, ?_⟩
  refine (in_flight_alive_iff .checked _ _ l hd hcapture).2 (by decide +kernel) ?_
  rintro before k rest hl ⟨x, hx, hmany⟩
  simp only [l, List.map_cons, List.map_nil] at hl
  rcases before with _ | ⟨_, _ | ⟨_, _ | ⟨_, _ | ⟨_, before⟩⟩⟩⟩
  · cases hl
    cases hx
  · cases hl
    cases hx
    exact absurd hmany (by decide +kernel)
  · cases hl
    cases hx
  · cases hl
    cases hx
    exact absurd hmany (by decide +kernel)
  · simp at hl

/-- A captured exception is rethrown twice. The first handler takes the mark, and with the last
reference the exception is gone, while its second flight is under way. -/
theorem rethrown_twice_not_alive :
    let c := fresh Hierarchy.empty (Bump.startingAt 4096)
    let l := [Operation.throw ⟨16⟩ none none, .beginCatch ⟨16⟩, .capture, .endCatch,
      .rethrowCaptured ⟨16⟩, .rethrowCaptured ⟨16⟩, .beginCatch ⟨16⟩, .endCatch,
      .releaseAny ⟨16⟩].map (Call.mk .quiet)
    c.Disciplined .checked Account.empty l ∧ (∀ k ∈ l, k.operation.retains = false) ∧
      ¬ ∀ before rest, l = before ++ rest →
        (c.run .checked before).KeepsFlying (c.traffic .checked Traffic.none before) := by
  intro c l
  refine ⟨by decide +kernel, by simp [l, Operation.retains], fun hkeeps => ?_⟩
  have hlost := hkeeps l [] (List.append_nil l).symm ⟨16⟩ (by decide +kernel)
  exact absurd hlost (by decide +kernel)

end Context

end ExceptionLifetime
