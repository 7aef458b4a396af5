/-
To whom the names of exceptions lead.

Matching gives an exception further names, and a name that leads to another
exception already is refused. The handle with which an exception is thrown is not
looked at in this way. It is entered as it is, and from then on it leads to the new
exception, also if it has been a name of another one. That one goes by it as before,
but the name does not lead there any more.

Nothing else can disturb names. So every name of every live exception leads to its
owner exactly as long as nothing is thrown with a handle that leads to another
exception at that moment. What is thrown in place of itself does no harm, since its
handle leads to itself.

What remains when names are shared is stated last, for all runs. A name can only be
shared with the exception whose handle it is. So a handle that nobody has for its own
is a name of one exception at most: the one that comes first among those that go by
it is the only one, and to follow a handle twice is to follow it once.
-/
import ExceptionLifetime.Proofs.Matched
import ExceptionLifetime.Proofs.Run
import ExceptionLifetime.Storage.Bump

set_option autoImplicit false

namespace ExceptionLifetime

/-- Null is a name of the exception with the null handle only. -/
def Record.NullIsOwn (r : Record) : Prop := Handle.null ∈ r.aliases → r.handle = Handle.null

/-- The only name of a new exception is its handle. -/
theorem Record.nullIsOwn_fresh (h : Handle) (type : Option TypeTag) (d : Option Destructor) :
    (Record.fresh h type d).NullIsOwn :=
  fun hmem => ((HandleSet.mem_single _ h).1 hmem).symm

/-- No exception is ever given the null handle as a name. -/
theorem Record.Becomes.nullIsOwn {r r' : Record} {ch : Change} (hr : r.NullIsOwn)
    (hb : r.Becomes ch (some r')) (hold : ch ≠ .thrown r') : r'.NullIsOwn := by
  -- all but one of the things that can become of a record have the same names
  have hsame : ∀ s : Record, s.handle = r.handle → s.aliases = r.aliases → s.NullIsOwn := by
    intro s hhandle haliases hmem
    rw [hhandle]
    exact hr (haliases ▸ hmem)
  cases hb with
  | apart _ | refused => exact hr
  | displaced _ => exact absurd rfl hold
  | caught => exact hsame _ r.nowCaught.handle_held r.nowCaught.aliases_held
  | rethrown => exact hsame _ rfl rfl
  | retained => exact hsame _ r.handle_held r.aliases_held
  | released h => exact hsame _ (fields_relieved h).1 (fields_relieved h).2.1
  | named hnull =>
    intro hmem
    rcases (HandleSet.mem_insert r.aliases _ _).1 hmem with heq | hmem
    · exact absurd heq.symm hnull
    · exact hr hmem

namespace Registry

variable {g : Registry}

/-- Every name of a live exception leads to it. -/
def NamesResolve (g : Registry) : Prop :=
  ∀ k r a, g.find? k = some r → a ∈ r.aliases → g.resolve a = k

theorem namesResolve_empty : empty.NamesResolve := by
  intro k r a hr
  cases hr

/-- Names lead to whose they are if and only if no two exceptions share one. -/
theorem namesResolve_iff_partitioned (hnull : g.All Record.NullIsOwn) :
    g.NamesResolve ↔ g.Partitioned := by
  constructor
  · intro hg k k' r r' a hr hr' ha ha'
    exact (hg k r a hr ha).symm.trans (hg k' r' a hr' ha')
  · intro hp k r a hr ha
    by_cases hn : a = Handle.null
    · -- the null handle leads to itself, and it is a name of nothing else
      rw [hn] at ha ⊢
      rw [resolve_null, ← handle_of_find? hr, hnull k r hr ha]
    · exact hp.resolve_eq hr ha hn

/-- A handle that leads to itself is a name of no other exception. -/
theorem NamesResolve.eq_of_resolve (hg : g.NamesResolve) {h : Handle} (hown : g.resolve h = h)
    (k : Handle) (r : Record) (hr : g.find? k = some r) (ha : h ∈ r.aliases) : k = h :=
  (hg k r h hr ha).symm.trans hown

/-- A handle that does not lead to itself is a name of an exception with another handle. -/
theorem exists_of_resolve_ne {h : Handle} (hne : g.resolve h ≠ h) :
    ∃ k r, k ≠ h ∧ g.find? k = some r ∧ h ∈ r.aliases := by
  refine Classical.byContradiction fun hnone => hne (resolve_eq_self_iff.2 (.inr ?_))
  by_cases hlive : g.contains h = true
  · exact .inl hlive
  · refine .inr fun k r hr ha => hnone ⟨k, r, ?_, hr, ha⟩
    rintro rfl
    exact hlive ((contains_iff g k).2 ⟨r, hr⟩)

/-- What is thrown takes its handle from whoever went by it. -/
theorem resolve_eq_of_insert_fresh {h : Handle} {type : Option TypeTag} {d : Option Destructor}
    (hg : (g.insert (.fresh h type d)).NamesResolve) : g.resolve h = h := by
  refine Decidable.byContradiction fun hne => ?_
  obtain ⟨k, r, hk, hr, ha⟩ := exists_of_resolve_ne hne
  have hh : (Record.fresh h type d).handle = h := rfl
  have hnew : (g.insert (.fresh h type d)).find? h = some (.fresh h type d) := by
    rw [find?_insert, if_pos hh]
  have hold : (g.insert (.fresh h type d)).find? k = some r := by
    rw [find?_insert, hh, if_neg (Ne.symm hk), hr]
  -- the handle would have to lead to both of them
  have hlead := hg k r h hold ha
  rw [resolve_of_find? hnew] at hlead
  exact hk hlead.symm

end Registry

/-- A change disturbs names if and only if it throws an exception with a handle that leads to
another one. -/
theorem Change.namesResolve_on_iff {g : Registry} {ch : Change} (hg : g.NamesResolve)
    (hnull : g.All Record.NullIsOwn) (hnull' : (ch.on g).All Record.NullIsOwn)
    (hfresh : ∀ r, ch = .thrown r → ∃ type d, r = .fresh r.handle type d) :
    (ch.on g).NamesResolve ↔ ∀ r, ch = .thrown r → g.resolve r.handle = r.handle := by
  -- shared names are what stands in the way, and only a throw can come to share one
  have hp := (Registry.namesResolve_iff_partitioned hnull).1 hg
  constructor
  · rintro hafter r rfl
    obtain ⟨type, d, hr⟩ := hfresh r rfl
    rw [on, hr] at hafter
    exact Registry.resolve_eq_of_insert_fresh hafter
  · intro hown
    rw [Registry.namesResolve_iff_partitioned hnull']
    by_cases hthrown : ∃ r, ch = .thrown r
    · obtain ⟨r, rfl⟩ := hthrown
      obtain ⟨type, d, hr⟩ := hfresh r rfl
      rw [on, hr]
      exact hp.insert_own (hg.eq_of_resolve (hown r rfl)) type d
    · exact partitioned_on hp fun r hr => absurd ⟨r, hr⟩ hthrown

/-! ## Runs -/

namespace Context

variable {α : Type}

/-- A call disturbs names if and only if it throws an exception with a handle that leads to
another one. -/
theorem namesResolve_registryAfter_iff {c : Context α} (hg : c.registry.NamesResolve)
    (hnull : c.registry.All Record.NullIsOwn) (op : Operation) :
    (c.registryAfter op).NamesResolve ↔
      ∀ r, op.thrown? = some r → c.registry.resolve r.handle = r.handle := by
  have hfresh : ∀ r, c.change op = .thrown r → ∃ type d, r = .fresh r.handle type d := by
    intro r
    exact fresh_of_change
  have hnull' : (c.registryAfter op).All Record.NullIsOwn := by
    refine Change.all_on hnull (fun r hr => ?_) fun r r' hr => Record.Becomes.nullIsOwn hr
    obtain ⟨type, d, hr⟩ := hfresh r hr
    rw [hr]
    exact Record.nullIsOwn_fresh r.handle type d
  have hiff := Change.namesResolve_on_iff hg hnull hnull' hfresh
  simp only [change_eq_thrown_iff] at hiff
  exact hiff

variable [Allocator α]

/-- The null handle names nobody but the exception that was thrown with it, after any calls. -/
theorem nullIsOwn_run (build : Build) {c : Context α} (hc : c.registry.All Record.NullIsOwn)
    (l : List Call) : (c.run build l).registry.All Record.NullIsOwn :=
  all_run Record.nullIsOwn_fresh (fun _ _ _ hr => Record.Becomes.nullIsOwn hr) build hc l

/-- In a run names lead to whose they are throughout if and only if nothing is thrown with a handle
that leads to another exception. -/
theorem namesResolve_run_iff (build : Build) {c : Context α} (hg : c.registry.NamesResolve)
    (hnull : c.registry.All Record.NullIsOwn) (l : List Call) :
    (∀ before rest, l = before ++ rest → (c.run build before).registry.NamesResolve) ↔
      ∀ before k rest, l = before ++ k :: rest → ∀ r, k.operation.thrown? = some r →
        (c.run build before).registry.resolve r.handle = r.handle := by
  induction l generalizing c with
  | nil =>
    refine ⟨fun _ before k rest hl => ?_, fun _ before rest hl => ?_⟩
    · simp at hl
    · obtain ⟨rfl, -⟩ := List.append_eq_nil_iff.1 hl.symm
      exact hg
  | cons k l ih =>
    rw [forall_prefix_cons (P := fun before => (c.run build before).registry.NamesResolve),
      forall_split_cons (P := fun before k => ∀ r, k.operation.thrown? = some r →
        (c.run build before).registry.resolve r.handle = r.handle)]
    -- one call keeps the names if and only if its throw does
    have hstep := namesResolve_registryAfter_iff hg hnull k.operation
    rw [← registry_call build c k] at hstep
    have hnull' := nullIsOwn_run build hnull [k]
    constructor
    · rintro ⟨-, hrest⟩
      have hg' := hrest [] l rfl
      exact ⟨hstep.1 hg', (ih hg' hnull').1 hrest⟩
    · rintro ⟨hown, hrest⟩
      exact ⟨hg, (ih (hstep.2 hown) hnull').2 hrest⟩

/-- Names of exceptions and throws. In all states of a run every name of every live exception leads
to it if and only if nothing is thrown with a handle that leads to another exception. For each call
from a state in which names lead to whose they are the same holds, so that no call other than a
throw disturbs them. And that names lead to whose they are means that no two exceptions share
one. -/
theorem names_resolve_iff (build : Build) (types : Hierarchy) (allocator : α) (l : List Call) :
    let c := fresh types allocator
    ((∀ before rest, l = before ++ rest → (c.run build before).registry.NamesResolve) ↔
      ∀ before k rest, l = before ++ k :: rest → ∀ r, k.operation.thrown? = some r →
        (c.run build before).registry.resolve r.handle = r.handle) ∧
    ((c.run build l).registry.NamesResolve → ∀ conduct op,
      ((c.run build l).perform build conduct op).state.registry.NamesResolve ↔
        ∀ r, op.thrown? = some r → (c.run build l).registry.resolve r.handle = r.handle) ∧
    ((c.run build l).registry.NamesResolve ↔ (c.run build l).registry.Partitioned) := by
  intro c
  have hempty : c.registry.All Record.NullIsOwn := fun k r hr => by cases hr
  have hnull := nullIsOwn_run build hempty l
  refine ⟨namesResolve_run_iff build Registry.namesResolve_empty hempty l, fun hg conduct op => ?_,
    Registry.namesResolve_iff_partitioned hnull⟩
  rw [registry_perform]
  exact namesResolve_registryAfter_iff hg hnull op

/-- An exception is matched by its base class, and another one is thrown with the handle of the base
subobject. The first still goes by that handle, which leads to the second. -/
theorem thrown_with_name_not_resolved :
    let base : TypeTag := ⟨1, by decide⟩
    let derived : TypeTag := ⟨2, by decide⟩
    let types : Hierarchy :=
      ⟨#[⟨"Base", .classType []⟩, ⟨"Derived", .classType [⟨base, 8⟩]⟩], []⟩
    let l := [Operation.throw ⟨16⟩ (some derived) none, .matchClause [base],
      .throw ⟨24⟩ none none].map (Call.mk .quiet)
    let g := ((fresh types (Bump.startingAt 4096)).run .checked l).registry
    (g.find? ⟨16⟩).any (·.hasAlias ⟨24⟩) = true ∧ g.resolve ⟨24⟩ = ⟨24⟩ ∧ ¬ g.NamesResolve := by
  intro base derived types l g
  have hname : (g.find? ⟨16⟩).any (·.hasAlias ⟨24⟩) = true := by decide +kernel
  have hlead : g.resolve ⟨24⟩ = ⟨24⟩ := by decide +kernel
  refine ⟨hname, hlead, fun hg => ?_⟩
  cases hr : g.find? ⟨16⟩ with
  | none =>
    rw [hr] at hname
    cases hname
  | some r =>
    rw [hr] at hname
    have hback := hg ⟨16⟩ r ⟨24⟩ hr ((HandleSet.has_iff _ _).1 hname)
    rw [hlead] at hback
    exact absurd hback (by decide)

end Context

/-! ## Shared names -/

/-- A name that two exceptions share is the handle of one of them. -/
def Registry.SharesOwn (g : Registry) : Prop :=
  ∀ ⦃k k' r r' a⦄, g.find? k = some r → g.find? k' = some r' → a ∈ r.aliases → a ∈ r'.aliases →
    k ≠ k' → a = k ∨ a = k'

theorem Registry.sharesOwn_empty : Registry.empty.SharesOwn := by
  intro k k' r r' a hr
  cases hr

/-- A name that is nobody's own handle leads to the only exception that goes by it. -/
theorem Registry.SharesOwn.eq_owner {g : Registry} (hg : g.SharesOwn) {a o k : Handle} {s : Record}
    (hkey : g.find? a = none) (ho : g.owner? a = some o) (hs : g.find? k = some s)
    (ha : a ∈ s.aliases) : k = o := by
  obtain ⟨r, hr, hr', -⟩ := owner?_eq_some_iff.1 ho
  refine Decidable.byContradiction fun hne => ?_
  rcases hg hs hr ha hr' hne with rfl | rfl
  · rw [hkey] at hs
    cases hs
  · rw [hkey] at hr
    cases hr

namespace Change

variable {g : Registry} {ch : Change} {k a : Handle}

/-- A name that an exception has after a change is its handle, or it had it before, or nobody
went by it and it was given to the exception. -/
theorem name_before {r' : Record}
    (hfresh : ∀ r, ch = .thrown r → ∃ type d, r = .fresh r.handle type d)
    (hr' : (ch.on g).find? k = some r') (ha : a ∈ r'.aliases) :
    a = k ∨ (∃ r, g.find? k = some r ∧ a ∈ r.aliases) ∨ ch = .named k a ∧ g.owner? a = none := by
  -- a throw leaves one name only, the handle
  have hthrown : ch = .thrown r' → a = k := by
    intro hch
    obtain ⟨type, d, hfr⟩ := hfresh r' hch
    rw [hfr] at ha
    exact ((HandleSet.mem_single a _).1 ha).trans (Registry.handle_of_find? hr')
  rcases becomes_of_find?_on hr' with hnew | ⟨r, hr, hb⟩
  · exact .inl (hthrown hnew)
  have hold : a ∈ r.aliases → ∃ r, g.find? k = some r ∧ a ∈ r.aliases := fun hmem => ⟨r, hr, hmem⟩
  rcases hb.mem_aliases ha with hnew | hmem | hnamed
  · exact .inl (hthrown hnew)
  · exact .inr (.inl (hold hmem))
  · rw [Registry.handle_of_find? hr] at hnamed
    subst hnamed
    rw [on] at hr'
    cases hadd : g.addAlias k a with
    | error v =>
      simp only [hadd, hr, Option.some.injEq] at hr'
      exact .inr (.inl (hold (hr' ▸ ha)))
    | ok g' =>
      simp only [hadd] at hr'
      rcases Registry.addAlias_eq_ok hadd with rfl | ⟨-, hlead, -⟩
      · rw [hr] at hr'
        cases hr'
        exact .inr (.inl (hold ha))
      · -- the name led nowhere, or to the exception itself
        unfold Registry.leadsTo? at hlead
        split at hlead
        · exact .inl (by simpa using hlead)
        · cases ho : g.owner? a with
          | none => exact .inr (.inr ⟨rfl, rfl⟩)
          | some o =>
            obtain rfl : o = k := by simpa [ho] using hlead
            obtain ⟨s, hs, hs'⟩ := Registry.exists_of_owner? ho
            exact .inr (.inl ⟨s, hs, (HandleSet.has_iff _ _).1 hs'⟩)

/-- No change makes exceptions share any other names. -/
theorem sharesOwn_on (hg : g.SharesOwn)
    (hfresh : ∀ r, ch = .thrown r → ∃ type d, r = .fresh r.handle type d) :
    (ch.on g).SharesOwn := by
  intro k k' r r' a hr hr' ha ha' hne
  rcases name_before hfresh hr ha with hown | ⟨s, hs, hmem⟩ | ⟨hnamed, hnobody⟩
  · exact .inl hown
  · rcases name_before hfresh hr' ha' with hown' | ⟨s', hs', hmem'⟩ | ⟨-, hnobody'⟩
    · exact .inr hown'
    · exact hg hs hs' hmem hmem' hne
    · exact absurd hmem (Registry.owner?_eq_none_iff.1 hnobody' k s hs)
  · rcases name_before hfresh hr' ha' with hown' | ⟨s', hs', hmem'⟩ | ⟨hnamed', -⟩
    · exact .inr hown'
    · exact absurd hmem' (Registry.owner?_eq_none_iff.1 hnobody k' s' hs')
    · -- one change does not give a name to two exceptions
      rw [hnamed] at hnamed'
      cases hnamed'
      exact absurd rfl hne

end Change

namespace Context

variable {α : Type} [Allocator α]

/-- Only handles that were thrown are shared, after any calls. -/
theorem sharesOwn_run (build : Build) {c : Context α} (hc : c.registry.SharesOwn)
    (l : List Call) : (c.run build l).registry.SharesOwn := by
  induction l generalizing c with
  | nil => exact hc
  | cons k l ih =>
    apply ih
    rw [registry_call]
    apply Change.sharesOwn_on hc
    intro r
    exact fresh_of_change

/-- Where a handle leads after any calls, misuse and all.

Every record is under its own handle, which is one of its names. A handle leads to itself if it
is null, or that of a live exception, or nobody's name. Any other leads to the exception with the
least handle of those that go by it, and there is only one that does. To follow where a handle led
leads nowhere else. And a record is found for a handle if and only if it leads to the handle of a
live exception, and is the record of that one. -/
theorem resolves_to_least_key (build : Build) (types : Hierarchy) (allocator : α) (l : List Call)
    (x : Handle) :
    let c := (fresh types allocator).run build l
    let g := c.registry
    let y := g.resolve x
    (∀ k r, g.find? k = some r → r.handle = k ∧ k ∈ r.aliases) ∧
      (c.resolve x).outcome = .returned y ∧ (c.resolve x).state = c ∧
      (c.resolve y).outcome = .returned y ∧
      ((x = Handle.null ∨ g.contains x = true ∨ ∀ k r, g.find? k = some r → ¬ x ∈ r.aliases) →
        y = x) ∧
      (x ≠ Handle.null → g.contains x = false → (∃ k r, g.find? k = some r ∧ x ∈ r.aliases) →
        ∃ s, g.find? y = some s ∧ x ∈ s.aliases ∧
          ∀ k r, g.find? k = some r → x ∈ r.aliases → y.toNat ≤ k.toNat ∧ k = y) ∧
      ∃ o, (c.record? x).outcome = .returned o ∧ (c.record? x).state = c ∧
        (o.isSome = true ↔ g.contains y = true) ∧ ∀ r, o = some r → r.handle = y := by
  intro c g y
  have hshare : g.SharesOwn := sharesOwn_run build Registry.sharesOwn_empty l
  refine ⟨fun k r hr => ?_, rfl, rfl, congrArg Outcome.returned (Registry.resolve_resolve g x),
    Registry.resolve_eq_self_iff.2, fun hnull hkey hsome => ?_,
    g.find? y, rfl, rfl, Iff.rfl, fun r hr => Registry.handle_of_find? hr⟩
  · have hk := Registry.handle_of_find? hr
    exact ⟨hk, hk ▸ r.handle_mem⟩
  · have hfind := (Registry.contains_eq_false_iff g x).1 hkey
    cases ho : g.owner? x with
    | none =>
      obtain ⟨k, r, hr, hmem⟩ := hsome
      exact absurd hmem (Registry.owner?_eq_none_iff.1 ho k r hr)
    | some o =>
      -- its owner is the least that goes by it, and no other one does
      have hy : y = o := Registry.resolve_of_owner? hnull hfind ho
      obtain ⟨s, hs, hs', hleast⟩ := Registry.owner?_eq_some_iff.1 ho
      rw [hy]
      exact ⟨s, hs, hs', fun k r hr hmem =>
        ⟨hleast k r hr hmem, hshare.eq_owner hfind ho hr hmem⟩⟩

end Context

end ExceptionLifetime
