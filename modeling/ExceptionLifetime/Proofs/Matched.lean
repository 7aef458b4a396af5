/-
Where the value leads that a chosen clause receives.

A clause may receive the address of a subobject. That address is made a name of the
exception, and the handler comes back with it, so it has to lead there: at once, when
the handler begins its scope, and as long as the exception is alive.

Names may be shared. Then the first of the exceptions that go by a name has it, in
ascending order of handle, and a name that leads to an exception is refused to all
others, also to those that come first. So what the clause receives leads back to the
exception from then on. Only a throw can take it away, by entering an exception with
that very handle, and only the end of the exception.
-/
import ExceptionLifetime.Proofs.Run
import ExceptionLifetime.Storage.Bump

set_option autoImplicit false

namespace ExceptionLifetime

/-! ## The owner of a name -/

namespace Registry

variable {g : Registry} {a h : Handle}

/-- The first exception that goes by a name has the least handle of them. -/
theorem owner?_eq_some_iff :
    g.owner? a = some h ↔ ∃ r, g.find? h = some r ∧ a ∈ r.aliases ∧
      ∀ k s, g.find? k = some s → a ∈ s.aliases → h.toNat ≤ k.toNat := by
  -- whoever is found first comes before all others that go by the name
  have hfirst : ∀ o, g.owner? a = some o → ∀ k s, g.find? k = some s → a ∈ s.aliases →
      o.toNat ≤ k.toNat := by
    intro o ho k s hs ha
    obtain ⟨r, hr, rfl⟩ := Option.map_eq_some_iff.1 ho
    obtain ⟨-, before, after, hsplit, hnot⟩ := List.find?_eq_some_iff_append.1 hr
    obtain ⟨hmem, rfl⟩ := find?_eq_some_iff.1 hs
    have hasc := g.records.ascending
    change g.toList.Pairwise _ at hasc
    rw [hsplit] at hmem hasc
    rcases List.mem_append.1 hmem with hbefore | hrest
    · have hno := hnot s hbefore
      rw [Record.hasAlias, (HandleSet.has_iff _ _).2 ha] at hno
      cases hno
    · rcases List.mem_cons.1 hrest with rfl | hafter
      · exact Nat.le_refl _
      · exact Nat.le_of_lt (List.rel_of_pairwise_cons (List.pairwise_append.1 hasc).2.1 hafter)
  constructor
  · intro ho
    obtain ⟨r, hr, ha⟩ := exists_of_owner? ho
    exact ⟨r, hr, (HandleSet.has_iff _ _).1 ha, hfirst h ho⟩
  · rintro ⟨r, hr, ha, hleast⟩
    cases ho : g.owner? a with
    | none => exact absurd ha (owner?_eq_none_iff.1 ho h r hr)
    | some o =>
      obtain ⟨s, hs, hs'⟩ := exists_of_owner? ho
      have hle := hfirst o ho h r hr ha
      have hge := hleast o s hs ((HandleSet.has_iff _ _).1 hs')
      exact congrArg some (Handle.ext_toNat (Nat.le_antisymm hle hge))

/-- A handle leads to a live exception if it is its own, or if it is nobody's own and the first
that goes by it is that exception. -/
theorem resolve_eq_iff (hnull : a ≠ Handle.null) (hlive : g.contains h = true) :
    g.resolve a = h ↔ a = h ∨ g.find? a = none ∧ g.owner? a = some h := by
  cases hkey : g.find? a with
  | some r => simp [resolve_of_find? hkey]
  | none =>
    have hne : a ≠ h := by
      rintro rfl
      rw [(contains_eq_false_iff g a).2 hkey] at hlive
      cases hlive
    cases ho : g.owner? a with
    | some o => simp [resolve_of_owner? hnull hkey ho, hne]
    | none => simp [resolve, ho, hne]

/-- Where a handle leads is the end of the way. -/
theorem resolve_resolve (g : Registry) (a : Handle) : g.resolve (g.resolve a) = g.resolve a := by
  by_cases hself : g.resolve a = a
  · rw [hself, hself]
  have hnull : a ≠ Handle.null := by
    rintro rfl
    exact hself (resolve_null g)
  cases hkey : g.find? a with
  | some r => exact absurd (resolve_of_find? hkey) hself
  | none =>
    cases ho : g.owner? a with
    | none => exact absurd (by simp [resolve, ho]) hself
    | some o =>
      obtain ⟨r, hr, -⟩ := exists_of_owner? ho
      rw [resolve_of_owner? hnull hkey ho, resolve_of_find? hr]

/-- A name that resolves to a live exception leads to it. -/
theorem leadsTo?_of_resolve (hnull : a ≠ Handle.null) (hlive : g.contains h = true)
    (hlead : g.resolve a = h) : g.leadsTo? a = some h := by
  rcases (resolve_eq_iff hnull hlive).1 hlead with rfl | ⟨hkey, ho⟩
  · rw [leadsTo?, if_pos hlive]
  · rw [leadsTo?, (contains_eq_false_iff g a).2 hkey, if_neg Bool.false_ne_true, ho]

/-- A name that leads to a live exception is refused to all others. -/
theorem addAlias_of_resolve (hnull : a ≠ Handle.null) (hlive : g.contains h = true)
    (hlead : g.resolve a = h) {k : Handle} (hk : k ≠ h) :
    g.addAlias k a = .error (.aliasCollision a k h) := by
  simp [addAlias, hnull, leadsTo?_of_resolve hnull hlive hlead, Ne.symm hk]

/-- A name that is not refused leads to whom it was given. -/
theorem resolve_of_addAlias {g' : Registry} (hnull : a ≠ Handle.null)
    (hlive : g.contains h = true) (ha : g.addAlias h a = .ok g') : g'.resolve a = h := by
  obtain ⟨hlead, rfl⟩ : g.leadsTo? a ∈ [none, some h] ∧ g' = g.named h a := by
    have hn : a.isNull = false := (Handle.isNull_eq_false_iff a).2 hnull
    unfold addAlias at ha
    rw [hn, if_neg Bool.false_ne_true] at ha
    cases hl : g.leadsTo? a with
    | none => simp_all
    | some o => by_cases ho : o = h <;> simp_all
  have hlive' : (g.named h a).contains h = true := by rw [contains_addAlias ha, hlive]
  rw [resolve_eq_iff hnull hlive', owner?_eq_some_iff]
  by_cases hself : a = h
  · exact .inl hself
  -- nobody else goes by `a`, or those who do come after `h`
  obtain ⟨hkey, hleast⟩ : g.find? a = none ∧
      ∀ k s, g.find? k = some s → a ∈ s.aliases → h.toNat ≤ k.toNat := by
    unfold leadsTo? at hlead
    split at hlead
    next hkey => simp [hself] at hlead
    next hkey =>
      refine ⟨(contains_eq_false_iff g a).1 (Bool.eq_false_iff.2 hkey), fun k s hs hmem => ?_⟩
      cases ho : g.owner? a with
      | none => exact absurd hmem (owner?_eq_none_iff.1 ho k s hs)
      | some o =>
        obtain rfl : o = h := by simpa [ho] using hlead
        obtain ⟨-, -, -, hfirst⟩ := owner?_eq_some_iff.1 ho
        exact hfirst k s hs hmem
  obtain ⟨r, hr⟩ := (contains_iff g h).1 hlive
  refine .inr ⟨?_, r.withAlias a, ?_, (HandleSet.mem_insert r.aliases a a).2 (.inl rfl), ?_⟩
  · rw [find?_named, if_neg (Ne.symm hself), hkey]
  · rw [find?_named, if_pos rfl, hr]
    rfl
  · intro k s hs hmem
    rw [find?_named] at hs
    split at hs
    next hk => exact Nat.le_of_eq (congrArg Handle.toNat hk)
    next hk => exact hleast k s hs hmem

end Registry

/-! ## Changes -/

/-- A record has the names it had before, the one it is given, and those it was thrown with. -/
theorem Record.Becomes.mem_aliases {r r' : Record} {ch : Change} {a : Handle}
    (hb : r.Becomes ch (some r')) (ha : a ∈ r'.aliases) :
    ch = .thrown r' ∨ a ∈ r.aliases ∨ ch = .named r.handle a := by
  cases hb with
  | apart _ | refused | rethrown => exact .inr (.inl ha)
  | displaced _ => exact .inl rfl
  | caught => exact .inr (.inl (r.nowCaught.aliases_held ▸ ha))
  | retained => exact .inr (.inl (r.aliases_held ▸ ha))
  | released h => exact .inr (.inl ((fields_relieved h).2.1 ▸ ha))
  | named _ =>
    rcases (HandleSet.mem_insert r.aliases a _).1 ha with rfl | ha
    · exact .inr (.inr rfl)
    · exact .inr (.inl ha)

namespace Change

variable {g : Registry} {ch : Change} {a h : Handle}

/-- A handle goes on to lead to an exception that goes on to live, unless an exception is thrown
with that handle. -/
theorem resolve_on (hlead : g.resolve a = h) (hlive : g.contains h = true)
    (hlive' : (ch.on g).contains h = true)
    (hthrown : ∀ s, ch = .thrown s → s.handle ≠ h ∧ ¬ a ∈ s.aliases) :
    (ch.on g).resolve a = h := by
  by_cases hnull : a = Handle.null
  · rw [hnull, Registry.resolve_null, ← hlead, hnull, Registry.resolve_null]
  -- to give the name to another one is no change
  by_cases hother : ∃ k, k ≠ h ∧ ch = .named k a
  · obtain ⟨k, hk, rfl⟩ := hother
    rw [on, Registry.addAlias_of_resolve hnull hlive hlead hk]
    exact hlead
  rw [Registry.resolve_eq_iff hnull hlive']
  rcases (Registry.resolve_eq_iff hnull hlive).1 hlead with hself | ⟨hkey, ho⟩
  · exact .inl hself
  obtain ⟨r, hr, hmem, hleast⟩ := Registry.owner?_eq_some_iff.1 ho
  refine .inr ⟨?_, Registry.owner?_eq_some_iff.2 ?_⟩
  · refine Option.eq_none_iff_forall_ne_some.2 fun s hs => ?_
    have hnew := eq_thrown_of_find?_none hkey hs
    exact (hthrown s hnew).2 (Registry.handle_of_find? hs ▸ s.handle_mem)
  · obtain ⟨r', hr'⟩ := (Registry.contains_iff _ _).1 hlive'
    have hcont : r'.Continues r := by
      rcases continues_on hr' with hnew | ⟨s, hs, hcont⟩
      · exact absurd (Registry.handle_of_find? hr') (hthrown r' hnew).1
      · rw [hr] at hs
        cases hs
        exact hcont
    refine ⟨r', hr', hcont.aliases a hmem, fun k s hs ha => ?_⟩
    rcases becomes_of_find?_on hs with hnew | ⟨s₀, hs₀, hb⟩
    · exact absurd ha (hthrown s hnew).2
    · obtain rfl := Registry.handle_of_find? hs₀
      rcases hb.mem_aliases ha with hnew | hold | hnamed
      · exact absurd ha (hthrown s hnew).2
      · exact hleast s₀.handle s₀ hs₀ hold
      · have hk : s₀.handle = h := Decidable.byContradiction fun hk => hother ⟨_, hk, hnamed⟩
        exact Nat.le_of_eq (congrArg Handle.toNat hk.symm)

end Change

/-! ## Runs -/

namespace Context

variable {α : Type} [Allocator α] {c : Context α} {a h : Handle} {l : List Call}

/-- What is alive after calls that do not throw it was alive before. -/
theorem contains_of_contains_run (build : Build)
    (hl : ∀ k ∈ l, ∀ s, k.operation.thrown? = some s → s.handle ≠ h)
    (hlive : (c.run build l).registry.contains h = true) : c.registry.contains h = true := by
  induction l generalizing c with
  | nil => exact hlive
  | cons k l ih =>
    have hnext := ih (fun j hj => hl j (List.mem_cons_of_mem k hj)) hlive
    rw [registry_call] at hnext
    obtain ⟨r, hr⟩ := (Registry.contains_iff _ _).1 hnext
    rcases continues_registryAfter hr with hnew | ⟨r₀, hr₀, -⟩
    · exact absurd (Registry.handle_of_find? hr) (hl k List.mem_cons_self r hnew)
    · exact (Registry.contains_iff _ _).2 ⟨r₀, hr₀⟩

/-- A handle goes on to lead to an exception until that ends, or something is thrown with either
handle. -/
theorem resolve_run (build : Build) (hlead : c.registry.resolve a = h)
    (hl : ∀ k ∈ l, ∀ s, k.operation.thrown? = some s → s.handle ≠ h ∧ s.handle ≠ a)
    (hlive : (c.run build l).registry.contains h = true) :
    (c.run build l).registry.resolve a = h := by
  induction l generalizing c with
  | nil => exact hlead
  | cons k l ih =>
    have hl' := fun j hj => hl j (List.mem_cons_of_mem k hj)
    refine ih ?_ hl' hlive
    -- what is alive at the end has been alive all along, since nothing was thrown there
    have hafter : (c.call build k).state.registry.contains h = true :=
      contains_of_contains_run build (fun j hj s hs => (hl' j hj s hs).1) hlive
    have hbefore : c.registry.contains h = true :=
      contains_of_contains_run build (fun j hj s hs => (hl j hj s hs).1) hlive
    rw [registry_call] at hafter ⊢
    refine Change.resolve_on hlead hbefore hafter fun s hs => ?_
    have hthrown := change_eq_thrown_iff.1 hs
    obtain ⟨type, d, hfresh, -⟩ := Operation.thrown?_eq_some hthrown
    obtain ⟨hh, ha⟩ := hl k List.mem_cons_self s hthrown
    refine ⟨hh, fun hmem => ha ?_⟩
    rw [hfresh] at hmem
    exact ((HandleSet.mem_single a s.handle).1 hmem).symm

/-! ## What a clause receives -/

omit [Allocator α] in
/-- A choice of clauses comes to its end if its value is not refused, or that is not reported. -/
theorem returns_matchClause_iff (build : Build) (c : Context α) (clauses : List TypeTag)
    (m : MatchedClause) :
    (c.matchClause build clauses).outcome = .returned m ↔
      m = c.selection clauses ∧ (build = .checked → c.collision? clauses = none) := by
  rw [outcome_matchClause_eq]
  cases hcol : c.collision? clauses with
  | none => simp [eq_comm]
  | some v => cases build <;> simp [Step.panicking, Step.returning, eq_comm]

omit [Allocator α] in
/-- Unless it is null, or refused, what a landing pad receives leads to the exception in flight. -/
theorem resolve_selection {clauses : List TypeTag}
    (hnull : ∀ k b, c.choice? clauses = some (k, b) → b ≠ Handle.null)
    (hok : c.collision? clauses = none) :
    (c.matched clauses).resolve (c.selection clauses).exception
      = c.registry.resolve c.lastThrown := by
  rw [exception_selection, matched]
  rw [collision?] at hok
  cases hc : c.choice? clauses with
  | none => exact Registry.resolve_resolve _ _
  | some p =>
    obtain ⟨k, b⟩ := p
    obtain ⟨hk, hlive⟩ := choice?_eq_some hc
    rw [hc] at hok
    cases ha : c.registry.addAlias k b with
    | ok g => simpa [ha, ← hk] using Registry.resolve_of_addAlias (hnull k b hc) hlive ha
    | error v => simp [ha] at hok

omit [Allocator α] in
/-- To begin a scope is to catch the exception to which the value leads. -/
theorem find?_beginCatch {r : Record} (hlead : c.registry.resolve a = h)
    (hr : c.registry.find? h = some r) :
    (c.beginCatch a).state.registry.find? h = some r.nowCaught.held := by
  rw [state_beginCatch, hlead]
  simp only
  rw [Registry.find?_retain_eq, if_pos rfl,
    Registry.find?_modify (f := Record.nowCaught) fun _ => rfl, if_pos rfl, hr, Option.map_some,
    Option.map_some]

/-- The value that a chosen clause receives leads back to the exception in flight.

It does so unless it is null, or an unchecked build has passed over it being the name of another
exception; a checked build reports that and does not return. A handler that begins a scope with the
value gets the handle of the exception and has caught it. And whatever is called after the choice,
the value leads to the exception as long as that is alive, and until something is thrown with the
value or with the handle of the exception. -/
theorem matched_value_leads_back (build : Build) (c : Context α) (clauses : List TypeTag)
    (m : MatchedClause) (hm : (c.matchClause build clauses).outcome = .returned m)
    (hnull : ∀ k b, c.choice? clauses = some (k, b) → b ≠ Handle.null)
    (hok : build = .unchecked → c.collision? clauses = none) :
    let h := c.registry.resolve c.lastThrown
    let c' := (c.matchClause build clauses).state
    c'.registry.resolve m.exception = h ∧
      (c'.beginCatch m.exception).outcome = .returned h ∧
      (c'.beginCatch m.exception).state.scopes = h :: c.scopes ∧
      (∀ r, c.registry.find? h = some r →
        ∃ r', r'.Continues r ∧ c'.registry.find? h = some r' ∧
          (c'.beginCatch m.exception).state.registry.find? h = some r'.nowCaught.held) ∧
      (c.registry.contains h = true → ∀ l : List Call,
        (∀ k ∈ l, ∀ s, k.operation.thrown? = some s → s.handle ≠ h ∧ s.handle ≠ m.exception) →
        (c'.run build l).registry.contains h = true →
        (c'.run build l).registry.resolve m.exception = h) := by
  intro h c'
  obtain ⟨hsel, hchecked⟩ := (returns_matchClause_iff build c clauses m).1 hm
  -- in a checked build the return says that nothing was refused
  have hfree : c.collision? clauses = none := by
    cases build with
    | checked => exact hchecked rfl
    | unchecked => exact hok rfl
  have hstate : c' = { c with registry := c.matched clauses } := state_matchClause build c clauses
  have hlead : c'.registry.resolve m.exception = h := by
    rw [hstate, hsel]
    exact resolve_selection hnull hfree
  refine ⟨hlead, ?_, ?_, fun r hr => ?_, fun _ l hl hlive => resolve_run build hlead hl hlive⟩
  · rw [outcome_beginCatch, hlead]
  · rw [state_beginCatch, hlead, hstate]
  · -- a choice neither ends the exception nor puts another one in its place
    have hafter : c'.registry = c.registryAfter (.matchClause clauses) :=
      registry_perform build .quiet c (.matchClause clauses)
    cases hr' : c'.registry.find? h with
    | none =>
      rw [hafter, find?_registryAfter_eq_none_iff hr] at hr'
      cases hr'.1
    | some r' =>
      refine ⟨r', ?_, rfl, find?_beginCatch hlead hr'⟩
      rw [hafter] at hr'
      rcases continues_registryAfter hr' with hnew | ⟨r₀, hr₀, hcont⟩
      · cases hnew
      · obtain rfl := Option.some.inj (hr.symm.trans hr₀)
        exact hcont

/-- Two exceptions with a base each, at one address. The second one comes first among those alive,
and the name that is refused to it goes on to lead to the first. -/
theorem matched_value_leads_back_contested :
    let base : TypeTag := ⟨1, by decide⟩
    let near : TypeTag := ⟨2, by decide⟩
    let far : TypeTag := ⟨3, by decide⟩
    let types : Hierarchy :=
      ⟨#[⟨"Base", .classType []⟩, ⟨"Near", .classType [⟨base, 8⟩]⟩,
        ⟨"Far", .classType [⟨base, 16⟩]⟩], []⟩
    let c := ((fresh types (Bump.startingAt 4096)).throw ⟨16⟩ (some near) none).state
    let c' := (c.matchClause .unchecked [base]).state
    let l := [Operation.beginCatch ⟨24⟩, .throw ⟨8⟩ (some far) none, .matchClause [base],
      .beginCatch ⟨8⟩, .endCatch].map (Call.mk .quiet)
    (c.matchClause .unchecked [base]).outcome = .returned ⟨⟨24⟩, some base⟩ ∧
      (∀ k b, c.choice? [base] = some (k, b) → b ≠ Handle.null) ∧
      c.collision? [base] = none ∧ c.registry.contains ⟨16⟩ = true ∧
      (∀ k ∈ l, ∀ s, k.operation.thrown? = some s → s.handle ≠ ⟨16⟩ ∧ s.handle ≠ ⟨24⟩) ∧
      (c'.run .unchecked l).registry.contains ⟨16⟩ = true ∧
      (c'.run .unchecked l).registry.resolve ⟨24⟩ = ⟨16⟩ := by
  intro base near far types c c' l
  have hm : (c.matchClause .unchecked [base]).outcome = .returned ⟨⟨24⟩, some base⟩ := by
    decide +kernel
  have hchoice : c.choice? [base] = some (⟨16⟩, ⟨24⟩) := by decide +kernel
  have hnull : ∀ k b, c.choice? [base] = some (k, b) → b ≠ Handle.null := by
    intro k b hkb
    rw [hchoice] at hkb
    cases hkb
    decide
  have hok : c.collision? [base] = none := by decide +kernel
  have hlive : c.registry.contains ⟨16⟩ = true := by decide +kernel
  have hl : ∀ k ∈ l, ∀ s, k.operation.thrown? = some s → s.handle ≠ ⟨16⟩ ∧ s.handle ≠ ⟨24⟩ := by
    simp [l, Operation.thrown?, Record.fresh]
  have hlive' : (c'.run .unchecked l).registry.contains ⟨16⟩ = true := by decide +kernel
  have hlast : c.registry.resolve c.lastThrown = ⟨16⟩ := by decide +kernel
  obtain ⟨-, -, -, -, hstays⟩ :=
    matched_value_leads_back .unchecked c [base] ⟨⟨24⟩, some base⟩ hm hnull fun _ => hok
  rw [hlast] at hstays
  exact ⟨hm, hnull, hok, hlive, hl, hlive', hstays hlive l hl hlive'⟩

end Context

end ExceptionLifetime
