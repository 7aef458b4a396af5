/-
How the caller of a choice tells a match from the fallback.

If no clause accepts the exception in flight, the landing pad gets the exception back
with its own type for a selector. That type may stand among the clauses only if one of
them accepts, for a declared type accepts itself. So whether the selector is one of the
clauses says whether some clause was chosen, and it is the first that accepts.

What the chosen clause receives becomes a name of the exception, unless it is null or
leads to another one. Beyond this one name a choice leaves everything as it is. Where
the fallback comes back, nothing is left to be named: the exception goes by its own
handle anyhow.
-/
import ExceptionLifetime.Proofs.Matched
import ExceptionLifetime.Proofs.Subobject

set_option autoImplicit false

namespace ExceptionLifetime

/-! ## The first clause that accepts -/

namespace Hierarchy

variable {t : Hierarchy} {clauses : List TypeTag} {thrown : TypeTag} {h : Handle}

/-- A declared type accepts itself. -/
theorem accepts_self (hdecl : t.IsDeclared thrown) : t.Accepts thrown thrown :=
  ⟨hdecl, hdecl, .inl .refl⟩

theorem caughtAs?_eq_none_iff (ht : t.Acyclic) {clause : TypeTag} :
    t.caughtAs? clause thrown h = none ↔ ¬ t.Accepts clause thrown := by
  rw [← isSome_caughtAs?_iff ht (h := h), Bool.not_eq_true, Option.isSome_eq_false_iff,
    Option.isNone_iff_eq_none]

/-- The clause that is chosen is the first that accepts, with the handle displaced as it sees the
exception. -/
theorem firstClause?_eq_some_iff (ht : t.Acyclic) {a : Handle} {clause : TypeTag} :
    t.firstClause? clauses thrown h = some (a, clause) ↔
      ∃ before after, clauses = before ++ clause :: after ∧
        (∀ k ∈ before, ¬ t.Accepts k thrown) ∧
        t.Accepts clause thrown ∧ t.Receives clause thrown h a := by
  unfold firstClause?
  rw [List.findSome?_eq_some_iff]
  constructor
  · rintro ⟨before, k, after, hsplit, hk, hbefore⟩
    obtain ⟨b, hb, heq⟩ := Option.map_eq_some_iff.1 hk
    cases heq
    refine ⟨before, after, hsplit, fun k' hk' => ?_, (caughtAs?_eq_some_iff ht).1 hb⟩
    exact (caughtAs?_eq_none_iff ht).1 (Option.map_eq_none_iff.1 (hbefore k' hk'))
  · rintro ⟨before, after, hsplit, hbefore, hchosen⟩
    refine ⟨before, clause, after, hsplit, ?_, fun k' hk' => ?_⟩
    · rw [(caughtAs?_eq_some_iff ht).2 hchosen, Option.map_some]
    · rw [(caughtAs?_eq_none_iff ht).2 (hbefore k' hk'), Option.map_none]

theorem firstClause?_eq_none_iff (ht : t.Acyclic) :
    t.firstClause? clauses thrown h = none ↔ ∀ k ∈ clauses, ¬ t.Accepts k thrown := by
  unfold firstClause?
  rw [List.findSome?_eq_none_iff]
  exact forall₂_congr fun k _ => Option.map_eq_none_iff.trans (caughtAs?_eq_none_iff ht)

end Hierarchy

/-! ## The one name that is given -/

/-- A name that is there already changes nothing. -/
theorem Record.withAlias_of_mem {r : Record} {a : Handle} (ha : a ∈ r.aliases) :
    r.withAlias a = r := by
  have hsame : r.aliases.insert a = r.aliases := by
    refine Ascending.ext_mem fun b => (HandleSet.mem_insert r.aliases b a).trans ?_
    exact or_iff_right_of_imp fun heq => heq ▸ ha
  unfold withAlias
  congr

namespace Registry

variable {g : Registry} {a h : Handle}

/-- A name may be given to an exception: it is not null, and leads to no other one. -/
def Grants (g : Registry) (owner a : Handle) : Prop :=
  a ≠ Handle.null ∧ ∀ o, g.leadsTo? a = some o → o = owner

/-- A name is refused if it leads to another exception already. -/
theorem addAlias_eq_error_iff {v : Violation} :
    g.addAlias h a = .error v ↔
      a ≠ Handle.null ∧ ∃ o ≠ h, g.leadsTo? a = some o ∧ v = .aliasCollision a h o := by
  unfold addAlias
  by_cases hnull : a = Handle.null
  · simp [hnull]
  · rw [if_neg (by simpa using hnull)]
    cases hl : g.leadsTo? a with
    | none => simp
    | some o =>
      by_cases ho : o = h
      · simp [ho]
      · simp [ho, Ne.symm ho, hnull, eq_comm]

/-- A name that is free, or the exception's already, is entered. -/
theorem addAlias_of_grants (hgr : g.Grants h a) : g.addAlias h a = .ok (g.named h a) := by
  obtain ⟨hnull, hlead⟩ := hgr
  unfold addAlias
  rw [if_neg (by simpa using hnull)]
  cases hl : g.leadsTo? a with
  | none => rfl
  | some o => simp [hlead o hl]

/-- A live exception that is given a name gets it, and nobody else is touched, -/
theorem on_named_of_grants {r : Record} (hr : g.find? h = some r) (hgr : g.Grants h a) :
    (Change.named h a).on g = g.insert (r.withAlias a) := by
  simp only [Change.on, addAlias_of_grants hgr, named, hr]

/-- and a name that is null or leads elsewhere is not given. -/
theorem on_named_of_not_grants (hgr : ¬ g.Grants h a) : (Change.named h a).on g = g := by
  by_cases hnull : a = Handle.null
  · simp [Change.on, addAlias, hnull]
  · -- a name that may not be given leads to somebody, and not to this exception
    have hother : ∃ o ≠ h, g.leadsTo? a = some o := by
      by_contra hno
      refine hgr ⟨hnull, fun o ho => ?_⟩
      by_contra hne
      exact hno ⟨o, hne, ho⟩
    obtain ⟨o, hne, ho⟩ := hother
    rw [Change.on, addAlias_eq_error_iff.2 ⟨hnull, o, hne, ho, rfl⟩]

/-- The exception goes by its own handle without being given it. -/
theorem on_named_self {r : Record} (hr : g.find? h = some r) : (Change.named h h).on g = g := by
  by_cases hgr : g.Grants h h
  · obtain rfl := handle_of_find? hr
    rw [on_named_of_grants hr hgr, Record.withAlias_of_mem r.handle_mem, insert_of_find? hr]
  · exact on_named_of_not_grants hgr

end Registry

/-! ## What the landing pad gets -/

namespace Context

variable {α : Type} {c : Context α} {clauses : List TypeTag} {h : Handle} {r : Record}
  {type : TypeTag}

/-- What the landing pad gets of an exception that has a type. -/
theorem selection_of_flight (hnull : h ≠ Handle.null)
    (hlead : c.registry.resolve c.lastThrown = h) (hr : c.registry.find? h = some r)
    (htype : r.type = some type) (clauses : List TypeTag) :
    c.selection clauses =
      match c.types.firstClause? clauses type h with
      | some (a, clause) => ⟨a, some clause⟩
      | none => ⟨h, some type⟩ := by
  cases hf : c.types.firstClause? clauses type h <;>
    simp [selection, hlead, hnull, hr, htype, hf]

/-- If some clause accepts, the first one that does is selected, and what it receives comes back, -/
theorem selection_of_accepts (ht : c.types.Acyclic) (hnull : h ≠ Handle.null)
    (hlead : c.registry.resolve c.lastThrown = h) (hr : c.registry.find? h = some r)
    (htype : r.type = some type) (hacc : ∃ k ∈ clauses, c.types.Accepts k type) :
    ∃ before clause after, clauses = before ++ clause :: after ∧
      (∀ k ∈ before, ¬ c.types.Accepts k type) ∧ c.types.Accepts clause type ∧
      (c.selection clauses).selector = some clause ∧
      c.types.Receives clause type h (c.selection clauses).exception := by
  obtain ⟨k, hk, hk'⟩ := hacc
  rw [selection_of_flight hnull hlead hr htype]
  cases hf : c.types.firstClause? clauses type h with
  | none => exact absurd hk' ((Hierarchy.firstClause?_eq_none_iff ht).1 hf k hk)
  | some p =>
    obtain ⟨a, clause⟩ := p
    obtain ⟨before, after, hsplit, hbefore, hclause, hrec⟩ :=
      (Hierarchy.firstClause?_eq_some_iff ht).1 hf
    exact ⟨before, clause, after, hsplit, hbefore, hclause, rfl, hrec⟩

/-- and if none does, the exception itself with its own type. -/
theorem selection_of_not_accepts (ht : c.types.Acyclic) (hnull : h ≠ Handle.null)
    (hlead : c.registry.resolve c.lastThrown = h) (hr : c.registry.find? h = some r)
    (htype : r.type = some type) (hno : ∀ k ∈ clauses, ¬ c.types.Accepts k type) :
    c.selection clauses = ⟨h, some type⟩ := by
  rw [selection_of_flight hnull hlead hr htype, (Hierarchy.firstClause?_eq_none_iff ht).2 hno]

/-- What is received of the exception in flight is what it is given for a name. -/
theorem matched_of_flight (hlead : c.registry.resolve c.lastThrown = h)
    (hr : c.registry.find? h = some r) (clauses : List TypeTag) :
    c.matched clauses = (Change.named h (c.selection clauses).exception).on c.registry := by
  rw [exception_selection, matched]
  cases hc : c.choice? clauses with
  | none =>
    -- the exception itself comes back, and goes by its own handle already
    simp only [hlead]
    exact (Registry.on_named_self hr).symm
  | some p =>
    obtain ⟨k, a⟩ := p
    obtain ⟨rfl, -⟩ := choice?_eq_some hc
    simp only [hlead]
    rfl

/-- What a landing pad reports is a name that leads to another exception than the one in flight. -/
theorem collision?_eq_some {v : Violation} (h : c.collision? clauses = some v) :
    ∃ a o, o ≠ c.registry.resolve c.lastThrown ∧ c.registry.leadsTo? a = some o ∧
      v = .aliasCollision a (c.registry.resolve c.lastThrown) o := by
  unfold collision? at h
  split at h
  · cases h
  next k a hc =>
    obtain ⟨rfl, -⟩ := choice?_eq_some hc
    split at h
    · cases h
    next v' hv =>
      cases h
      obtain ⟨-, o, hne, ho, rfl⟩ := Registry.addAlias_eq_error_iff.1 hv
      exact ⟨a, o, hne, ho, rfl⟩

/-- Whether a clause was chosen can be told from what the landing pad gets.

The exception in flight is alive, and of a type that is declared in a hierarchy built by any
calls. If the choice does not return, then because a checked build reports that what the clause
receives leads to another exception. If it returns, the selector is one of the clauses exactly if
some clause accepts, and then it is the first one that does, and what is received is what this one
receives; otherwise the exception comes back with its own type. The exception goes by what is
received from then on, unless that is null or leads to another exception, and nothing else is
changed. -/
theorem selector_among_clauses_iff (build : Build) (c : Context α) (l : List Declaration)
    (clauses : List TypeTag) {h : Handle} {r : Record} {type : TypeTag}
    (hc : c.types = Hierarchy.empty.extended l) (hnull : h ≠ Handle.null)
    (hlead : c.registry.resolve c.lastThrown = h) (hr : c.registry.find? h = some r)
    (htype : r.type = some type) (hdecl : c.types.IsDeclared type) :
    let s := c.matchClause build clauses
    ((∃ m, s.outcome = .returned m) ∨
      build = .checked ∧ ∃ a o, o ≠ h ∧ c.registry.leadsTo? a = some o ∧
        s.outcome = .panicked (.violation (.aliasCollision a h o))) ∧
    ∀ m, s.outcome = .returned m →
      ((∃ k ∈ clauses, m.selector = some k) ↔ ∃ k ∈ clauses, c.types.Accepts k type) ∧
      ((∃ k ∈ clauses, c.types.Accepts k type) →
        ∃ before clause after, clauses = before ++ clause :: after ∧
          (∀ k ∈ before, ¬ c.types.Accepts k type) ∧ c.types.Accepts clause type ∧
          m.selector = some clause ∧ c.types.Receives clause type h m.exception) ∧
      ((∀ k ∈ clauses, ¬ c.types.Accepts k type) → m = ⟨h, some type⟩) ∧
      (c.registry.Grants h m.exception →
        s.state = { c with registry := c.registry.insert (r.withAlias m.exception) }) ∧
      (¬ c.registry.Grants h m.exception → s.state = c) := by
  intro s
  have ht : c.types.Acyclic := hc ▸ Hierarchy.acyclic_extended Hierarchy.acyclic_empty l
  refine ⟨?_, fun m hm => ?_⟩
  · rcases outcome_matchClause build c clauses with hreturns | ⟨v, hbuild, hcol, hout⟩
    · exact .inl hreturns
    · obtain ⟨a, o, hne, ho, rfl⟩ := collision?_eq_some hcol
      rw [hlead] at hne hout
      exact .inr ⟨hbuild, a, o, hne, ho, hout⟩
  -- both builds return the same, if they do
  obtain ⟨rfl, -⟩ := (returns_matchClause_iff build c clauses m).1 hm
  have hstate : s.state = { c with registry := c.matched clauses } :=
    state_matchClause build c clauses
  refine ⟨⟨?_, ?_⟩, selection_of_accepts ht hnull hlead hr htype,
    selection_of_not_accepts ht hnull hlead hr htype, fun hgr => ?_, fun hgr => ?_⟩
  · rintro ⟨k, hk, hsome⟩
    by_contra hno
    -- nobody accepts, so the selector is the type itself, which would accept
    have hno' : ∀ k ∈ clauses, ¬ c.types.Accepts k type := fun k hk hacc => hno ⟨k, hk, hacc⟩
    rw [selection_of_not_accepts ht hnull hlead hr htype hno'] at hsome
    cases hsome
    exact hno' type hk (Hierarchy.accepts_self hdecl)
  · intro hacc
    obtain ⟨before, clause, after, hsplit, -, -, hsome, -⟩ :=
      selection_of_accepts ht hnull hlead hr htype hacc
    exact ⟨clause, by simp [hsplit], hsome⟩
  · rw [hstate, matched_of_flight hlead hr, Registry.on_named_of_grants hr hgr]
  · rw [hstate, matched_of_flight hlead hr, Registry.on_named_of_not_grants hgr]

/-- The second of two clauses is for the base of what was thrown. It is the one that is selected,
and the address of the base becomes the one new name. -/
theorem selector_among_clauses_iff_base :
    let tag (n : Nat) : TypeTag := ⟨n + 1, Nat.succ_pos n⟩
    let l := [Declaration.declare "Other", .declare "Base", .declare "Derived",
      .addBase (tag 2) (tag 1) 8]
    let c := ((fresh (Hierarchy.empty.extended l) (Bump.startingAt 4096)).throw
      ⟨16⟩ (some (tag 2)) none).state
    let r := Record.fresh ⟨16⟩ (some (tag 2)) none
    let s := c.matchClause .checked [tag 0, tag 1]
    c.types = Hierarchy.empty.extended l ∧ c.registry.resolve c.lastThrown = ⟨16⟩ ∧
      c.registry.find? ⟨16⟩ = some r ∧ c.types.IsDeclared (tag 2) ∧
      s.outcome = .returned ⟨⟨24⟩, some (tag 1)⟩ ∧
      (∃ k ∈ [tag 0, tag 1], c.types.Accepts k (tag 2)) ∧
      s.state = { c with registry := c.registry.insert (r.withAlias ⟨24⟩) } := by
  intro tag l c r s
  have hlead : c.registry.resolve c.lastThrown = ⟨16⟩ := by decide +kernel
  have hr : c.registry.find? ⟨16⟩ = some r := by decide +kernel
  have hdecl : c.types.IsDeclared (tag 2) :=
    Option.isSome_iff_exists.1 (by decide +kernel)
  have hm : s.outcome = .returned ⟨⟨24⟩, some (tag 1)⟩ := by decide +kernel
  have hfree : c.registry.leadsTo? ⟨24⟩ = none := by decide +kernel
  obtain ⟨-, hreturned⟩ := selector_among_clauses_iff .checked c l [tag 0, tag 1] rfl
    (by decide : (⟨16⟩ : Handle) ≠ Handle.null) hlead hr rfl hdecl
  obtain ⟨haccepted, -, -, hnamed, -⟩ := hreturned ⟨⟨24⟩, some (tag 1)⟩ hm
  have hgrants : c.registry.Grants ⟨16⟩ ⟨24⟩ := ⟨by decide, by simp [hfree]⟩
  exact ⟨rfl, hlead, hr, hdecl, hm, haccepted.1 ⟨tag 1, by simp, rfl⟩, hnamed hgrants⟩

end Context

end ExceptionLifetime
