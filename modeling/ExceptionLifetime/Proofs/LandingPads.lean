/-
Landing pads inside landing pads.

The clauses of nested handlers are matched by one choice after the other, from the
inside out, or by one choice among all of them, and it makes no difference which. As
long as none of the inner clauses accepts, a choice leaves everything as it was; and
once one accepts, those further out are not looked at.

Behind this stands that choices do not get into each other's way. A choice gives the
exception in flight one more name at most, and it may have that name because the name
leads to nobody, or to the exception already. So the name leads to the exception from
then on, also where several exceptions go by it, and every other name leads where it
led. What was refused to the exception is refused still, and nothing else is; and the
exception in flight remains the same.
-/
import ExceptionLifetime.Proofs.Selection

set_option autoImplicit false

namespace ExceptionLifetime

/-! ## Where names lead once one is given -/

namespace Registry

variable {g g' : Registry} {a b h : Handle} {v : Violation}

/-- A name has the same owner where the same exceptions go by it. -/
theorem owner?_congr (hgoes : ∀ k, (∃ r, g'.find? k = some r ∧ a ∈ r.aliases) ↔
    ∃ r, g.find? k = some r ∧ a ∈ r.aliases) : g'.owner? a = g.owner? a := by
  -- the owner is the least of those that go by the name, so nothing but these counts
  have hfirst : ∀ (g : Registry) o, g.owner? a = some o ↔
      (∃ r, g.find? o = some r ∧ a ∈ r.aliases) ∧
        ∀ k, (∃ r, g.find? k = some r ∧ a ∈ r.aliases) → o.toNat ≤ k.toNat := by
    intro g o
    rw [owner?_eq_some_iff]
    constructor
    · rintro ⟨r, hr, ha, hleast⟩
      exact ⟨⟨r, hr, ha⟩, fun k ⟨s, hs, hmem⟩ => hleast k s hs hmem⟩
    · rintro ⟨⟨r, hr, ha⟩, hleast⟩
      exact ⟨r, hr, ha, fun k s hs hmem => hleast k ⟨s, hs, hmem⟩⟩
  ext o
  rw [hfirst, hfirst]
  simp only [hgoes]

/-- A name that a live exception is given leads to it, and every other name leads where it led. -/
theorem leadsTo?_named (hlive : g.contains h = true) (hgr : g.Grants h a) (b : Handle) :
    (g.named h a).leadsTo? b = if b = a then some h else g.leadsTo? b := by
  have hnamed := addAlias_of_grants hgr
  split
  next heq =>
    subst heq
    have hlive' : (g.named h b).contains h = true := by rw [contains_addAlias hnamed, hlive]
    exact leadsTo?_of_resolve hgr.1 hlive' (resolve_of_addAlias hgr.1 hlive hnamed)
  next hne =>
    -- a name more is no reason for another name to have another owner
    have howner : (g.named h a).owner? b = g.owner? b := by
      refine owner?_congr fun k => ?_
      rw [find?_named]
      split
      · cases g.find? k with
        | none => simp
        | some r => simp [Record.withAlias, HandleSet.mem_insert, hne]
      · rfl
    rw [leadsTo?, leadsTo?, contains_addAlias hnamed, howner]

/-- What an exception is refused does not depend on the names that it has been given. -/
theorem addAlias_on_named_eq_error_iff (hlive : g.contains h = true) :
    ((Change.named h a).on g).addAlias h b = .error v ↔ g.addAlias h b = .error v := by
  by_cases hgr : g.Grants h a
  · obtain ⟨r, hr⟩ := (contains_iff g h).1 hlive
    have hnamed : (Change.named h a).on g = g.named h a := by
      rw [on_named_of_grants hr hgr, named, hr]
    rw [hnamed, addAlias_eq_error_iff, addAlias_eq_error_iff, leadsTo?_named hlive hgr]
    by_cases heq : b = a
    · -- the name leads to the exception now, and did not lead to another one before
      subst heq
      rw [if_pos rfl]
      constructor
      · rintro ⟨-, o, hne, ho, -⟩
        exact absurd (Option.some.inj ho).symm hne
      · rintro ⟨-, o, hne, ho, -⟩
        exact absurd (hgr.2 o ho) hne
    · rw [if_neg heq]
  · rw [on_named_of_not_grants hgr]

/-- To be given a name again changes nothing. -/
theorem on_named_on_named (hlive : g.contains h = true) :
    (Change.named h a).on ((Change.named h a).on g) = (Change.named h a).on g := by
  by_cases hgr : g.Grants h a
  · obtain ⟨r, hr⟩ := (contains_iff g h).1 hlive
    obtain rfl := handle_of_find? hr
    rw [on_named_of_grants hr hgr]
    have hr' : (g.insert (r.withAlias a)).find? r.handle = some (r.withAlias a) := by
      rw [find?_insert]
      exact if_pos rfl
    have hmem : a ∈ (r.withAlias a).aliases := (HandleSet.mem_insert r.aliases a a).2 (.inl rfl)
    -- it is granted again, as it happens, but this is not needed
    by_cases hgr' : (g.insert (r.withAlias a)).Grants r.handle a
    · rw [on_named_of_grants hr' hgr', Record.withAlias_of_mem hmem]
      exact insert_of_find? hr'
    · exact on_named_of_not_grants hgr'
  · rw [on_named_of_not_grants hgr, on_named_of_not_grants hgr]

/-- A name changes the type of no exception. -/
theorem type_on_named (k : Handle) :
    (((Change.named h a).on g).find? k).bind Record.type = (g.find? k).bind Record.type := by
  rw [Change.on]
  split
  next g' hg' =>
    rcases addAlias_eq_ok hg' with rfl | ⟨-, -, rfl⟩
    · rfl
    · rw [find?_named]
      split
      · cases g.find? k <;> rfl
      · rfl
  · rfl

end Registry

/-! ## Contexts that choose alike -/

namespace Context

variable {α : Type} {c c' c'' : Context α} {clauses : List TypeTag}

/-- A choice comes out the same in `c'` as in `c`, whatever the clauses: the same exception is in
flight, of the same type, and is refused the same names. -/
structure ChoosesLike (c' c : Context α) : Prop where
  types : c'.types = c.types
  flight : c'.registry.resolve c'.lastThrown = c.registry.resolve c.lastThrown
  type : (c'.registry.find? (c.registry.resolve c.lastThrown)).bind Record.type =
    (c.registry.find? (c.registry.resolve c.lastThrown)).bind Record.type
  refused : ∀ a v, c'.registry.addAlias (c.registry.resolve c.lastThrown) a = .error v ↔
    c.registry.addAlias (c.registry.resolve c.lastThrown) a = .error v

namespace ChoosesLike

theorem refl (c : Context α) : c.ChoosesLike c := ⟨rfl, rfl, rfl, fun _ _ => .rfl⟩

theorem trans (h' : c''.ChoosesLike c') (h : c'.ChoosesLike c) : c''.ChoosesLike c where
  types := h'.types.trans h.types
  flight := h'.flight.trans h.flight
  type := by
    rw [← h.flight, h'.type, h.flight, h.type]
  refused a v := by
    rw [← h.flight, h'.refused, h.flight, h.refused]

/-- The first clause that accepts is the same, and so is what it makes of the exception. -/
theorem choice?_eq (h : c'.ChoosesLike c) (clauses : List TypeTag) :
    c'.choice? clauses = c.choice? clauses := by
  simp only [choice?, h.flight, h.type, h.types]

/-- What a landing pad would return is the same. -/
theorem selection_eq (h : c'.ChoosesLike c) (clauses : List TypeTag) :
    c'.selection clauses = c.selection clauses := by
  simp only [selection, h.flight, h.type, h.types]

/-- A name that one of them refuses the other refuses, and reports it in the same words. -/
theorem collision?_eq (h : c'.ChoosesLike c) (clauses : List TypeTag) :
    c'.collision? clauses = c.collision? clauses := by
  unfold collision?
  rw [h.choice?_eq]
  cases hc : c.choice? clauses with
  | none => rfl
  | some p =>
    obtain ⟨k, a⟩ := p
    obtain ⟨rfl, -⟩ := choice?_eq_some hc
    -- where one of them refuses the value, the other does, and with the same words
    have hrefused := h.refused a
    simp only
    cases ha : c.registry.addAlias (c.registry.resolve c.lastThrown) a with
    | error v => rw [(hrefused v).2 ha]
    | ok g =>
      cases ha' : c'.registry.addAlias (c.registry.resolve c.lastThrown) a with
      | error v =>
        rw [(hrefused v).1 ha'] at ha
        cases ha
      | ok g' => rfl

/-- Landing pads end alike in contexts that choose alike. -/
theorem outcome_eq (h : c'.ChoosesLike c) (build : Build) (clauses : List TypeTag) :
    (c'.matchClause build clauses).outcome = (c.matchClause build clauses).outcome := by
  rw [outcome_matchClause_eq, outcome_matchClause_eq, h.collision?_eq, h.selection_eq]
  cases c.collision? clauses with
  | none => rfl
  | some v => cases build <;> rfl

end ChoosesLike

/-- A choice that is made gives the exception in flight a name, and does nothing else. -/
theorem matched_of_choice? {k a : Handle} (hc : c.choice? clauses = some (k, a)) :
    c.matched clauses = (Change.named k a).on c.registry := by
  rw [matched, hc]
  rfl

theorem matched_of_choice?_none (hc : c.choice? clauses = none) :
    c.matched clauses = c.registry := by
  rw [matched, hc]

/-- After a choice, the next one comes out as if it had not been made. -/
theorem choosesLike_matchClause (build : Build) (c : Context α) (clauses : List TypeTag) :
    (c.matchClause build clauses).state.ChoosesLike c := by
  rw [state_matchClause]
  cases hc : c.choice? clauses with
  | none =>
    rw [matched_of_choice?_none hc]
    exact .refl c
  | some p =>
    obtain ⟨k, a⟩ := p
    obtain ⟨rfl, hlive⟩ := choice?_eq_some hc
    rw [matched_of_choice? hc]
    -- what leads to a live exception goes on to lead there, the last throw among it
    have hlive' : ((Change.named (c.registry.resolve c.lastThrown) a).on c.registry).contains
        (c.registry.resolve c.lastThrown) = true := by
      rw [Change.on]
      split
      next g' hg' => rw [Registry.contains_addAlias hg', hlive]
      · exact hlive
    refine ⟨rfl, Change.resolve_on rfl hlive hlive' fun s hs => ?_, Registry.type_on_named _,
      fun _ _ => Registry.addAlias_on_named_eq_error_iff hlive⟩
    cases hs

/-- The same choice made once more changes nothing. -/
theorem state_matchClause_again (build : Build) (c : Context α) (clauses : List TypeTag) :
    ((c.matchClause build clauses).state.matchClause build clauses).state =
      (c.matchClause build clauses).state := by
  have hlike := choosesLike_matchClause build c clauses
  rw [state_matchClause build c] at hlike ⊢
  rw [state_matchClause]
  have hchoice := hlike.choice?_eq clauses
  cases hc : c.choice? clauses with
  | none => rw [matched_of_choice?_none (hchoice.trans hc)]
  | some p =>
    obtain ⟨k, a⟩ := p
    rw [matched_of_choice? (hchoice.trans hc), matched_of_choice? hc,
      Registry.on_named_on_named (choice?_eq_some hc).2]

/-! ## Clauses one after the other -/

/-- Lists of clauses of which the same clause is chosen make for the same choice. -/
theorem matchClause_congr {l l' : List TypeTag}
    (hfirst : ∀ type,
      (c.registry.find? (c.registry.resolve c.lastThrown)).bind Record.type = some type →
      c.types.firstClause? l type (c.registry.resolve c.lastThrown) =
        c.types.firstClause? l' type (c.registry.resolve c.lastThrown)) (build : Build) :
    (c.matchClause build l).outcome = (c.matchClause build l').outcome ∧
      (c.matchClause build l).state = (c.matchClause build l').state := by
  -- clauses are looked at only to choose one, for what was thrown last
  obtain ⟨hchoice, hsel⟩ : c.choice? l = c.choice? l' ∧ c.selection l = c.selection l' := by
    cases ht : (c.registry.find? (c.registry.resolve c.lastThrown)).bind Record.type with
    | none => simp [choice?, selection, ht]
    | some type => simp [choice?, selection, ht, hfirst type ht]
  have hcol : c.collision? l = c.collision? l' := by rw [collision?, collision?, hchoice]
  have hmatched : c.matched l = c.matched l' := by rw [matched, matched, hchoice]
  refine ⟨?_, by rw [state_matchClause, state_matchClause, hmatched]⟩
  rw [outcome_matchClause_eq, outcome_matchClause_eq, hcol]
  cases c.collision? l' with
  | none => exact congrArg Outcome.returned hsel
  | some v => cases build <;> simp [Step.panicking, Step.returning, hsel]

variable [Allocator α]

/-- Choices in any number and of any clauses are without consequence for the next one. -/
theorem choosesLike_run (build : Build) (conduct : Conduct) (c : Context α)
    (pads : List (List TypeTag)) :
    (c.run build (pads.map fun p => ⟨conduct, .matchClause p⟩)).ChoosesLike c := by
  induction pads generalizing c with
  | nil => exact .refl c
  | cons p pads ih =>
    have hstep : (c.call build ⟨conduct, .matchClause p⟩).state = (c.matchClause build p).state :=
      Step.state_map _ _
    rw [List.map_cons, run_cons, hstep]
    exact (ih _).trans (choosesLike_matchClause build c p)

/-- Landing pads inside landing pads choose as one that has all their clauses.

In any context over a hierarchy that was built by any calls, let an exception be in flight that is
alive and has a type. If one of the inner clauses accepts it, those further out make no difference:
the choice ends in the same way, with a value or with a report, and leaves the same context. If none
does, the inner choice changes nothing, and the outer one made after it ends as the choice among all
the clauses does and leaves the same context. Beyond that, choices made before a choice, however
they end, are without consequence for how that one ends, and a choice that has returned returns the
same when it is made again, and changes nothing. -/
theorem nested_pads_choose_as_one (build : Build) (c : Context α) (l : List Declaration)
    (hc : c.types = Hierarchy.empty.extended l) :
    (∀ h r type, c.registry.resolve c.lastThrown = h → c.registry.find? h = some r →
      r.type = some type → ∀ inner outer,
      ((∃ k ∈ inner, c.types.Accepts k type) →
        (c.matchClause build (inner ++ outer)).outcome = (c.matchClause build inner).outcome ∧
        (c.matchClause build (inner ++ outer)).state = (c.matchClause build inner).state) ∧
      ((∀ k ∈ inner, ¬ c.types.Accepts k type) →
        let c' := (c.matchClause build inner).state
        c' = c ∧
        (c'.matchClause build outer).outcome = (c.matchClause build (inner ++ outer)).outcome ∧
        (c'.matchClause build outer).state = (c.matchClause build (inner ++ outer)).state)) ∧
    (∀ conduct (pads : List (List TypeTag)) clauses,
      ((c.run build (pads.map fun p => ⟨conduct, .matchClause p⟩)).matchClause build
        clauses).outcome = (c.matchClause build clauses).outcome) ∧
    ∀ clauses m, (c.matchClause build clauses).outcome = .returned m →
      let c' := (c.matchClause build clauses).state
      (c'.matchClause build clauses).outcome = .returned m ∧
        (c'.matchClause build clauses).state = c' := by
  have ht : c.types.Acyclic := hc ▸ Hierarchy.acyclic_extended Hierarchy.acyclic_empty l
  refine ⟨?_, fun conduct pads clauses => ?_, fun clauses m hm => ⟨?_, ?_⟩⟩
  · intro h r type hlead hr htype inner outer
    subst hlead
    have htype' : (c.registry.find? (c.registry.resolve c.lastThrown)).bind Record.type =
        some type := by
      rw [hr, Option.bind_some, htype]
    -- the outer clauses are looked at only if no inner one is chosen
    have happend : c.types.firstClause? (inner ++ outer) type (c.registry.resolve c.lastThrown) =
        (c.types.firstClause? inner type (c.registry.resolve c.lastThrown)).or
          (c.types.firstClause? outer type (c.registry.resolve c.lastThrown)) :=
      List.findSome?_append
    constructor
    · rintro ⟨k, hk, hacc⟩
      refine matchClause_congr (fun type' ht' => ?_) build
      obtain rfl := Option.some.inj (htype'.symm.trans ht')
      rw [happend]
      cases hf : c.types.firstClause? inner type (c.registry.resolve c.lastThrown) with
      | none => exact absurd hacc ((Hierarchy.firstClause?_eq_none_iff ht).1 hf k hk)
      | some p => rfl
    · intro hno c'
      have hnone := (Hierarchy.firstClause?_eq_none_iff (h := c.registry.resolve c.lastThrown)
        ht).2 hno
      have hsame : c' = c := by
        have hchoice : c.choice? inner = none := by simp [choice?, htype', hnone]
        have hstate : c' = { c with registry := c.matched inner } := state_matchClause build c inner
        rw [hstate, matched_of_choice?_none hchoice]
      refine ⟨hsame, ?_⟩
      rw [hsame]
      refine matchClause_congr (fun type' ht' => ?_) build
      obtain rfl := Option.some.inj (htype'.symm.trans ht')
      rw [happend, hnone, Option.none_or]
  · exact (choosesLike_run build conduct c pads).outcome_eq build clauses
  · rw [(choosesLike_matchClause build c clauses).outcome_eq, hm]
  · exact state_matchClause_again build c clauses

/-- The base of what is in flight is known as the base of another exception already. An inner clause
that does not accept makes no difference to the report of it. -/
theorem nested_pads_choose_as_one_contested :
    let tag (n : Nat) : TypeTag := ⟨n + 1, Nat.succ_pos n⟩
    let l := [Declaration.declare "Base", .declare "Near", .declare "Far",
      .addBase (tag 1) (tag 0) 8, .addBase (tag 2) (tag 0) 16]
    let c := (fresh (Hierarchy.empty.extended l) (Bump.startingAt 4096)).run .checked
      ([Operation.throw ⟨16⟩ (some (tag 1)) none, .matchClause [tag 0],
        .throw ⟨8⟩ (some (tag 2)) none].map (Call.mk .quiet))
    let inner := (c.matchClause .checked [tag 1]).state
    c.types = Hierarchy.empty.extended l ∧ c.registry.resolve c.lastThrown = ⟨8⟩ ∧
      c.registry.find? ⟨8⟩ = some (.fresh ⟨8⟩ (some (tag 2)) none) ∧
      (c.matchClause .checked [tag 1, tag 0]).outcome =
        .panicked (.violation (.aliasCollision ⟨24⟩ ⟨8⟩ ⟨16⟩)) ∧
      (inner.matchClause .checked [tag 0]).outcome =
        .panicked (.violation (.aliasCollision ⟨24⟩ ⟨8⟩ ⟨16⟩)) := by
  intro tag l c inner
  have hc : c.types = Hierarchy.empty.extended l := by decide +kernel
  have hlead : c.registry.resolve c.lastThrown = ⟨8⟩ := by decide +kernel
  have hr : c.registry.find? ⟨8⟩ = some (.fresh ⟨8⟩ (some (tag 2)) none) := by decide +kernel
  have hflat : (c.matchClause .checked [tag 1, tag 0]).outcome =
      .panicked (.violation (.aliasCollision ⟨24⟩ ⟨8⟩ ⟨16⟩)) := by decide +kernel
  have ht : c.types.Acyclic := hc ▸ Hierarchy.acyclic_extended Hierarchy.acyclic_empty l
  have hno : ∀ k ∈ [tag 1], ¬ c.types.Accepts k (tag 2) :=
    (Hierarchy.firstClause?_eq_none_iff (h := ⟨8⟩) ht).1 (by decide +kernel)
  obtain ⟨hnested, -, -⟩ := nested_pads_choose_as_one .checked c l hc
  obtain ⟨-, hrejected⟩ := hnested ⟨8⟩ _ (tag 2) hlead hr rfl [tag 1] [tag 0]
  obtain ⟨-, hsame, -⟩ := hrejected hno
  exact ⟨hc, hlead, hr, hflat, hsame.trans hflat⟩

end Context

end ExceptionLifetime
