/-
Destructions that are cut short.

A destructor that does not return keeps its exception from being destroyed to the end.
By then the exception is forgotten, and a handler that has ended its scope has closed
it. What is left undone is to hand back the storage and to say so, and for the handler
to forget what was thrown last.

To see that this is all, a call that ends an exception is written in one form for all
ways in which destructors may behave: something that does not depend on them comes
first, then the destruction, and then what the call does at last. The two runs part at
the end of the destructor, and nowhere else.

Since the exception is forgotten, it does not come back: as far as the rest of the run
is concerned it was never there. Its handle may come back, with another throw, and what
is done with the handle then is on account of that one.
-/
import ExceptionLifetime.Proofs.Lifetime

set_option autoImplicit false

namespace ExceptionLifetime

namespace Step

variable {σ β γ : Type}

theorem map_after (f : β → γ) (l : List Observation) (r : Step σ β) :
    (r.after l).map f = (r.map f).after l := rfl

/-- To return a value after a call is to map what the call returns. -/
theorem andThen_returning_eq_map (r : Step σ Unit) (b : β) :
    (r.andThen fun _ s => .returning s b) = r.map fun _ => b := by
  obtain ⟨o, s, t⟩ := r
  cases o <;> simp [andThen, returning, after, map, Outcome.map]

end Step

/-- A destructor that does not return leaves the destruction unfinished. -/
theorem Conduct.finishes_of_ne_returns {conduct : Conduct} {d : Destructor}
    (hun : conduct d ≠ .returns) : conduct.finishes (some d) = false := by
  cases hc : conduct d with
  | returns => exact absurd hc hun
  | panics message => simp [finishes, outcome, hc, Outcome.isReturned]
  | transfers other => simp [finishes, outcome, hc, Outcome.isReturned]

namespace Context

variable {α : Type} [Allocator α]

/-! ## What comes after the destructor -/

/-- What is left of a destruction when the destructor has returned. -/
def finishDestruction (c : Context α) (h : Handle) : Step (Context α) Unit :=
  (c.free h).andThen fun _ c =>
  ⟨.returned (), c, .logged (.freed h c.lastThrown c.depth) :: c.seen (.destroyed h)⟩

/-- When the destructor has returned, the storage is handed back and the destruction is reported.
This is what an unwinding destructor skips. -/
theorem finishDestruction_eq (c : Context α) (h : Handle) :
    c.finishDestruction h =
      ⟨.returned (), { c with allocator := discard c.allocator h },
        (c.free h).trace ++ .logged (.freed h c.lastThrown c.depth) :: c.seen (.destroyed h)⟩ := by
  have hout : (c.free h).outcome = .returned () := outcome_handBack .freeRefused c h
  have hstate : (c.free h).state = { c with allocator := discard c.allocator h } :=
    state_handBack .freeRefused c h
  rw [finishDestruction, Step.andThen, hout]
  simp only [hstate]
  rfl

/-- A destruction takes the record out first. So whatever the destructor does, the exception is not
alive any more. -/
theorem destroy_eq (conduct : Conduct) (c : Context α) (r : Record) :
    c.destroy conduct r =
      (({ c with registry := c.registry.erase r.handle } : Context α).destruct conduct r.handle
        r.destructor).andThen fun _ c => c.finishDestruction r.handle := rfl

/-- A destructor that returns is followed by the rest, -/
theorem destroy_of_returns {conduct : Conduct} {r : Record} {d : Destructor}
    (hd : r.destructor = some d) (hret : conduct d = .returns) (c : Context α) :
    c.destroy conduct r =
      (({ c with registry := c.registry.erase r.handle } : Context α).finishDestruction
        r.handle).after [.destroyed d.label r.handle] := by
  have hout : conduct.outcome (some d) = .returned () := by simp [Conduct.outcome, hret]
  rw [destroy_eq, hd, destruct_eq, hout]
  rfl

/-- and one that does not is not. -/
theorem destroy_of_ne_returns {conduct : Conduct} {r : Record} {d : Destructor}
    (hd : r.destructor = some d) (hun : conduct d ≠ .returns) (c : Context α) :
    c.destroy conduct r =
      ⟨conduct.outcome (some d), { c with registry := c.registry.erase r.handle },
        [.destroyed d.label r.handle]⟩ := by
  rw [destroy_eq, hd, destruct_eq]
  cases hc : conduct d with
  | returns => exact absurd hc hun
  | panics message => simp [Conduct.outcome, hc, Step.andThen]
  | transfers other => simp [Conduct.outcome, hc, Step.andThen]

/-! ## Calls that end an exception -/

/-- The context when a call comes to a destruction: a scope that it ends is closed already. -/
def atDestruction (c : Context α) (op : Operation) : Context α :=
  { c with
    scopes := if op = .endCatch then c.scopes.tail else c.scopes
    threw := if op = .endCatch then false else c.threw }

/-- The context after what a call does when the destruction is over. -/
def afterDestruction (c : Context α) (op : Operation) : Context α :=
  { c with lastThrown := if op = .endCatch then Handle.null else c.lastThrown }

/-- A call that gives back the last reference to `r`, and has let others see `t` before. The new
count is entered first, and forgotten with the exception. -/
def endingCall (conduct : Conduct) (c : Context α) (op : Operation) (r : Record)
    (t : List Observation) : Step (Context α) Reply :=
  ((({ c.atDestruction op with registry := c.registry.insert r.released } : Context α).destroy
    conduct r.released).andThen fun _ c => .returning (c.afterDestruction op) .nothing).after t

/-- The last reference given back ends in the destruction of the exception, after the same reports
whatever the destructor does. -/
theorem release_eq_destroy {h : Handle} {r : Record} (build : Build) {c : Context α}
    (hd : c.registry.dying? h = some r) :
    ∃ t, ∀ conduct, c.release build conduct h =
      (({ c with registry := c.registry.insert r.released } : Context α).destroy conduct
        r.released).after t := by
  obtain ⟨hnull, hr, hlast⟩ := Registry.dying?_eq_some_iff.1 hd
  rw [Record.isLast, Bool.and_eq_true, Bool.not_eq_true'] at hlast
  refine ⟨.logged (.released h r.released.refcount) ::
    c.seen (.released h r.released.refcount), fun conduct => ?_⟩
  simp only [release, Handle.isNull_iff, hnull, if_false, hr, hlast.1, hlast.2, if_true,
    Bool.false_eq_true]

/-- The three calls that can end an exception have one form when they do, and only the destruction
in it depends on how destructors behave. -/
theorem perform_of_ending? {op : Operation} {r : Record} (build : Build) {c : Context α}
    (hr : c.ending? op = some r) :
    ∃ t, ∀ conduct, c.perform build conduct op = endingCall conduct c op r t := by
  obtain ⟨h, hgives, hd⟩ := ending?_eq_some_iff.1 hr
  cases op with
  | release k =>
    cases hgives
    obtain ⟨t, ht⟩ := release_eq_destroy build hd
    refine ⟨t, fun conduct => ?_⟩
    rw [perform, ht]
    simp [endingCall, atDestruction, afterDestruction, Step.map_after,
      Step.andThen_returning_eq_map]
  | releaseAny k =>
    cases hgives
    obtain ⟨t, ht⟩ := release_eq_destroy build hd
    refine ⟨c.resolution k ++ t, fun conduct => ?_⟩
    rw [perform, releaseAny, resolve_andThen, ht, Step.after_after]
    simp [endingCall, atDestruction, afterDestruction, Step.map_after,
      Step.andThen_returning_eq_map]
  | endCatch =>
    cases hgives
    obtain ⟨hnull, -, -⟩ := Registry.dying?_eq_some_iff.1 hd
    -- a scope of the null handle holds no reference, so its end ends nothing
    have htop : c.top ≠ Handle.null := fun heq => hnull (heq ▸ c.registry.resolve_null)
    obtain ⟨k, rest, hs⟩ : ∃ k rest, c.scopes = k :: rest :=
      List.exists_cons_of_ne_nil fun hs => htop (top_of_scopes_nil hs)
    rw [top_of_scopes hs] at hd htop
    let inside : Context α := { c with threw := false, scopes := rest }
    obtain ⟨t, ht⟩ := release_eq_destroy (c := inside) build hd
    refine ⟨.logged (.catchEnded k inside.lastThrown inside.depth) ::
      inside.seen (.catchEnded k inside.depth) ++ (inside.resolution k ++ t), fun conduct => ?_⟩
    have hat : c.atDestruction .endCatch = inside := by simp [atDestruction, inside, hs]
    -- the scope ends as the release of its reference does, and forgets what was thrown last
    have hend : ∀ {s : Step (Context α) Unit},
        (s.andThen fun _ c => .returning { c with lastThrown := Handle.null } ()).map
            (fun _ => Reply.nothing) =
          s.andThen fun _ c => .returning (c.afterDestruction .endCatch) .nothing := by
      rintro ⟨o, s, t⟩
      cases o <;> rfl
    rw [endingCall, hat, ← Step.after_after, ← Step.after_after, ← Step.after_andThen,
      ← Step.after_andThen, ← ht, ← hend]
    simp [perform, endCatch, hs, htop, releaseAny, inside, Step.map_after]
  | _ => cases hgives

/-- A destructor that returns lets the call go on to its end. -/
theorem endingCall_of_returns {conduct : Conduct} {r : Record} {d : Destructor}
    (hd : r.destructor = some d) (hret : conduct d = .returns) (c : Context α) (op : Operation)
    (t : List Observation) :
    let left : Context α := { c.atDestruction op with registry := c.registry.erase r.handle }
    endingCall conduct c op r t =
      ⟨.returned .nothing,
        ({ left with allocator := discard c.allocator r.handle } : Context α).afterDestruction op,
        t ++ [.destroyed d.label r.handle] ++ (left.finishDestruction r.handle).trace⟩ := by
  intro left
  have herase : (c.registry.insert r.released).erase r.released.handle =
      c.registry.erase r.handle := Registry.erase_insert_eq rfl
  rw [endingCall, destroy_of_returns (r := r.released) hd hret, herase, finishDestruction_eq,
    finishDestruction_eq]
  simp [Step.after, Step.andThen, Step.returning, left, atDestruction, Record.released]

/-- A destructor that does not is the end of the call. -/
theorem endingCall_of_ne_returns {conduct : Conduct} {r : Record} {d : Destructor}
    (hd : r.destructor = some d) (hun : conduct d ≠ .returns) (c : Context α) (op : Operation)
    (t : List Observation) :
    endingCall conduct c op r t =
      ⟨(conduct.outcome (some d)).map fun _ => .nothing,
        { c.atDestruction op with registry := c.registry.erase r.handle },
        t ++ [.destroyed d.label r.handle]⟩ := by
  have herase : (c.registry.insert r.released).erase r.released.handle =
      c.registry.erase r.handle := Registry.erase_insert_eq rfl
  rw [endingCall, destroy_of_ne_returns (r := r.released) hd hun, herase]
  cases hc : conduct d with
  | returns => exact absurd hc hun
  | panics message =>
    simp [Conduct.outcome, hc, Step.andThen, Step.after, Outcome.map, Record.released]
  | transfers other =>
    simp [Conduct.outcome, hc, Step.andThen, Step.after, Outcome.map, Record.released]

end Context

/-! ## The rest of the run -/

/-- Whether the storage of an exception is handed back on account of what becomes of it. -/
def Fate.returnsStorage : Fate → Bool
  | .displaced => false
  | .destroyed finished => finished
  | .kept => true

@[simp] theorem Fate.returnsStorage_displaced : displaced.returnsStorage = false := rfl

@[simp] theorem Fate.returnsStorage_destroyed (finished : Bool) :
    (destroyed finished).returnsStorage = finished := rfl

@[simp] theorem Fate.returnsStorage_kept : kept.returnsStorage = true := rfl

namespace Context

variable {α : Type} [Allocator α] {c : Context α} {h : Handle} {l : List Call} {build : Build}

/-- Each life of a handle begins with a throw of the run. -/
theorem thrown?_of_mem_lives {life : Life} (hmem : life ∈ c.lives build h l) :
    ∃ k ∈ l, k.operation.thrown? = some life.record := by
  induction l generalizing c with
  | nil => cases hmem
  | cons k l ih =>
    -- a life begins with this call or with one that follows
    have hlater : life ∈ (c.call build k).state.lives build h l →
        ∃ k' ∈ k :: l, k'.operation.thrown? = some life.record := by
      intro hlife
      obtain ⟨k', hk', hthrown⟩ := ih hlife
      exact ⟨k', List.mem_cons_of_mem k hk', hthrown⟩
    rw [lives] at hmem
    cases ht : c.turn h k.operation with
    | thrown r =>
      simp only [ht] at hmem
      rcases List.mem_cons.1 hmem with rfl | hlife
      · exact ⟨k, List.mem_cons_self, (turn_eq_thrown_iff.1 ht).1⟩
      · exact hlater hlife
    | ended r => exact hlater (by simpa only [ht] using hmem)
    | stays => exact hlater (by simpa only [ht] using hmem)

/-- The end of a context calls no destructor. -/
theorem destructions_watched (build : Build) (c : Context α) (l : List Call) :
    destructions (c.watched build l) = destructions (c.observed build l) := by
  rw [watched, destructions_append, (trace_teardown _).1, List.append_nil]

/-- Destructors are called of exceptions that are alive, or thrown later, and of no others. -/
theorem exists_of_mem_destructions {p : Nat × Handle}
    (hp : p ∈ destructions (c.watched build l)) :
    ∃ r, p ∈ r.ended.calls ∧
      (c.registry.find? r.handle = some r ∨ ∃ k ∈ l, k.operation.thrown? = some r) := by
  rw [destructions_watched] at hp
  have hsame : p ∈ (destructions (c.observed build l)).filter (·.2 = p.2) :=
    List.mem_filter.2 ⟨hp, by simp⟩
  rw [destructions_observed] at hsame
  rcases List.mem_append.1 hsame with halive | hlater
  · obtain ⟨r, hr, hcall⟩ := List.mem_flatMap.1 halive
    have hfind : c.registry.find? p.2 = some r := Option.mem_toList.1 hr
    split at hcall
    · exact ⟨r, hcall, .inl (Registry.handle_of_find? hfind ▸ hfind)⟩
    · cases hcall
  · obtain ⟨life, hlife, hcall⟩ := List.mem_flatMap.1 hlater
    exact ⟨life.record, hcall, .inr (thrown?_of_mem_lives (List.mem_filter.1 hlife).1)⟩

/-- The destructor calls with a handle under which nothing is alive belong to later throws. -/
theorem destructions_watched_of_find?_none (hnone : c.registry.find? h = none) :
    (destructions (c.watched build l)).filter (·.2 = h) =
      ((c.lives build h l).filter (·.fate.isDestroyed)).flatMap (·.record.ended.calls) := by
  rw [destructions_watched, destructions_observed, hnone]
  rfl

/-- What is handed back of one handle up to the end of the context: what the client asks for, and
the storage of each exception there that is destroyed to the end or alive at last. -/
theorem count_handedBack_watched (build : Build) (c : Context α) (h : Handle) (l : List Call) :
    (handedBack (c.watched build l)).count h =
      l.countP (·.operation = .free h) + (c.lives build h l).countP (·.fate.returnsStorage) +
        if c.registry.contains h ∧ (c.fate build h l).returnsStorage then 1 else 0 := by
  rw [watched, handedBack_append, (trace_teardown _).2, List.count_append, Registry.count_handles]
  induction l generalizing c with
  | nil => by_cases hlive : c.registry.contains h = true <;>
      simp [observed, lives, fate, hlive]
  | cons k l ih =>
    have hrest := ih (c.call build k).state
    rw [registry_call] at hrest
    rw [observed, handedBack_append, List.count_append, count_handedBack_call, run_cons, fate,
      lives, List.countP_cons]
    cases ht : c.turn h k.operation with
    | thrown r =>
      -- what was alive is displaced and leaves nothing, and the new life is alive from now on
      have hafter : (c.registryAfter k.operation).contains h = true :=
        (Registry.contains_iff _ _).2 ⟨r, find?_of_turn_thrown ht⟩
      rw [hafter] at hrest
      cases hf : ((c.call build k).state.fate build h l).returnsStorage <;>
        simp [hf] at hrest ⊢ <;> omega
    | ended r =>
      obtain ⟨hbefore, hafter⟩ := find?_of_turn_ended ht
      rw [(Registry.contains_eq_false_iff _ _).2 hafter] at hrest
      rw [(Registry.contains_iff _ _).2 ⟨r, hbefore⟩]
      cases hfin : k.conduct.finishes r.destructor <;> simp at hrest ⊢ <;> omega
    | stays =>
      rw [contains_of_turn_stays ht] at hrest
      simp at hrest ⊢
      omega

/-- What a destructor that does not return keeps from happening, and nothing else.

A call ends the exception `h`. In the run of `s` the destructor returns, in that of `u` it does not,
and `u` ends as the destructor does. Either way the exception is forgotten, and a scope that the
call ends is closed. Beyond that `s` hands the storage back, says so in the log and to the sink, and
forgets what was thrown last if it ends a scope; there is no other difference.

However the run goes on after `u`, up to the end of the context, the exception is not destroyed
again: each destructor that is called is that of an exception that is alive after `u`, which `h` is
not, or that is thrown later, and those that are called with `h` are of later throws. The storage at
`h` is handed back as often as the client asks for it, and once for every later throw of `h` that is
destroyed to the end or alive when the context ends. -/
theorem destruction_cut_short (build : Build) (c : Context α) (op : Operation) {h : Handle}
    {r : Record} {d : Destructor} {returning unwinding : Conduct}
    (hr : c.registry.find? h = some r)
    (hgone : (c.perform build returning op).state.registry.find? h = none)
    (hd : r.destructor = some d) (hret : returning d = .returns) (hun : unwinding d ≠ .returns) :
    let s := c.perform build returning op
    let u := c.perform build unwinding op
    let left : Context α :=
      { c with
        registry := c.registry.erase h
        scopes := if op = .endCatch then c.scopes.tail else c.scopes
        threw := if op = .endCatch then false else c.threw }
    (s.outcome = .returned .nothing ∧
      (∀ message, unwinding d = .panics message → u.outcome = .panicked (.client message)) ∧
      (∀ other, unwinding d = .transfers other → u.outcome = .transferred other)) ∧
    (u.state = left ∧
      s.state =
        { left with
          allocator := discard c.allocator h
          lastThrown := if op = .endCatch then Handle.null else c.lastThrown }) ∧
    (∃ earlier, destructions earlier = [] ∧ handedBack earlier = [] ∧
      u.trace = earlier ++ [.destroyed d.label h] ∧
      s.trace = u.trace ++ ((left.free h).trace ++
        .logged (.freed h c.lastThrown left.depth) :: left.seen (.destroyed h))) ∧
    ∀ l : List Call,
      (∀ p ∈ destructions (u.state.watched build l), ∃ r' : Record, p ∈ r'.ended.calls ∧
        (u.state.registry.find? r'.handle = some r' ∨ ∃ k ∈ l, k.operation.thrown? = some r')) ∧
      (destructions (u.state.watched build l)).filter (·.2 = h) =
        ((u.state.lives build h l).filter (·.fate.isDestroyed)).flatMap (·.record.ended.calls) ∧
      (handedBack (u.state.watched build l)).count h =
        l.countP (·.operation = .free h) +
          (u.state.lives build h l).countP (·.fate.returnsStorage) := by
  intro s u left
  obtain rfl := Registry.handle_of_find? hr
  -- what is alive before the call and not after it has lost its last reference
  have hending : c.ending? op = some r := by
    rw [registry_perform] at hgone
    exact ending?_of_find?_none hr hgone
  -- the two runs have `t` in common and differ in the one destructor
  obtain ⟨t, ht⟩ := perform_of_ending? build hending
  have hu : u = ⟨(unwinding.outcome (some d)).map fun _ => .nothing, left,
      t ++ [.destroyed d.label r.handle]⟩ :=
    (ht unwinding).trans (endingCall_of_ne_returns hd hun c op t)
  have hs : s = ⟨.returned .nothing,
      ({ left with allocator := discard c.allocator r.handle } : Context α).afterDestruction op,
      t ++ [.destroyed d.label r.handle] ++ (left.finishDestruction r.handle).trace⟩ :=
    (ht returning).trans (endingCall_of_returns hd hret c op t)
  refine ⟨⟨congrArg Step.outcome hs, fun message hmessage => ?_, fun other hother => ?_⟩,
    ⟨congrArg Step.state hu, congrArg Step.state hs⟩, ⟨t, ?_, ?_, congrArg Step.trace hu, ?_⟩,
    fun l => ⟨fun p hp => exists_of_mem_destructions hp, ?_, ?_⟩⟩
  · simp [hu, Conduct.outcome, hmessage, Outcome.map]
  · simp [hu, Conduct.outcome, hother, Outcome.map]
  · -- the one destructor call is the last thing that is seen
    have hcalls := (trace_perform build unwinding c op).1
    change destructions u.trace = _ at hcalls
    simpa [hu, hending, hd, destructions] using hcalls
  · have hop : ∀ k, op ≠ .free k := by
      rintro k rfl
      cases hending
    have hback := (trace_perform build unwinding c op).2
    change handedBack u.trace = _ at hback
    rw [handsBack_of_ne_free hop] at hback
    simpa [hu, hending, hd, Conduct.finishes_of_ne_returns hun, handedBack] using hback
  · rw [hs, hu, finishDestruction_eq]
  · have hnone : u.state.registry.find? r.handle = none := by simp [hu, left, Registry.find?_erase]
    exact destructions_watched_of_find?_none hnone
  · have hnone : u.state.registry.contains r.handle = false := by
      simp [hu, left, Registry.contains, Registry.find?_erase]
    rw [count_handedBack_watched, hnone]
    simp

/-- A destructor panics when the scope of its handler ends. The storage is handed back after all
when the handle is thrown once more and alive to the end. -/
theorem destruction_cut_short_endCatch :
    let throws : Call := ⟨.quiet, .throw ⟨16⟩ none (some ⟨1⟩)⟩
    let c := (fresh Hierarchy.empty (Bump.startingAt 4096)).run .checked
      [throws, ⟨.quiet, .beginCatch ⟨16⟩⟩]
    let unwinding : Conduct := fun _ => .panics "thrown away"
    let r := (Record.fresh ⟨16⟩ none (some ⟨1⟩)).nowCaught.retained
    let s := c.perform .checked .quiet .endCatch
    let u := c.perform .checked unwinding .endCatch
    c.registry.find? ⟨16⟩ = some r ∧ s.state.registry.find? ⟨16⟩ = none ∧
      u.outcome = .panicked (.client "thrown away") ∧
      u.state = { c with registry := c.registry.erase ⟨16⟩, scopes := [], threw := false } ∧
      u.state.lastThrown = ⟨16⟩ ∧ s.state.lastThrown = Handle.null ∧
      (handedBack (u.state.watched .checked [throws])).count ⟨16⟩ = 1 := by
  intro throws c unwinding r s u
  have hr : c.registry.find? ⟨16⟩ = some r := by decide +kernel
  have hgone : s.state.registry.find? ⟨16⟩ = none := by decide +kernel
  have hun : unwinding ⟨1⟩ ≠ .returns := by simp [unwinding]
  obtain ⟨⟨-, hpanics, -⟩, ⟨hu, hs⟩, -, hrest⟩ :=
    destruction_cut_short .checked c .endCatch hr hgone rfl rfl hun
  obtain ⟨-, -, hback⟩ := hrest [throws]
  refine ⟨hr, hgone, hpanics _ rfl, hu, by rw [hu]; decide +kernel, by rw [hs]; rfl, ?_⟩
  rw [hback]
  decide +kernel

end Context

end ExceptionLifetime
