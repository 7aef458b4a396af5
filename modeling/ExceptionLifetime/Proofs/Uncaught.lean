/-
How many exceptions nobody has caught yet.

A context counts them as it goes. A throw adds one, and the first handler of an
exception takes one away. An exception that takes the place of another one that
nobody has caught takes over its share of the count.

But there is one more way for an exception to leave. Before any handler comes, a
client can take a reference to it and give it back. The exception ends, and nothing
is taken away for it, then or later. Such an exception is called forsaken here. The
count is that of the live exceptions that nobody has caught and of the forsaken ones
together, as long as a word has room for it.
-/
import ExceptionLifetime.Proofs.Run
import ExceptionLifetime.Storage.Bump

set_option autoImplicit false

namespace ExceptionLifetime

/-! ## Counting live exceptions -/

namespace Registry

/-- The exception `h` is alive, and no handler has caught it. -/
def awaits (g : Registry) (h : Handle) : Bool := (g.find? h).any (!·.caught)

/-- The number of live exceptions that no handler has caught. -/
def uncaughtSize (g : Registry) : Nat := g.toList.countP (!·.caught)

/-- The number of uncaught exceptions, with one of them looked at on its own. -/
theorem uncaughtSize_eq_erase_add (g : Registry) (h : Handle) :
    g.uncaughtSize = (g.erase h).uncaughtSize + if g.awaits h then 1 else 0 :=
  g.records.countP_eq_erase_add h.toNat (!·.caught)

theorem uncaughtSize_eq_zero {g : Registry} (hsize : g.size = 0) : g.uncaughtSize = 0 := by
  have hle : g.uncaughtSize ≤ g.size := List.countP_le_length
  omega

/-- A live exception is uncaught until its record is marked. -/
theorem awaits_of_find? {g : Registry} {h : Handle} {r : Record} (hr : g.find? h = some r) :
    g.awaits h = !r.caught := by
  rw [awaits, hr]
  rfl

theorem awaits_of_find?_none {g : Registry} {h : Handle} (hr : g.find? h = none) :
    g.awaits h = false := by
  rw [awaits, hr]
  rfl

end Registry

/-! ## Changes -/

namespace Change

variable {g : Registry} {ch : Change} {h : Handle}

/-- The count of uncaught exceptions after a change of the live exceptions `g`. -/
def recount (g : Registry) (n : Count) : Change → Count
  | .thrown r => (if g.awaits r.handle then n.down else n).up
  | .caught h => if g.awaits h then n.down else n
  | .nothing | .rethrown _ | .retained _ | .released _ | .named _ _ => n

/-- An exception ends that no handler has caught. -/
def forsakes (g : Registry) : Change → Bool
  | .released h => (g.dying? h).any (!·.caught)
  | .nothing | .thrown _ | .caught _ | .rethrown _ | .retained _ | .named _ _ => false

/-- What is forsaken was alive and uncaught. -/
theorem awaits_of_forsakes (hf : forsakes g (.released h) = true) : g.awaits h = true := by
  obtain ⟨r, hd, hr⟩ := (Option.any_eq_true _ _).1 hf
  rw [Registry.awaits_of_find? (Registry.dying?_eq_some_iff.1 hd).2.1]
  exact hr

/-- One operation raises the count by one at the most. -/
theorem toNat_recount_le (g : Registry) (n : Count) (ch : Change) :
    (ch.recount g n).toNat ≤ n.toNat + 1 := by
  cases ch with
  | thrown r =>
    rw [recount, Count.toNat_up]
    split
    · rw [Count.toNat_down]
      omega
    · omega
  | caught h =>
    rw [recount]
    split
    · rw [Count.toNat_down]
      omega
    · omega
  | _ => exact Nat.le_succ n.toNat

/-- But for the exception that a change concerns the count of live ones stays. -/
theorem uncaughtSize_on (hs : ch.subject? = some h) :
    (ch.on g).uncaughtSize + (if g.awaits h then 1 else 0) =
      g.uncaughtSize + if (ch.on g).awaits h then 1 else 0 := by
  rw [g.uncaughtSize_eq_erase_add h, (ch.on g).uncaughtSize_eq_erase_add h, erase_on hs]
  omega

/-- Whether the exception that a change concerns is alive and uncaught after it. -/
theorem awaits_on : ch.subject? = some h →
    (ch.on g).awaits h =
      match ch with
      | .thrown r => !r.caught
      | .caught _ => false
      | .released k => g.awaits h && !forsakes g (.released k)
      | .nothing | .rethrown _ | .retained _ | .named _ _ => g.awaits h := by
  intro hs
  cases hr : g.find? h with
  | none =>
    rw [Registry.awaits_of_find?_none hr]
    cases hr' : (ch.on g).find? h with
    | none =>
      rw [Registry.awaits_of_find?_none hr']
      cases ch with
      | thrown r =>
        rw [on, Registry.find?_insert, if_pos (Option.some.inj hs)] at hr'
        cases hr'
      | _ => rfl
    | some r' =>
      obtain rfl := eq_thrown_of_find?_none hr hr'
      exact Registry.awaits_of_find? hr'
  | some r =>
    rw [Registry.awaits_of_find? hr, Registry.awaits]
    have hb := becomes_on hr ch
    generalize (ch.on g).find? h = o at hb ⊢
    have hh := Registry.handle_of_find? hr
    cases hb with
    | apart hne => exact absurd (hh ▸ hs) hne
    | displaced _ | rethrown | named _ | refused => rfl
    | caught => simp [Record.nowCaught]
    | retained => simp
    | released hrel =>
      simp only [forsakes, hh]
      cases o with
      | none =>
        -- it ends, and that forsakes it if nobody has caught it
        obtain ⟨hnull, hlast⟩ := (Record.relieved_eq_none_iff r).1 hrel
        have hd := Registry.dying?_eq_some_iff.2 ⟨hh ▸ hnull, hr, hlast⟩
        simp [hd]
      | some r' =>
        have hd : g.dying? h = none := by
          refine Option.eq_none_iff_forall_ne_some.2 fun s hd => ?_
          obtain ⟨hnull, hs, hlast⟩ := Registry.dying?_eq_some_iff.1 hd
          obtain rfl := Option.some.inj (hr.symm.trans hs)
          rw [(Record.relieved_eq_none_iff r).2 ⟨hh.symm ▸ hnull, hlast⟩] at hrel
          cases hrel
        simp [hd, (Record.fields_relieved hrel).2.2.2.2.1]

/-- What the count of uncaught exceptions exceeds that of live ones by is what has ended
uncaught. -/
theorem toNat_recount {n : Count} {m : Nat} (hn : n.toNat = g.uncaughtSize + m)
    (hroom : n.toNat + 1 < UInt64.size) (hnew : ∀ r, ch = .thrown r → r.caught = false) :
    (ch.recount g n).toNat = (ch.on g).uncaughtSize + m + if ch.forsakes g then 1 else 0 := by
  cases hs : ch.subject? with
  | none =>
    cases ch with
    | nothing => simpa [recount, on, forsakes] using hn
    | _ => cases hs
  | some h =>
    have hsize := uncaughtSize_on (g := g) hs
    have hpos : g.awaits h = true → 0 < g.uncaughtSize := by
      intro haw
      rw [g.uncaughtSize_eq_erase_add h, if_pos haw]
      exact Nat.succ_pos _
    rw [awaits_on hs] at hsize
    -- what a change counts is whether the exception awaited a handler before it and after it
    cases ch with
    | nothing => cases hs
    | thrown r =>
      obtain rfl : r.handle = h := Option.some.inj hs
      have hroom' : n.down.toNat + 1 < UInt64.size := by
        rw [Count.toNat_down]
        omega
      rw [recount, forsakes]
      cases haw : g.awaits r.handle <;> simp [haw, hnew r rfl] at hsize hpos ⊢
      · rw [Count.toNat_up_of_lt hroom]
        omega
      · rw [Count.toNat_up_of_lt hroom', Count.toNat_down]
        omega
    | caught k =>
      obtain rfl : k = h := Option.some.inj hs
      rw [recount, forsakes]
      cases haw : g.awaits k <;> simp [haw] at hsize hpos ⊢ <;> omega
    | released k =>
      obtain rfl : k = h := Option.some.inj hs
      have hforsaken := awaits_of_forsakes (g := g) (h := k)
      rw [recount]
      cases haw : g.awaits k <;> cases hf : forsakes g (.released k) <;>
        simp [haw, hf] at hsize hpos hforsaken ⊢ <;> omega
    | rethrown _ | retained _ | named _ _ =>
      rw [recount, forsakes]
      simp at hsize ⊢
      omega

end Change

/-! ## Calls -/

namespace Context

variable {α : Type}

/-- A throw counts the new exception, and an uncaught one that it displaces counts no longer. -/
theorem uncaught_noteThrown (c : Context α) (r : Record) :
    (c.noteThrown r).uncaught = (Change.thrown r).recount c.registry c.uncaught := by
  rw [Change.recount]
  cases hr : c.registry.find? r.handle with
  | none => simp [noteThrown, hr, Registry.awaits]
  | some s => cases hs : s.caught <;> simp [noteThrown, hr, hs, Registry.awaits]

/-- To catch lowers the count if the exception was uncaught. -/
theorem uncaught_noteCaught (c : Context α) (h : Handle) :
    (c.noteCaught h).uncaught = (Change.caught h).recount c.registry c.uncaught := by
  rw [Change.recount]
  cases hr : c.registry.find? h with
  | none => simp [noteCaught, hr, Registry.awaits]
  | some s => cases hs : s.caught <;> simp [noteCaught, hr, hs, Registry.awaits]

variable [Allocator α]

theorem uncaught_allocate (c : Context α) (size : UInt64) :
    (c.allocate size).state.uncaught = c.uncaught := by
  cases ha : Allocator.allocate c.allocator size <;> simp [allocate, ha, Step.aborting]

/-- The end of an exception is not counted either: this is where the count may be left too high. -/
theorem uncaught_released (conduct : Conduct) (c : Context α) (h : Handle) :
    (c.released conduct h).uncaught = c.uncaught := by
  unfold released
  split <;> rfl

/-- The count of uncaught exceptions after a call follows what the call does to the live ones. -/
theorem uncaught_perform (build : Build) (conduct : Conduct) (c : Context α) (op : Operation) :
    (c.perform build conduct op).state.uncaught = (c.change op).recount c.registry c.uncaught := by
  -- one case for each call; most of them leave the count alone by definition
  cases op with
  | allocate size => exact uncaught_allocate c size
  | free h => simp [perform, Context.free, state_handBack, change, Change.recount]
  | throw h type d => exact uncaught_noteThrown c (.fresh h type d)
  | throwIndexed h type table i =>
    rw [perform, Step.state_map, state_throwIndexed, change]
    cases (Operation.throwIndexed h type table i).thrown? with
    | none => rfl
    | some r => exact uncaught_noteThrown c r
  | resume h => rfl
  | beginCatch h =>
    rw [perform, Step.state_map, state_beginCatch]
    exact uncaught_noteCaught c _
  | endCatch =>
    rw [perform, Step.state_map, change, Change.recount]
    by_cases hs : c.scopes = []
    · rw [state_endCatch_nil build conduct c hs]
    · obtain ⟨t, rest, hs⟩ := List.exists_cons_of_ne_nil hs
      rw [(endCatch_spec build conduct c hs).2.1]
      exact uncaught_released conduct _ _
  | exceptionPtr h => rfl
  | rethrow =>
    rw [perform, Step.state_map, change]
    by_cases hs : c.scopes = []
    · rw [state_rethrow_nil build c hs, hs]
      rfl
    · obtain ⟨t, rest, hs⟩ := List.exists_cons_of_ne_nil hs
      rw [state_rethrow build c hs, hs]
      rfl
  | capture => simp [perform, state_capture, change, Change.recount]
  | rethrowCaptured h =>
    rw [perform, Step.state_map, change]
    by_cases hn : h = Handle.null
    · rw [hn, state_rethrowCaptured_null, if_pos rfl]
      rfl
    · rw [state_rethrowCaptured build c hn, if_neg hn]
      rfl
  | unexpected h => rfl
  | retain h => simp [perform, state_retain, change, Change.recount]
  | release h => simp [perform, state_release, uncaught_released, change, Change.recount]
  | retainAny h => simp [perform, state_retainAny, change, Change.recount]
  | releaseAny h =>
    simp [perform, releaseAny, state_release, uncaught_released, change, Change.recount]
  | resolve h => rfl
  | record? h => rfl
  | matchClause clauses =>
    rw [perform, Step.state_map, state_matchClause, change]
    cases c.choice? clauses <;> rfl
  | setThrew b => rfl
  | setSink i => rfl

omit [Allocator α] in
/-- An operation forsakes no exception if what it ends has been caught. -/
theorem forsakes_eq_false_iff {c : Context α} {op : Operation} :
    (c.change op).forsakes c.registry = false ↔ ∀ r, c.ending? op = some r → r.caught = true := by
  constructor
  · intro hf r hr
    obtain ⟨h, hgives, hd⟩ := ending?_eq_some_iff.1 hr
    rw [change_eq_released_iff.2 hgives, Change.forsakes, hd] at hf
    simpa using hf
  · intro hcaught
    cases hch : c.change op with
    | released h =>
      rw [Change.forsakes, Option.any_eq_false]
      intro r hd
      have hr := ending?_eq_some_iff.2 ⟨h, change_eq_released_iff.1 hch, hd⟩
      simp [hcaught r hr]
    | _ => rfl

/-! ## Runs -/

/-- The number of calls in a run that end an exception that no handler has caught. -/
def forsaken (build : Build) (c : Context α) : List Call → Nat
  | [] => 0
  | k :: l =>
    (if (c.change k.operation).forsakes c.registry then 1 else 0) +
      (c.call build k).state.forsaken build l

/-- A run forsakes no exception if none of its calls does. -/
theorem forsaken_eq_zero_iff (build : Build) (c : Context α) (l : List Call) :
    c.forsaken build l = 0 ↔ ∀ before k rest, l = before ++ k :: rest →
      ∀ r, (c.run build before).ending? k.operation = some r → r.caught = true := by
  induction l generalizing c with
  | nil => simp [forsaken]
  | cons k l ih =>
    rw [forall_split_cons (P := fun before k =>
      ∀ r, (c.run build before).ending? k.operation = some r → r.caught = true), forsaken,
      Nat.add_eq_zero_iff, ih, run_nil, ← forsakes_eq_false_iff]
    -- the first call counts once or not at all
    refine and_congr ?_ Iff.rfl
    cases (c.change k.operation).forsakes c.registry <;> simp

/-- The count of uncaught exceptions is that of the live ones and of the forsaken ones, as long as
there is room for one more with each call. -/
theorem uncaught_run (build : Build) {c : Context α} {l : List Call} {m : Nat}
    (hn : c.uncaught.toNat = c.registry.uncaughtSize + m)
    (hroom : c.uncaught.toNat + l.length < UInt64.size) :
    (c.run build l).uncaught.toNat =
      (c.run build l).registry.uncaughtSize + (m + c.forsaken build l) := by
  induction l generalizing c m with
  | nil => exact hn
  | cons k l ih =>
    rw [List.length_cons] at hroom
    have hnew : ∀ r, c.change k.operation = .thrown r → r.caught = false := by
      intro r hr
      obtain ⟨type, d, hr⟩ := fresh_of_change hr
      rw [hr]
      rfl
    -- a throw of this call is not caught yet, so it counts on both sides
    have hstep := Change.toNat_recount hn (by omega) hnew
    have hle := Change.toNat_recount_le c.registry c.uncaught (c.change k.operation)
    rw [← uncaught_perform build k.conduct] at hstep hle
    rw [Nat.add_assoc] at hstep
    have hrest := ih (c := (c.call build k).state) (by rw [registry_call]; exact hstep)
      (Nat.lt_of_le_of_lt (Nat.add_le_add_right hle _) (by omega))
    rw [run_cons, hrest, forsaken, Nat.add_assoc]

/-- Uncaught exceptions are counted right. In a run that is shorter than the largest word the count
is that of the live exceptions that no handler has caught, and of those that ended without ever
being caught. So it is the number of the former if and only if no call has given back the last
reference to an exception that nobody had caught; and then it is zero if nothing is alive. -/
theorem uncaught_eq_size_iff (build : Build) (types : Hierarchy) (allocator : α) (l : List Call)
    (hroom : l.length < UInt64.size) :
    let c := fresh types allocator
    (c.run build l).uncaught.toNat =
        (c.run build l).registry.uncaughtSize + c.forsaken build l ∧
      ((c.run build l).uncaught.toNat = (c.run build l).registry.uncaughtSize ↔
        ∀ before k rest, l = before ++ k :: rest →
          ∀ r, (c.run build before).ending? k.operation = some r → r.caught = true) ∧
      ((∀ before k rest, l = before ++ k :: rest →
          ∀ r, (c.run build before).ending? k.operation = some r → r.caught = true) →
        (c.run build l).registry.size = 0 → (c.run build l).uncaught = Count.zero) := by
  intro c
  have hcount : (c.run build l).uncaught.toNat =
      (c.run build l).registry.uncaughtSize + c.forsaken build l := by
    have hrun := uncaught_run build (c := c) (l := l) (m := 0) rfl (by simpa [c, fresh] using hroom)
    rwa [Nat.zero_add] at hrun
  have hiff : (c.run build l).uncaught.toNat = (c.run build l).registry.uncaughtSize ↔
      ∀ before k rest, l = before ++ k :: rest →
        ∀ r, (c.run build before).ending? k.operation = some r → r.caught = true := by
    rw [hcount, Nat.add_eq_left, forsaken_eq_zero_iff]
  refine ⟨hcount, hiff, fun hcaught hsize => Count.ext_toNat ?_⟩
  rw [hiff.2 hcaught, Registry.uncaughtSize_eq_zero hsize]
  rfl

/-- An exception that is thrown twice before its handler comes, beside one that no handler
catches. -/
theorem uncaught_eq_size_thrown_again :
    let c := fresh Hierarchy.empty (Bump.startingAt 4096)
    let l := [Operation.throw ⟨16⟩ none none, .throw ⟨32⟩ none none, .throw ⟨16⟩ none none,
      .beginCatch ⟨16⟩, .rethrow, .beginCatch ⟨16⟩, .endCatch, .endCatch].map (Call.mk .quiet)
    l.length < UInt64.size ∧ c.forsaken .checked l = 0 ∧
      (c.run .checked l).uncaught.toNat = (c.run .checked l).registry.uncaughtSize ∧
      (c.run .checked l).registry.uncaughtSize = 1 := by
  intro c l
  have hroom : l.length < UInt64.size := by decide
  have hforsaken : c.forsaken .checked l = 0 := by decide +kernel
  have hcount := (uncaught_eq_size_iff .checked Hierarchy.empty (Bump.startingAt 4096) l hroom).1
  refine ⟨hroom, hforsaken, ?_, by decide +kernel⟩
  rw [hcount, hforsaken, Nat.add_zero]

/-- A client takes a reference to an exception that no handler has caught, and gives it back. Nothing
is alive, and one exception counts as uncaught. -/
theorem released_uncaught_still_counted :
    let c := fresh Hierarchy.empty (Bump.startingAt 4096)
    let l := [Operation.throw ⟨16⟩ none none, .retain ⟨16⟩, .release ⟨16⟩].map (Call.mk .quiet)
    l.length < UInt64.size ∧ (c.run .checked l).registry.size = 0 ∧
      (c.run .checked l).uncaught.toNat = 1 ∧
      (c.run .checked l).uncaught.toNat ≠ (c.run .checked l).registry.uncaughtSize := by
  decide +kernel

end Context

end ExceptionLifetime
