/-
How exceptions end.

An exception is kept alive by the references to it, and where there are none by
being on its way to a handler. It is on its way when it has been thrown, until the
first handler catches it, and then again when it has been rethrown, until the next
one does. The call that catches an exception takes a reference to it, so no call
leaves an exception with neither.

Only two things end an exception. One is a throw of the same handle, which puts
another exception in its place. The other is that its last reference is given back
while it is not marked as rethrown. Nothing but a handler takes the mark away, so
once an exception is rethrown it cannot end in this way before it is caught, however
many references to it are given back and scopes of it closed.

None of this asks for a client that keeps to the rules. It holds of every run, of
calls that report misuse and of calls that a destructor cuts short as well.
-/
import ExceptionLifetime.Proofs.Run
import ExceptionLifetime.Storage.Bump

set_option autoImplicit false

namespace ExceptionLifetime

/-! ## Records -/

namespace Record

/-- An exception that nobody refers to is on its way to a handler. To the exception with the null
handle nobody ever refers. -/
def Justified (r : Record) : Prop :=
  r.handle ≠ Handle.null → r.refcount.toNat = 0 → r.caught = false ∨ r.rethrown = true

/-- A new exception is without references because nobody has caught it. -/
theorem justified_fresh (h : Handle) (type : Option TypeTag) (d : Option Destructor) :
    (Record.fresh h type d).Justified :=
  fun _ _ => .inl rfl

/-- Who takes a reference leaves the exception with one. -/
theorem justified_held (r : Record) : r.held.Justified := by
  intro hnull hzero
  rw [handle_held] at hnull
  rw [held_of_ne_null hnull, retained, Count.toNat_up] at hzero
  have hsize : 1 < UInt64.size := by decide
  omega

/-- What is left when a reference is given back is what was there, or it is not dead. -/
theorem eq_or_not_isDead_of_relieved {r r' : Record} (h : r.relieved = some r') :
    r' = r ∨ r'.isDead = false := by
  unfold relieved afterRelease at h
  split at h
  · exact .inl (Option.some.inj h).symm
  split at h
  · exact .inl (Option.some.inj h).symm
  split at h
  · cases h
  next halive =>
    cases h
    exact .inr (Bool.eq_false_iff.2 halive)

/-- An exception that does not end with its last reference is on its way. -/
theorem justified_of_not_isDead {r : Record} (h : r.isDead = false) : r.Justified := by
  intro _ hzero
  rw [isDead, (isZero_refcount r).2 hzero] at h
  exact .inr (by simpa using h)

/-- Nothing that happens to an exception leaves it without a reason to be alive. -/
theorem Becomes.justified {r r' : Record} {ch : Change} (hr : r.Justified)
    (hb : r.Becomes ch (some r')) (hold : ch ≠ .thrown r') : r'.Justified := by
  cases hb with
  | apart _ | refused | named _ => exact hr
  | displaced _ => exact absurd rfl hold
  | caught | retained => exact justified_held _
  | rethrown => exact fun _ _ => .inr rfl
  | released h =>
    rcases eq_or_not_isDead_of_relieved h with rfl | halive
    · exact hr
    · exact justified_of_not_isDead halive

end Record

/-! ## Changes -/

namespace Change

variable {g : Registry} {ch : Change} {h : Handle} {r r' : Record}

/-- Whether a handler has caught the exception `h` since it was thrown. The truth value `b` tells
it for the time before the change. -/
def handled (h : Handle) (b : Bool) : Change → Bool
  | .thrown r => if r.handle = h then false else b
  | .caught k => if k = h then true else b
  | .nothing | .rethrown _ | .retained _ | .released _ | .named _ _ => b

theorem handled_of_ne (hne : ch.subject? ≠ some h) (b : Bool) : ch.handled h b = b := by
  cases ch with
  | thrown r => exact if_neg fun heq => hne (congrArg some heq)
  | caught k => exact if_neg fun heq => hne (congrArg some heq)
  | _ => rfl

/-- A record tells whether a handler has caught its exception. -/
theorem caught_on {b : Bool} (hg : ∀ r, g.find? h = some r → r.caught = b)
    (hnew : ∀ s, ch = .thrown s → s.caught = false) (hr' : (ch.on g).find? h = some r') :
    r'.caught = ch.handled h b := by
  rcases becomes_of_find?_on hr' with rfl | ⟨r, hr, hb⟩
  · rw [handled, if_pos (Registry.handle_of_find? hr'), hnew r' rfl]
  · have hb' := hg r hr
    obtain rfl := Registry.handle_of_find? hr
    cases hb with
    | apart hne => rw [handled_of_ne hne, hb']
    | displaced hs => rw [handled, if_pos hs, hnew r' rfl]
    | caught => rw [handled, if_pos rfl, Record.caught_held, Record.nowCaught]
    | rethrown | named _ | refused => exact hb'
    | retained => rw [Record.caught_held, hb', handled]
    | released hrel => rw [(Record.fields_relieved hrel).2.2.2.2.1, hb', handled]

/-- A rethrown exception stays what it is until it is caught or another one is thrown in its
place. -/
theorem find?_on_of_rethrown (hr : g.find? h = some r) (hmark : r.rethrown = true)
    (hcaught : ch ≠ .caught h) (hthrown : ∀ s, ch = .thrown s → s.handle ≠ h) :
    ∃ r', (ch.on g).find? h = some r' ∧ r'.Continues r ∧ r'.rethrown = true := by
  have hb := becomes_on hr ch
  obtain rfl := Registry.handle_of_find? hr
  generalize ho : (ch.on g).find? r.handle = o at hb ⊢
  -- what is left is a marked record, in all cases but the two that are ruled out
  have hleft : ∃ r', o = some r' ∧ r'.rethrown = true := by
    cases hb with
    | apart _ | refused => exact ⟨r, rfl, hmark⟩
    | @displaced s hs => exact absurd hs (hthrown s rfl)
    | caught => exact absurd rfl hcaught
    | rethrown => exact ⟨r.nowRethrown, rfl, rfl⟩
    | retained => exact ⟨r.held, rfl, r.rethrown_held.trans hmark⟩
    | released hrel =>
      cases o with
      | none =>
        obtain ⟨-, hlast⟩ := (Record.relieved_eq_none_iff r).1 hrel
        rw [((Record.isLast_iff r).1 hlast).2] at hmark
        cases hmark
      | some r' => exact ⟨r', rfl, (Record.fields_relieved hrel).2.2.2.2.2.trans hmark⟩
    | @named a _ => exact ⟨r.withAlias a, rfl, hmark⟩
  obtain ⟨r', rfl, hmark'⟩ := hleft
  have hcont := (continues_of_becomes hb).resolve_left fun hnew =>
    hthrown r' hnew (Registry.handle_of_find? ho)
  exact ⟨r', rfl, hcont, hmark'⟩

end Change

/-! ## Calls -/

namespace Context

variable {α : Type} {c : Context α} {op : Operation} {h : Handle} {r : Record}

/-- What is thrown takes the place of an exception with the same handle. -/
theorem find?_registryAfter_of_thrown? (ht : op.thrown? = some r) :
    (c.registryAfter op).find? r.handle = some r := by
  rw [registryAfter_of_thrown? ht, Registry.find?_insert, if_pos rfl]

/-- Neither catches the exception `h` nor throws another one in its place. -/
def Spares (c : Context α) (h : Handle) (op : Operation) : Prop :=
  c.catches? op ≠ some h ∧ ∀ s, op.thrown? = some s → s.handle ≠ h

/-- A call that rethrows an exception leaves it marked. -/
theorem find?_registryAfter_of_rethrows? (hr : c.registry.find? h = some r)
    (hop : c.rethrows? op = some h) : (c.registryAfter op).find? h = some r.nowRethrown := by
  rw [registryAfter, change_eq_rethrown_iff.2 hop, Change.on,
    Registry.find?_modify (f := Record.nowRethrown) fun _ => rfl, if_pos rfl, hr, Option.map_some]

/-! ## Runs -/

variable [Allocator α]

/-- Whether a handler has caught the exception `h` since it was thrown. The truth value tells it
for the time before the run. -/
def handled (build : Build) (c : Context α) (h : Handle) : Bool → List Call → Bool
  | b, [] => b
  | b, k :: l => (c.call build k).state.handled build h ((c.change k.operation).handled h b) l

/-- A live exception is caught if a handler has caught it since it was thrown. -/
theorem caught_run (build : Build) {b : Bool} (hc : ∀ r, c.registry.find? h = some r → r.caught = b)
    (l : List Call) (hr : (c.run build l).registry.find? h = some r) :
    r.caught = c.handled build h b l := by
  induction l generalizing c b with
  | nil => exact hc r hr
  | cons k l ih =>
    refine ih (fun r' hr' => ?_) hr
    rw [registry_call] at hr'
    refine Change.caught_on hc (fun s hs => ?_) hr'
    obtain ⟨type, d, hfresh⟩ := fresh_of_change hs
    rw [hfresh]
    rfl

/-- A rethrown exception outlives all calls that spare it. -/
theorem rethrown_run (build : Build) (hr : c.registry.find? h = some r) (hmark : r.rethrown = true)
    {l : List Call}
    (hspare : ∀ before k rest, l = before ++ k :: rest → (c.run build before).Spares h k.operation) :
    ∃ r', (c.run build l).registry.find? h = some r' ∧ r'.Continues r ∧ r'.rethrown = true := by
  induction l generalizing c r with
  | nil => exact ⟨r, hr, .refl r, hmark⟩
  | cons k l ih =>
    rw [forall_split_cons (P := fun before k => (c.run build before).Spares h k.operation)] at hspare
    obtain ⟨⟨hcaught, hthrown⟩, hrest⟩ := hspare
    obtain ⟨r₁, hr₁, hcont₁, hmark₁⟩ := Change.find?_on_of_rethrown hr hmark
      (fun hch => hcaught (change_eq_caught_iff.1 hch))
      fun s hs => hthrown s (change_eq_thrown_iff.1 hs)
    have hcall : (c.call build k).state.registry.find? h = some r₁ := by
      rw [registry_call]
      exact hr₁
    obtain ⟨r', hr', hcont, hmark'⟩ := ih hcall hmark₁ hrest
    exact ⟨r', hr', hcont.trans hcont₁, hmark'⟩

/-- How exceptions live and end, whatever is called.

In all states of a run, an exception with a handle other than null that nobody refers to has not
been caught since it was thrown, or is marked as rethrown. A call ends an exception if and only if
it gives back its last reference while it is not so marked; if the call throws an exception with
the same handle, that one takes its place; and with other calls it goes on. An exception that
a call rethrows outlives any calls that follow, as long as no handler catches it and nothing is
thrown with its handle. -/
theorem ends_by_last_reference_or_throw (build : Build) (types : Hierarchy) (allocator : α)
    (l : List Call) :
    let c := (fresh types allocator).run build l
    (∀ h r, c.registry.find? h = some r →
      r.caught = (fresh types allocator).handled build h false l ∧
        (h ≠ Handle.null → r.refcount.toNat = 0 →
          (fresh types allocator).handled build h false l = false ∨ r.rethrown = true)) ∧
    (∀ conduct op h r, c.registry.find? h = some r →
      let g := (c.perform build conduct op).state.registry
      (g.find? h = none ↔ c.givesBack? op = some h ∧ h ≠ Handle.null ∧ r.refcount.toNat = 1 ∧
          r.rethrown = false) ∧
        (∀ s, op.thrown? = some s → s.handle = h → g.find? h = some s) ∧
        ∀ r', g.find? h = some r' → op.thrown? = some r' ∨ r'.Continues r) ∧
    ∀ k m h r, c.registry.find? h = some r → c.rethrows? k.operation = some h →
      (∀ before j rest, m = before ++ j :: rest →
        (c.run build (k :: before)).Spares h j.operation) →
      ∃ r', (c.run build (k :: m)).registry.find? h = some r' ∧ r'.Continues r ∧
        r'.rethrown = true := by
  intro c
  refine ⟨fun h r hr => ?_, fun conduct op h r hr => ?_, fun k m h r hr hop hspare => ?_⟩
  · have hcaught := caught_run build (b := false) (fun r hr => by cases hr) l hr
    have hjust : r.Justified := all_run Record.justified_fresh
      (fun _ _ _ hr => Record.Becomes.justified hr) build (fun k r hr => by cases hr) l h r hr
    refine ⟨hcaught, fun hnull hzero => ?_⟩
    rw [← hcaught]
    exact hjust (by rwa [Registry.handle_of_find? hr]) hzero
  · intro g
    have hg : g = c.registryAfter op := registry_perform build conduct c op
    rw [hg]
    refine ⟨find?_registryAfter_eq_none_iff hr, fun s hs hh => ?_, fun r' hr' => ?_⟩
    · rw [← hh]
      exact find?_registryAfter_of_thrown? hs
    · refine (continues_registryAfter hr').imp id fun ⟨r₀, hr₀, hcont⟩ => ?_
      rw [hr] at hr₀
      cases hr₀
      exact hcont
  · -- the rethrow itself sets the mark, and the rest of the run does not clear it
    have hr₁ : (c.call build k).state.registry.find? h = some r.nowRethrown := by
      rw [registry_call]
      exact find?_registryAfter_of_rethrows? hr hop
    obtain ⟨r', hr', hcont, hmark⟩ := rethrown_run build hr₁ rfl hspare
    exact ⟨r', hr', hcont.trans ⟨rfl, rfl, rfl, fun _ ha => ha⟩, hmark⟩

/-- Nobody refers to a rethrown exception any more, and one reference too many is given back. -/
example :
    let l := [Operation.throw ⟨16⟩ none none, .beginCatch ⟨16⟩, .rethrow, .endCatch,
      .release ⟨16⟩].map (Call.mk .quiet)
    let g := ((fresh Hierarchy.empty (Bump.startingAt 4096)).run .unchecked l).registry
    g.contains ⟨16⟩ = true ∧ g.refs ⟨16⟩ = 0 := by
  decide +kernel

end Context

end ExceptionLifetime
