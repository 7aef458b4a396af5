/-
What can be told from events.

A sink sees an event whenever something happens to an exception. Whoever writes the
events down knows the live exceptions, with their types, their references and their
marks, the number of open scopes and of uncaught exceptions, and whether an exception
reached a boundary that forbids it. Nothing has to be asked of the context for that: what
is written down is what the context holds, whatever is called, whether or not it is
reported as a misuse, and however destructors end.

Each call is followed part by part. Some parts change what can be told and show an event
for it, and some do neither. A call is followed if its parts are, so no order of events has
to be written down for any call.
-/
import ExceptionLifetime.Proofs.Uncaught

set_option autoImplicit false

namespace ExceptionLifetime

/-! ## What is written down -/

/-- What can be told of a live exception. -/
structure Sighting where
  handle : Handle
  type : Option TypeTag
  refcount : Count
  caught : Bool
  rethrown : Bool
  deriving DecidableEq

/-- The exceptions that can be told to be alive, by handle. -/
abbrev Sightings := Ascending Sighting (fun s => s.handle.toNat)

namespace Sightings

/-- What is told of the exception with this very handle. -/
def find? (a : Sightings) (h : Handle) : Option Sighting := Ascending.find? a h.toNat

/-- Changes what is told of one exception, if anything is. -/
def modify (a : Sightings) (h : Handle) (f : Sighting → Sighting) : Sightings :=
  match find? a h with
  | some s => Ascending.insert a (f s)
  | none => a

/-- Whether the exception is told to be alive and uncaught. -/
def awaits (a : Sightings) (h : Handle) : Bool := (find? a h).any (!·.caught)

end Sightings

/-- What is known to one who has seen nothing but events. -/
structure Chronicle where
  alive : Sightings
  depth : Nat
  uncaught : Nat
  aborted : Bool
  deriving DecidableEq

namespace Chronicle

/-- What is known before the first event. -/
def blank : Chronicle := ⟨Ascending.empty, 0, 0, false⟩

/-- What is known after one more event. An exception is gone when its last reference is, so
that its destruction, which may be cut short, tells nothing. -/
def tell (n : Chronicle) : Event → Chronicle
  | .thrown h type =>
    { n with
      alive := n.alive.insert ⟨h, type, Count.zero, false, false⟩
      uncaught := (if n.alive.awaits h then n.uncaught - 1 else n.uncaught) + 1 }
  | .catchBegun h depth =>
    { n with
      alive := n.alive.modify h fun s => { s with caught := true, rethrown := false }
      depth
      uncaught := if n.alive.awaits h then n.uncaught - 1 else n.uncaught }
  | .catchEnded _ depth => { n with depth }
  | .rethrown h depth =>
    { n with alive := n.alive.modify h fun s => { s with rethrown := true }, depth }
  | .retained h refcount =>
    { n with alive := n.alive.modify h fun s => { s with refcount } }
  | .released h refcount =>
    if refcount.isZero && (n.alive.find? h).any (!·.rethrown) then
      { n with alive := n.alive.erase h.toNat }
    else { n with alive := n.alive.modify h fun s => { s with refcount } }
  | .unexpected _ => { n with aborted := true }
  | .resumed _ | .matched .. | .destroyed _ => n

/-- What is known after these events, the first one first. -/
def replay (l : List Event) : Chronicle := l.foldl tell blank

end Chronicle

/-- The events that the sink of that number saw. -/
def eventsOf (sink : Nat) (t : List Observation) : List Event :=
  t.filterMap fun
    | .seen i e => if i = sink then some e else none
    | _ => none

@[simp] theorem eventsOf_nil (i : Nat) : eventsOf i [] = [] := rfl

@[simp] theorem eventsOf_append (i : Nat) (s t : List Observation) :
    eventsOf i (s ++ t) = eventsOf i s ++ eventsOf i t := List.filterMap_append

@[simp] theorem eventsOf_logged (i : Nat) (e : LogEntry) (t : List Observation) :
    eventsOf i (.logged e :: t) = eventsOf i t := rfl

/-! ## What there is to tell -/

/-- What there is to tell of a record. -/
def Record.sighting (r : Record) : Sighting :=
  ⟨r.handle, r.type, r.refcount, r.caught, r.rethrown⟩

namespace Registry

/-- What there is to tell of the live exceptions. -/
def sightings (g : Registry) : Sightings where
  toList := g.toList.map Record.sighting
  ascending := List.pairwise_map.2 g.records.ascending

/-- What is told of an exception is what there is to tell of it. -/
theorem find?_sightings_records (g : Registry) (k : Nat) :
    Ascending.find? g.sightings k = (g.records.find? k).map Record.sighting := by
  rw [Ascending.find?, sightings, List.find?_map]
  rfl

/-- The exceptions that are told of are the live ones. -/
theorem find?_sightings (g : Registry) (h : Handle) :
    g.sightings.find? h = (g.find? h).map Record.sighting :=
  g.find?_sightings_records h.toNat

/-- Whether an exception is uncaught can be told from what was seen of it. -/
theorem awaits_sightings (g : Registry) (h : Handle) : g.sightings.awaits h = g.awaits h := by
  rw [Sightings.awaits, find?_sightings, awaits]
  cases g.find? h <;> rfl

/-- An exception that is entered is seen as it is. -/
theorem sightings_insert (g : Registry) (r : Record) :
    (g.insert r).sightings = g.sightings.insert r.sighting := by
  refine Ascending.ext_find? fun k => ?_
  rw [find?_sightings_records, insert, Ascending.find?_insert, Ascending.find?_insert,
    find?_sightings_records, apply_ite (Option.map Record.sighting)]
  rfl

theorem sightings_erase (g : Registry) (h : Handle) :
    (g.erase h).sightings = g.sightings.erase h.toNat := by
  refine Ascending.ext_find? fun k => ?_
  rw [find?_sightings_records, erase, Ascending.find?_erase, Ascending.find?_erase,
    find?_sightings_records, apply_ite (Option.map Record.sighting)]
  rfl

/-- What there is to tell changes with a record. -/
theorem sightings_modify {f : Record → Record} {f' : Sighting → Sighting}
    (hf : ∀ r, (f r).sighting = f' r.sighting) (g : Registry) (h : Handle) :
    (g.modify h f).sightings = g.sightings.modify h f' := by
  rw [modify, Sightings.modify, find?_sightings]
  cases g.find? h with
  | none => rfl
  | some r => simp only [Option.map_some, sightings_insert, hf]

/-- The mark of being caught is set in what was seen, and that of a rethrow taken off. -/
theorem sightings_nowCaught (g : Registry) (h : Handle) :
    (g.modify h Record.nowCaught).sightings =
      g.sightings.modify h fun s => { s with caught := true, rethrown := false } :=
  sightings_modify (fun _ => rfl) g h

/-- The mark of a rethrow is set in what was seen. -/
theorem sightings_nowRethrown (g : Registry) (h : Handle) :
    (g.modify h Record.nowRethrown).sightings =
      g.sightings.modify h fun s => { s with rethrown := true } :=
  sightings_modify (fun _ => rfl) g h

/-- Names are not told. -/
theorem sightings_addAlias {g g' : Registry} {owner a : Handle}
    (h : g.addAlias owner a = .ok g') : g'.sightings = g.sightings := by
  rcases addAlias_eq_ok h with rfl | ⟨-, -, rfl⟩
  · rfl
  rw [named]
  split
  next r hr =>
    refine Ascending.ext_find? fun k => ?_
    rw [sightings_insert, Ascending.find?_insert]
    split
    next hk =>
      have hown : r.handle = owner := handle_of_find? hr
      rw [← hk, show (r.withAlias a).sighting.handle = owner from hown]
      exact ((g.find?_sightings owner).trans (by rw [hr]; rfl)).symm
    · rfl
  · rfl

end Registry

/-! ## Following a call -/

namespace Context

variable {α : Type}

/-- What there is to tell of a context. -/
def chronicle (c : Context α) : Chronicle :=
  ⟨c.registry.sightings, c.depth, c.uncaught.toNat, c.aborted⟩

/-- The sink of a context is shown each event once. -/
theorem eventsOf_seen {c : Context α} {i : Nat} (hc : c.sink = some i) (e : Event) :
    eventsOf i (c.seen e) = [e] := by
  simp [seen, hc, eventsOf]

/-- To report which exception a name leads to is no event. -/
@[simp] theorem eventsOf_resolution (i : Nat) (c : Context α) (h : Handle) :
    eventsOf i (c.resolution h) = [] := by
  unfold resolution Registry.resolution
  repeat' split
  all_goals rfl

/-- Whoever knows what there was to tell of `c`, and writes down what the sink `i` sees of the
step, knows what there is to tell after it. -/
structure Follows {β : Type} (i : Nat) (c : Context α) (s : Step (Context α) β) : Prop where
  sink : s.state.sink = some i
  told : (eventsOf i s.trace).foldl Chronicle.tell c.chronicle = s.state.chronicle

namespace Follows

variable {β γ : Type} {i : Nat} {c c' : Context α} {s : Step (Context α) β}

/-- A step that shows nothing may change nothing that can be told. -/
theorem unseen (hsink : s.state.sink = some i) (hs : s.state.chronicle = c.chronicle)
    (ht : eventsOf i s.trace = []) : Follows i c s :=
  ⟨hsink, by rw [ht, hs]; rfl⟩

/-- A step that shows one event. -/
theorem shown {e : Event} (hsink : s.state.sink = some i) (ht : eventsOf i s.trace = [e])
    (hs : c.chronicle.tell e = s.state.chronicle) : Follows i c s :=
  ⟨hsink, by rw [ht, ← hs]; rfl⟩

/-- Where a step begins matters only for what the chronicle says of it. -/
theorem of_chronicle_eq (h : Follows i c' s) (hc : c'.chronicle = c.chronicle) :
    Follows i c s :=
  ⟨h.sink, hc ▸ h.told⟩

/-- What no sink is shown changes no account. -/
theorem after_nothing (h : Follows i c s) {t : List Observation} (ht : eventsOf i t = []) :
    Follows i c (s.after t) :=
  ⟨h.sink, by rw [Step.trace_after, eventsOf_append, ht]; exact h.told⟩

/-- An event that is shown first brings the knowledge to where the step begins. -/
theorem after_event (h : Follows i c' s) {t : List Observation} {e : Event}
    (ht : eventsOf i t = [e]) (hc : c.chronicle.tell e = c'.chronicle) :
    Follows i c (s.after t) := by
  refine ⟨h.sink, ?_⟩
  rw [Step.trace_after, eventsOf_append, ht, List.singleton_append, List.foldl_cons, hc]
  exact h.told

theorem map (h : Follows i c s) (f : β → γ) : Follows i c (s.map f) := ⟨h.sink, h.told⟩

/-- The account of two steps, one after the other: the events of the first are told before those of
the second. -/
theorem andThen (h : Follows i c s) {next : β → Context α → Step (Context α) γ}
    (hnext : ∀ b c', c'.sink = some i → Follows i c' (next b c')) :
    Follows i c (s.andThen next) := by
  obtain ⟨o, c', t⟩ := s
  cases o with
  | returned b =>
    -- the second step begins in the context that the events of the first tell of
    obtain ⟨hsink, htold⟩ := hnext b c' h.sink
    refine ⟨hsink, ?_⟩
    rw [Step.mk_returned_andThen, Step.trace_after, eventsOf_append, List.foldl_append, h.told]
    exact htold
  | transferred _ | panicked _ | aborted _ => exact ⟨h.sink, h.told⟩

end Follows

variable {i : Nat} {c : Context α}

theorem follows_returning {β : Type} (hc : c.sink = some i) (b : β) :
    Follows i c (.returning c b) := .unseen hc rfl rfl

/-- A report is no event, and either the step comes to an end with it or it goes on. -/
theorem follows_reported {β : Type} (build : Build) (v : Violation) {s : Step (Context α) β}
    (hc : c.sink = some i) (hs : Follows i c s) : Follows i c (reported build v c s) := by
  cases build with
  | checked => exact .unseen hc rfl rfl
  | unchecked => exact hs

theorem follows_resolve (hc : c.sink = some i) (h : Handle) : Follows i c (c.resolve h) :=
  .unseen hc rfl (eventsOf_resolution i c h)

/-! ## References -/

/-- A reference is shown with the count that it leaves. -/
theorem follows_retain (hc : c.sink = some i) (h : Handle) : Follows i c (c.retain h) := by
  unfold retain
  split
  · exact follows_returning hc ()
  split
  · exact .unseen hc rfl rfl
  next r hr =>
    refine .shown hc (eventsOf_seen hc _) ?_
    simp [Chronicle.tell, chronicle, Sightings.modify, Registry.find?_sightings, hr,
      Registry.sightings_insert, Record.sighting, Record.retained, depth]

theorem follows_retainAny (hc : c.sink = some i) (h : Handle) : Follows i c (c.retainAny h) :=
  (follows_resolve hc h).andThen fun h _ hc => follows_retain hc h

/-- To capture is shown as the reference that it takes, or not at all. -/
theorem follows_capture (hc : c.sink = some i) : Follows i c c.capture := by
  unfold capture
  split
  · exact follows_returning hc _
  split
  · exact follows_returning hc _
  · exact (follows_resolve hc _).andThen fun h _ hc => (follows_retain hc h).map _

/-- Storage is not in the account. -/
theorem follows_handBack [Allocator α] (hc : c.sink = some i) (refused : UnknownStorage → LogEntry)
    (h : Handle) : Follows i c (handBack refused c h) := by
  unfold handBack
  split
  · exact .unseen hc rfl rfl
  · exact .unseen hc rfl rfl

/-- What is told of a destruction tells nothing: the exception was gone before. -/
theorem follows_destroy [Allocator α] (hc : c.sink = some i) (conduct : Conduct) (r : Record) :
    Follows i { c with registry := c.registry.erase r.handle } (c.destroy conduct r) := by
  unfold destroy
  refine Follows.andThen ?_ fun _ c hc => ?_
  · rw [destruct_eq]
    refine .unseen hc rfl ?_
    cases r.destructor <;> rfl
  · refine (follows_handBack hc _ _).andThen fun _ c hc => ?_
    exact .shown hc (eventsOf_seen hc _) rfl

/-- A reference given back is shown before the destructor is called. If it was the last one, the
exception is gone from the account at that event, and the event of its destruction finds nothing to
take out. -/
theorem follows_release [Allocator α] (build : Build) (conduct : Conduct) (hc : c.sink = some i)
    (h : Handle) : Follows i c (c.release build conduct h) := by
  unfold release
  split
  · exact follows_returning hc ()
  split
  · exact .unseen hc rfl rfl
  next r hr =>
  split
  · exact follows_reported build _ hc (follows_returning hc ())
  have hh : r.handle = h := Registry.handle_of_find? hr
  -- the events tell as well as the record whether that was the last reference
  have htold : c.chronicle.tell (.released h r.released.refcount) =
      if r.released.isDead then
        { c.chronicle with alive := (c.registry.erase h).sightings }
      else { c.chronicle with alive := (c.registry.insert r.released).sightings } := by
    rw [Chronicle.tell, chronicle, Registry.find?_sightings, hr, Registry.sightings_erase,
      Registry.sightings_insert, Sightings.modify, Registry.find?_sightings, hr]
    rfl
  simp only
  cases hdead : r.released.isDead with
  | true =>
    have herase : (c.registry.insert r.released).erase r.released.handle = c.registry.erase h := by
      rw [Registry.erase_insert_eq rfl]
      exact congrArg _ hh
    refine (follows_destroy (c := { c with registry := c.registry.insert r.released }) hc conduct
      r.released).after_event (eventsOf_seen hc _) ?_
    rw [herase, htold, hdead]
    rfl
  | false =>
    refine (follows_returning (c := { c with registry := c.registry.insert r.released }) hc
      ()).after_event (eventsOf_seen hc _) ?_
    rw [htold, hdead]
    rfl

theorem follows_releaseAny [Allocator α] (build : Build) (conduct : Conduct)
    (hc : c.sink = some i) (h : Handle) : Follows i c (c.releaseAny build conduct h) :=
  (follows_resolve hc h).andThen fun h _ hc => follows_release build conduct hc h

/-! ## Scopes -/

/-- To catch an exception is to change its record and to take it off the count. -/
theorem noteCaught_eq (c : Context α) (h : Handle) :
    c.noteCaught h =
      { c with
        registry := c.registry.modify h Record.nowCaught
        uncaught := if c.registry.awaits h then c.uncaught.down else c.uncaught } := by
  unfold noteCaught Registry.modify
  split
  next r hr => cases hcaught : r.caught <;> simp [Registry.awaits, hr, hcaught]
  next hr => simp [Registry.awaits, hr]

/-- To catch is shown before the reference that comes with it. Whether the exception was uncaught
until then decides about the count. -/
theorem follows_beginCatch (hc : c.sink = some i) (h : Handle) : Follows i c (c.beginCatch h) := by
  refine (follows_resolve hc h).andThen fun h c hc => ?_
  -- catching keeps the sink, so the event and what comes after it are seen by the same one
  have hsink : (c.noteCaught h).sink = some i := by rw [noteCaught_eq, hc]
  simp only
  refine ((follows_retain (by exact hsink) h).map _).after_event
    (eventsOf_seen (by exact hsink) _) ?_
  rw [noteCaught_eq]
  simp only [Chronicle.tell, chronicle, depth, Registry.awaits_sightings,
    Registry.sightings_nowCaught]
  split <;> rfl

/-- The end of a scope is shown first, and then the reference that it gives back. What is forgotten
on the way is not in the account. -/
theorem follows_endCatch [Allocator α] (build : Build) (conduct : Conduct) (hc : c.sink = some i) :
    Follows i c (c.endCatch build conduct) := by
  unfold endCatch
  simp only
  -- that something was thrown is not in the account
  have hclear : { c with threw := false }.chronicle = c.chronicle := rfl
  refine Follows.of_chronicle_eq ?_ hclear
  split
  · exact follows_reported build _ (by exact hc) (follows_returning (by exact hc) ())
  next h scopes hs =>
    refine Follows.after_event (?_ : Follows i { c with threw := false, scopes } _)
      (eventsOf_seen hc _) rfl
    split
    · exact follows_returning (by exact hc) ()
    · refine (follows_releaseAny build conduct (by exact hc) h).andThen fun _ c hc => ?_
      exact .unseen hc rfl rfl

/-! ## Exceptions on their way -/

/-- A direct rethrow shows one event, in whichever way it goes on with its scope. -/
theorem eventsOf_rethrow {t : Handle} {rest : List Handle} (build : Build) (hc : c.sink = some i)
    (hs : c.scopes = t :: rest) :
    eventsOf i (c.rethrow build).trace =
      [.rethrown (c.registry.resolve t) (c.rethrow build).state.depth] := by
  have hsink : ({ c with scopes := rest }.noteRethrown (c.registry.resolve t)).sink = some i := by
    rw [noteRethrown_eq, hc]
  rw [rethrow, hs]
  simp only [resolve_andThen, launch, Step.trace_after, Step.state_after, eventsOf_append,
    eventsOf_resolution]
  split <;> simp [eventsOf_seen hsink] <;> rfl

/-- A rethrow is shown with the scope that it closes, if it closes one. Without a scope there is
nothing to be shown. -/
theorem follows_rethrow (build : Build) (hc : c.sink = some i) : Follows i c (c.rethrow build) := by
  by_cases hs : c.scopes = []
  · have hnil : c.rethrow build
        = reported build .rethrowWithoutException c (.aborting c .rethrowOutsideCatch) := by
      rw [rethrow, hs]
    rw [hnil]
    exact follows_reported build _ hc (.unseen hc rfl rfl)
  · obtain ⟨t, rest, hs⟩ := List.exists_cons_of_ne_nil hs
    refine .shown ?_ (eventsOf_rethrow build hc hs) ?_
    · rw [state_rethrow build c hs]
      exact hc
    · rw [state_rethrow build c hs, Chronicle.tell, chronicle, chronicle,
        Registry.sightings_nowRethrown]

/-- A captured exception is rethrown as if directly from a scope of its own. -/
theorem eventsOf_rethrowCaptured {h : Handle} (build : Build) (hc : c.sink = some i)
    (hnull : h ≠ Handle.null) :
    eventsOf i (c.rethrowCaptured build h).trace =
      [.rethrown (c.registry.resolve h) (c.rethrowCaptured build h).state.depth] := by
  have hn : h.isNull = false := (Handle.isNull_eq_false_iff h).2 hnull
  rw [rethrowCaptured, hn, if_neg Bool.false_ne_true, resolve_andThen, Step.trace_after,
    Step.state_after, eventsOf_append, eventsOf_resolution, List.nil_append]
  split
  · rw [Step.trace_after, Step.state_after]
    exact eventsOf_seen hc _
  next r hr =>
    rw [eventsOf_rethrow build (by exact hc) rfl]
    have hfind : (c.registry.insert r.nowRethrown).find? (c.registry.resolve h)
        = some r.nowRethrown := by
      rw [Registry.find?_insert]
      exact if_pos (Registry.handle_of_find? hr)
    simp only [Registry.resolve_of_find? hfind]

/-- To throw again what was captured is shown as a rethrow, with the number of scopes that stay
open. -/
theorem follows_rethrowCaptured (build : Build) (hc : c.sink = some i) (h : Handle) :
    Follows i c (c.rethrowCaptured build h) := by
  by_cases hn : h = Handle.null
  · have hnull : c.rethrowCaptured build h = .returning c () := by simp [rethrowCaptured, hn]
    rw [hnull]
    exact follows_returning hc ()
  · refine .shown ?_ (eventsOf_rethrowCaptured build hc hn) ?_
    · rw [state_rethrowCaptured build c hn]
      exact hc
    · rw [state_rethrowCaptured build c hn, Chronicle.tell, chronicle, chronicle,
        Registry.sightings_nowRethrown]

/-- A throw is followed if the count of uncaught exceptions has room for it. -/
theorem follows_throw (hc : c.sink = some i) (hroom : c.uncaught.toNat + 1 < UInt64.size)
    (h : Handle) (type : Option TypeTag) (d : Option Destructor) :
    Follows i c (c.throw h type d) := by
  refine .shown (e := .thrown h type) hc ?_ ?_
  · unfold throw
    simp only [List.cons_append, eventsOf_logged, eventsOf_append, eventsOf_seen hc]
    split <;> rfl
  · -- a throw in the place of an uncaught exception first takes that one out of the count
    have huncaught : (c.noteThrown (.fresh h type d)).uncaught.toNat =
        (if c.registry.awaits h then c.uncaught.toNat - 1 else c.uncaught.toNat) + 1 := by
      rw [uncaught_noteThrown, Change.recount, show (Record.fresh h type d).handle = h from rfl]
      split
      · rw [Count.toNat_up_of_lt, Count.toNat_down]
        rw [Count.toNat_down]
        omega
      · exact Count.toNat_up_of_lt hroom
    have hstate : (c.throw h type d).state = c.noteThrown (.fresh h type d) := rfl
    rw [hstate, Chronicle.tell, chronicle, chronicle, huncaught, Registry.awaits_sightings,
      noteThrown, Registry.sightings_insert]
    rfl

/-- To throw by an index is shown as any throw. An index that resolves to nothing is no event. -/
theorem follows_throwIndexed (hc : c.sink = some i) (h : Handle) (type : Option TypeTag)
    (table : DestructorTable) (index : Option UInt64)
    (hroom : (Operation.throwIndexed h type table index).thrown?.isSome = true →
      c.uncaught.toNat + 1 < UInt64.size) :
    Follows i c (c.throwIndexed h type table index) := by
  unfold throwIndexed
  cases index with
  | none => exact follows_throw hc (hroom rfl) h type none
  | some index =>
    simp only
    split
    next d hd => exact follows_throw hc (hroom (by simp [Operation.thrown?, hd])) h type (some d)
    · exact .unseen hc rfl rfl

/-- To resume is shown and changes nothing in the account. -/
theorem follows_resume (hc : c.sink = some i) (h : Handle) : Follows i c (c.resume h) :=
  .shown hc (eventsOf_seen hc _) rfl

theorem follows_unexpected (hc : c.sink = some i) (h : Handle) : Follows i c (c.unexpected h) :=
  .shown hc (eventsOf_seen hc _) rfl

/-- Names are not in the account. -/
theorem follows_giveAlias (build : Build) (hc : c.sink = some i) (h a : Handle) :
    Follows i c (c.giveAlias build h a) := by
  unfold giveAlias
  split
  next g hg =>
    have hsame : { c with registry := g }.chronicle = c.chronicle := by
      rw [chronicle, chronicle, ← Registry.sightings_addAlias hg]
      rfl
    exact .unseen hc hsame rfl
  · exact follows_reported build _ hc (follows_returning hc ())

/-- A choice is shown and changes nothing in the account: it enters no more than a name. -/
theorem follows_matchClause (build : Build) (hc : c.sink = some i) (clauses : List TypeTag) :
    Follows i c (c.matchClause build clauses) := by
  refine (follows_resolve hc _).andThen fun h c hc => ?_
  split
  · exact follows_returning hc _
  split
  · exact follows_returning hc _
  -- what is logged before the choice is not shown
  · refine Follows.after_nothing (Follows.andThen ?_ fun m c hc => ?_) rfl
    · unfold chooseClause
      split
      · refine (follows_giveAlias build hc h _).andThen fun _ c hc => ?_
        exact .unseen hc rfl rfl
      · exact .unseen hc rfl rfl
    · exact .shown hc (eventsOf_seen hc _) rfl

/-! ## Runs -/

variable [Allocator α]

/-- An allocation is no event. -/
theorem follows_allocate (hc : c.sink = some i) (size : UInt64) :
    Follows i c (c.allocate size) := by
  unfold allocate
  split
  · exact .unseen hc rfl rfl
  · exact .unseen hc rfl rfl

/-- Every call is followed that does not put another sink in place, and for whose throw the count
has room. -/
theorem follows_perform (build : Build) (conduct : Conduct) {op : Operation}
    (hc : c.sink = some i) (hop : ∀ j, op ≠ .setSink j)
    (hroom : op.thrown?.isSome = true → c.uncaught.toNat + 1 < UInt64.size) :
    Follows i c (c.perform build conduct op) := by
  cases op with
  | allocate size => exact (follows_allocate hc size).map _
  | free h => exact (follows_handBack hc _ h).map _
  | throw h type d => exact (follows_throw hc (hroom rfl) h type d).map _
  | throwIndexed h type table index =>
    exact (follows_throwIndexed hc h type table index hroom).map _
  | resume h => exact (follows_resume hc h).map _
  | beginCatch h => exact (follows_beginCatch hc h).map _
  | endCatch => exact (follows_endCatch build conduct hc).map _
  | exceptionPtr h => exact (follows_returning hc h).map _
  | rethrow => exact (follows_rethrow build hc).map _
  | capture => exact (follows_capture hc).map _
  | rethrowCaptured h => exact (follows_rethrowCaptured build hc h).map _
  | unexpected h => exact (follows_unexpected hc h).map _
  | retain h => exact (follows_retain hc h).map _
  | release h => exact (follows_release build conduct hc h).map _
  | retainAny h => exact (follows_retainAny hc h).map _
  | releaseAny h => exact (follows_releaseAny build conduct hc h).map _
  | resolve h => exact (follows_resolve hc h).map _
  | record? h => exact .unseen hc rfl (eventsOf_resolution i c h)
  | matchClause clauses => exact (follows_matchClause build hc clauses).map _
  | setThrew b => exact .unseen hc rfl rfl
  | setSink j => exact absurd rfl (hop j)

/-- The count of uncaught exceptions grows by throws only, and by one with each. -/
theorem toNat_uncaught_call_le (build : Build) (c : Context α) (k : Call) :
    (c.call build k).state.uncaught.toNat ≤
      c.uncaught.toNat + if k.operation.thrown?.isSome then 1 else 0 := by
  rw [call, uncaught_perform]
  split
  · exact Change.toNat_recount_le _ _ _
  next hthrown =>
    cases hch : c.change k.operation with
    | thrown r => exact absurd (by rw [change_eq_thrown_iff.1 hch]; rfl) hthrown
    | caught h =>
      rw [Change.recount]
      split <;> simp
    | _ => exact Nat.le_refl _

/-- The number of calls of a run that throw something. -/
def throws (l : List Call) : Nat := l.countP (·.operation.thrown?.isSome)

/-- Runs are followed from wherever they begin. -/
theorem tell_run (build : Build) {l : List Call} (hc : c.sink = some i)
    (hsink : ∀ k ∈ l, ∀ j, k.operation ≠ .setSink j)
    (hroom : c.uncaught.toNat + throws l < UInt64.size) :
    (eventsOf i (c.observed build l)).foldl Chronicle.tell c.chronicle =
      (c.run build l).chronicle := by
  induction l generalizing c with
  | nil => rfl
  | cons k l ih =>
    rw [throws, List.countP_cons] at hroom
    -- the room is for all throws of the run, so there is some for this one and for the rest
    have hle := toNat_uncaught_call_le build c k
    have hcall : Follows i c (c.call build k) :=
      follows_perform build k.conduct hc (hsink k List.mem_cons_self) fun hthrown => by
        rw [hthrown] at hroom
        simp only [if_true] at hroom
        omega
    rw [observed, eventsOf_append, List.foldl_append, hcall.told, run_cons]
    exact ih hcall.sink (fun k' hk' => hsink k' (List.mem_cons_of_mem _ hk'))
      (by rw [throws]; omega)

/-- The events are a complete account. In a run with fewer throws than a word can count, whoever
replays the events that the first and only sink has seen knows every live exception with its
type, its references and its marks, the number of open scopes and of uncaught exceptions, and
whether an exception reached a boundary that forbids it. -/
theorem replay_eq_chronicle (build : Build) (types : Hierarchy) (allocator : α) (sink : Nat)
    (l : List Call) (hsink : ∀ k ∈ l, ∀ j, k.operation ≠ .setSink j)
    (hroom : throws l < UInt64.size) :
    let c := ((fresh types allocator).setSink sink).state
    Chronicle.replay (eventsOf sink (c.observed build l)) = (c.run build l).chronicle := by
  intro c
  exact tell_run build (c := c) rfl hsink (by simpa [c, fresh, setSink, Step.returning] using hroom)

/-- A destructor that transfers an exception out of itself, a rethrow outside of all scopes, an
exception that takes the place of itself. -/
theorem replay_eq_chronicle_unwinding :
    let c := ((fresh Hierarchy.empty (Bump.startingAt 4096)).setSink 3).state
    let unwinding : Conduct := fun _ => .transfers ⟨32⟩
    let l : List Call := [⟨.quiet, .throw ⟨16⟩ none (some ⟨7⟩)⟩, ⟨.quiet, .beginCatch ⟨16⟩⟩,
      ⟨unwinding, .endCatch⟩, ⟨.quiet, .rethrow⟩, ⟨.quiet, .throw ⟨32⟩ none none⟩,
      ⟨.quiet, .throw ⟨32⟩ none none⟩, ⟨.quiet, .beginCatch ⟨32⟩⟩, ⟨.quiet, .rethrow⟩]
    (∀ k ∈ l, ∀ j, k.operation ≠ .setSink j) ∧ throws l < UInt64.size ∧
      Chronicle.replay (eventsOf 3 (c.observed .checked l)) = (c.run .checked l).chronicle ∧
      (c.run .checked l).chronicle =
        ⟨Ascending.empty.insert ⟨⟨32⟩, none, Count.zero.up, true, true⟩, 1, 0, false⟩ := by
  intro c unwinding l
  have hsink : ∀ k ∈ l, ∀ j, k.operation ≠ .setSink j := by simp [l]
  have hroom : throws l < UInt64.size := by decide
  exact ⟨hsink, hroom, replay_eq_chronicle .checked Hierarchy.empty (Bump.startingAt 4096) 3 l hsink
    hroom, by decide +kernel⟩

end Context

end ExceptionLifetime
