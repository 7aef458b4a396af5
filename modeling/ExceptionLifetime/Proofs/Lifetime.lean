/-
The life of every exception that is thrown, up to the end of its context.

An exception lives until it is thrown again, until its last reference is given
back, or until the context ends. The first and the last go by without a call of
its destructor. That is told apart here by looking, call by call, at what happens
to the exception with one handle: a handle that is thrown again begins another
life, and the lives of one handle follow each other.

From this come two accounts for every run, misuse and all. The destructor calls
with a handle are those of its lives that ended by giving back a reference, in
order. And what is handed back of its storage is what the client handed back and
what was thrown without taking the place of a live exception, except for the
exceptions whose destructor did not return.
-/
import ExceptionLifetime.Proofs.Quiet
import ExceptionLifetime.Storage.Bump

set_option autoImplicit false

namespace ExceptionLifetime

/-! ## The end of a context -/

/-- The handles that are listed are those of live exceptions. -/
theorem Registry.mem_handles_iff (g : Registry) (h : Handle) :
    h ∈ g.toList.map Record.handle ↔ g.contains h = true := by
  rw [contains_iff, List.mem_map]
  constructor
  · rintro ⟨r, hr, rfl⟩
    exact ⟨r, find?_eq_some_iff.2 ⟨hr, rfl⟩⟩
  · rintro ⟨r, hr⟩
    exact ⟨r, find?_eq_some_iff.1 hr⟩

theorem Registry.nodup_handles (g : Registry) : (g.toList.map Record.handle).Nodup := by
  refine List.pairwise_map.2 (g.records.ascending.imp fun hlt heq => ?_)
  -- the list is in ascending order of handles
  rw [heq] at hlt
  exact Nat.lt_irrefl _ hlt

/-- Each live exception is listed once. -/
theorem Registry.count_handles (g : Registry) (h : Handle) :
    (g.toList.map Record.handle).count h = if g.contains h then 1 else 0 := by
  have hmem := g.mem_handles_iff h
  rw [g.nodup_handles.count]
  by_cases hlive : g.contains h = true
  · rw [if_pos (hmem.2 hlive), if_pos hlive]
  · rw [if_neg fun h => hlive (hmem.1 h), if_neg hlive]

namespace Context

variable {α : Type} [Allocator α]

/-- To free several exceptions is to hand each back once, in the order given, and no destructor is
called. -/
theorem trace_freeAll (c : Context α) (l : List Handle) :
    destructions (c.freeAll l).trace = [] ∧ handedBack (c.freeAll l).trace = l := by
  induction l generalizing c with
  | nil => exact ⟨rfl, rfl⟩
  | cons h l ih =>
    -- a block that is refused does not keep the others from being freed
    have hfree : c.freeAll (h :: l) =
        ((handBack .teardownRefused c h).state.freeAll l).after
          (handBack .teardownRefused c h).trace := by
      have hret := outcome_handBack .teardownRefused c h
      rw [freeAll, Step.andThen, hret]
    obtain ⟨hdes, hback⟩ := ih (handBack .teardownRefused c h).state
    rw [hfree, Step.trace_after, destructions_append, handedBack_append, destructions_handBack,
      handedBack_handBack, hdes, hback]
    exact ⟨rfl, rfl⟩

/-- A context that ends calls no destructor and hands back the storage of what is alive. -/
theorem trace_teardown (c : Context α) :
    destructions c.teardown.trace = [] ∧
      handedBack c.teardown.trace = c.registry.toList.map Record.handle := by
  have hfree := trace_freeAll { c with registry := Registry.empty }
    (c.registry.toList.map Record.handle)
  unfold teardown
  simp only
  split
  · exact hfree
  · rw [Step.trace_after, destructions_append, handedBack_append, hfree.1, hfree.2]
    exact ⟨rfl, rfl⟩

end Context

/-! ## One handle in one call -/

/-- What a call means for the exception with some handle. -/
inductive Turn where
  | thrown (record : Record)
  | ended (record : Record)
  | stays

namespace Context

variable {α : Type}

/-- What a call means for the exception `h`. -/
def turn (c : Context α) (h : Handle) (op : Operation) : Turn :=
  match op.thrown? with
  | some r => if r.handle = h then .thrown r else .stays
  | none =>
    match c.ending? op with
    | some r => if r.handle = h then .ended r else .stays
    | none => .stays

theorem ending?_of_thrown? {c : Context α} {op : Operation} {r : Record}
    (hr : op.thrown? = some r) : c.ending? op = none := by
  rw [ending?, Option.bind_eq_none_iff]
  intro h hh
  have hch := change_eq_released_iff.2 hh
  rw [change_eq_thrown_iff.2 hr] at hch
  cases hch

/-- No exception ends in the call that throws one. -/
theorem thrown?_of_ending? {c : Context α} {op : Operation} {r : Record}
    (hr : c.ending? op = some r) : op.thrown? = none := by
  cases hthrown : op.thrown? with
  | none => rfl
  | some s =>
    rw [ending?_of_thrown? hthrown] at hr
    cases hr

variable {c : Context α} {h : Handle} {op : Operation} {r : Record}

/-- An exception is thrown under a handle by the operations that throw it, and no others. -/
theorem turn_eq_thrown_iff : c.turn h op = .thrown r ↔ op.thrown? = some r ∧ r.handle = h := by
  unfold turn
  cases hthrown : op.thrown? with
  | some s =>
    by_cases hs : s.handle = h
    · simp only [if_pos hs, Turn.thrown.injEq, Option.some.injEq]
      exact ⟨fun heq => ⟨heq, heq ▸ hs⟩, And.left⟩
    · simp only [if_neg hs, Option.some.injEq, reduceCtorEq, false_iff]
      rintro ⟨rfl, hr⟩
      exact hs hr
  | none =>
    cases hending : c.ending? op with
    | none => simp
    | some s => by_cases hs : s.handle = h <;> simp [hs]

/-- An exception ends with the operations that give back its last reference, and no others. -/
theorem turn_eq_ended_iff : c.turn h op = .ended r ↔ c.ending? op = some r ∧ r.handle = h := by
  unfold turn
  cases hthrown : op.thrown? with
  | some s =>
    rw [ending?_of_thrown? hthrown]
    by_cases hs : s.handle = h <;> simp [hs]
  | none =>
    cases hending : c.ending? op with
    | none => simp
    | some s =>
      by_cases hs : s.handle = h
      · simp only [if_pos hs, Turn.ended.injEq, Option.some.injEq]
        exact ⟨fun heq => ⟨heq, heq ▸ hs⟩, And.left⟩
      · simp only [if_neg hs, Option.some.injEq, reduceCtorEq, false_iff]
        rintro ⟨rfl, hr⟩
        exact hs hr

/-- An exception that is thrown is alive after the call. -/
theorem find?_of_turn_thrown (ht : c.turn h op = .thrown r) :
    (c.registryAfter op).find? h = some r := by
  obtain ⟨hr, hh⟩ := turn_eq_thrown_iff.1 ht
  rw [registryAfter_of_thrown? hr, Registry.find?_insert, if_pos hh]

/-- An exception that ends was alive before the call and is not alive after it. -/
theorem find?_of_turn_ended (ht : c.turn h op = .ended r) :
    c.registry.find? h = some r ∧ (c.registryAfter op).find? h = none := by
  obtain ⟨hr, hh⟩ := turn_eq_ended_iff.1 ht
  obtain ⟨k, -, hd⟩ := ending?_eq_some_iff.1 hr
  obtain ⟨-, hfind, -⟩ := Registry.dying?_eq_some_iff.1 hd
  have hk : k = h := (Registry.handle_of_find? hfind).symm.trans hh
  rw [registryAfter_of_ending? hr, Registry.find?_erase, if_pos hh, ← hk]
  exact ⟨hfind, rfl⟩

/-- Any other exception stays what it is. -/
theorem find?_of_turn_stays (ht : c.turn h op = .stays) :
    (∀ r, c.registry.find? h = some r →
      ∃ r', (c.registryAfter op).find? h = some r' ∧ r'.Continues r) ∧
    (c.registry.find? h = none → (c.registryAfter op).find? h = none) := by
  -- what is alive afterwards and was not before has been thrown, and that is no stay
  have hafter : ∀ r', (c.registryAfter op).find? h = some r' →
      ∃ r, c.registry.find? h = some r ∧ r'.Continues r := by
    intro r' hr'
    rcases continues_registryAfter hr' with hthrown | hold
    · have hturn : c.turn h op = .thrown r' :=
        turn_eq_thrown_iff.2 ⟨hthrown, Registry.handle_of_find? hr'⟩
      rw [ht] at hturn
      cases hturn
    · exact hold
  refine ⟨fun r hr => ?_, fun hnone => ?_⟩
  · cases hr' : (c.registryAfter op).find? h with
    | some r' =>
      obtain ⟨s, hs, hcont⟩ := hafter r' hr'
      rw [hr] at hs
      cases hs
      exact ⟨r', rfl, hcont⟩
    | none =>
      have hturn := turn_eq_ended_iff.2 ⟨ending?_of_find?_none hr hr', Registry.handle_of_find? hr⟩
      rw [ht] at hturn
      cases hturn
  · cases hr' : (c.registryAfter op).find? h with
    | none => rfl
    | some r' =>
      obtain ⟨s, hs, -⟩ := hafter r' hr'
      rw [hnone] at hs
      cases hs

/-- An exception that stays is alive after the operation if it was before. -/
theorem contains_of_turn_stays (ht : c.turn h op = .stays) :
    (c.registryAfter op).contains h = c.registry.contains h := by
  obtain ⟨hsome, hnone⟩ := find?_of_turn_stays ht
  cases hr : c.registry.find? h with
  | none => rw [Registry.contains, Registry.contains, hr, hnone hr]
  | some r =>
    obtain ⟨r', hr', -⟩ := hsome r hr
    rw [Registry.contains, Registry.contains, hr, hr']
    rfl

variable [Allocator α]

/-- The destructor calls with a handle are those of the exception that ends. -/
theorem destructions_call (build : Build) (c : Context α) (k : Call) (h : Handle) :
    (destructions (c.call build k).trace).filter (·.2 = h) =
      match c.turn h k.operation with
      | .ended r => r.ended.calls
      | _ => [] := by
  have hdes := (trace_perform build k.conduct c k.operation).1
  -- all calls of one destruction have one handle
  have hsame : ∀ (r : Record) (l : List Destructor),
      (l.map fun d => (d.label, r.handle)).filter (·.2 = h) =
        if r.handle = h then l.map fun d => (d.label, r.handle) else [] := by
    intro r l
    by_cases hr : r.handle = h <;> simp [hr]
  rw [call, hdes]
  cases hending : c.ending? k.operation with
  | some r =>
    have hthrown := thrown?_of_ending? hending
    simp only [hsame, turn, hthrown, hending]
    by_cases hr : r.handle = h
    · rw [if_pos hr, if_pos hr]
      rfl
    · rw [if_neg hr, if_neg hr]
  | none =>
    cases hthrown : k.operation.thrown? with
    | none => simp [turn, hthrown, hending]
    | some s => by_cases hs : s.handle = h <;> simp [turn, hthrown, hs]

/-- What is handed back of one handle is what the client hands back, and what an exception
leaves whose destructor returns. -/
theorem count_handedBack_call (build : Build) (c : Context α) (k : Call) (h : Handle) :
    (handedBack (c.call build k).trace).count h =
      (if k.operation = .free h then 1 else 0) +
        match c.turn h k.operation with
        | .ended r => if k.conduct.finishes r.destructor then 1 else 0
        | _ => 0 := by
  rw [call, (trace_perform build k.conduct c k.operation).2]
  by_cases hfree : ∃ h', k.operation = .free h'
  · obtain ⟨h', hfree⟩ := hfree
    -- what the client hands back ends no exception, so only one of the two sums counts
    have hturn : c.turn h (.free h') = .stays := rfl
    simp only [hfree, hturn, handsBack, Operation.free.injEq, List.count_singleton, beq_iff_eq]
    rfl
  · have hop : ∀ h', k.operation ≠ .free h' := fun h' he => hfree ⟨h', he⟩
    rw [handsBack_of_ne_free hop, if_neg (hop h), Nat.zero_add]
    cases hending : c.ending? k.operation with
    | some r =>
      have hthrown := thrown?_of_ending? hending
      by_cases hr : r.handle = h <;> cases hfin : k.conduct.finishes r.destructor <;>
        simp [turn, hthrown, hending, hr, hfin]
    | none =>
      cases hthrown : k.operation.thrown? with
      | none => simp [turn, hthrown, hending]
      | some s => by_cases hs : s.handle = h <;> simp [turn, hthrown, hs]

end Context

/-! ## Fates -/

/-- What becomes of a thrown exception: another one with its handle takes its place, or its
last reference is given back, or it is alive when the context ends. A destructor may keep the
destruction from coming to its end. -/
inductive Fate where
  | displaced
  | destroyed (finished : Bool)
  | kept
  deriving DecidableEq

/-- Whether the exception was destroyed. -/
def Fate.isDestroyed : Fate → Bool
  | .destroyed _ => true
  | _ => false

@[simp] theorem Fate.isDestroyed_displaced : displaced.isDestroyed = false := rfl

@[simp] theorem Fate.isDestroyed_destroyed (finished : Bool) :
    (destroyed finished).isDestroyed = true := rfl

/-- A thrown exception and what becomes of it. -/
structure Life where
  record : Record
  /-- The throw took the place of a live exception. -/
  displacing : Bool
  fate : Fate

/-- The exception `r` is alive. -/
def Context.IsAlive {α : Type} (c : Context α) (r : Record) : Prop :=
  ∃ s, c.registry.find? r.handle = some s ∧ s.Continues r

namespace Context

variable {α : Type} [Allocator α]

/-- What becomes of the live exception `h` in the rest of a run. -/
def fate (build : Build) (c : Context α) (h : Handle) : List Call → Fate
  | [] => .kept
  | k :: l =>
    match c.turn h k.operation with
    | .thrown _ => .displaced
    | .ended r => .destroyed (k.conduct.finishes r.destructor)
    | .stays => (c.call build k).state.fate build h l

/-- The exceptions that a run throws with the handle `h`, one after the other. -/
def lives (build : Build) (c : Context α) (h : Handle) : List Call → List Life
  | [] => []
  | k :: l =>
    match c.turn h k.operation with
    | .thrown r =>
      ⟨r, c.registry.contains h, (c.call build k).state.fate build h l⟩ ::
        (c.call build k).state.lives build h l
    | _ => (c.call build k).state.lives build h l

/-- The exception `r` is alive throughout a run: it is not thrown again, and no destructor is
called with its handle. -/
def Survives (build : Build) (c : Context α) (r : Record) : List Call → Prop
  | [] => c.IsAlive r
  | k :: l =>
    c.IsAlive r ∧
      (∀ s, k.operation.thrown? = some s → s.handle ≠ r.handle) ∧
      (∀ d ∈ destructions (c.call build k).trace, d.2 ≠ r.handle) ∧
      (c.call build k).state.Survives build r l

/-- A call throws an exception with the handle of `r`, and calls no destructor. -/
structure Displaces (build : Build) (c : Context α) (r : Record) (k : Call) : Prop where
  throws : ∃ s, k.operation.thrown? = some s ∧ s.handle = r.handle
  destructions_eq : destructions (c.call build k).trace = []

/-- A call gives back the last reference to `r`. The destructor is called once, with the handle
of the exception, whatever name the call had for it. By then the exception is forgotten: it is
not alive after the call however the destructor ends. -/
structure Destroys (build : Build) (c : Context α) (r : Record) (k : Call) (finished : Bool) :
    Prop where
  givesBack : c.givesBack? k.operation = some r.handle
  last : ∃ s, c.registry.find? r.handle = some s ∧ s.Continues r ∧ s.isLast = true
  destructions_eq : destructions (c.call build k).trace = r.ended.calls
  finished_eq : k.conduct.finishes r.destructor = finished
  handedBack_eq : handedBack (c.call build k).trace = if finished then [r.handle] else []
  forgotten : ∀ conduct : Conduct,
    (c.perform build conduct k.operation).state.registry.find? r.handle = none

/-- The live exception `r` meets a fate in the rest of a run. -/
def Meets (build : Build) (c : Context α) (r : Record) (l : List Call) : Fate → Prop
  | .kept => c.Survives build r l
  | .displaced =>
    ∃ before k rest, l = before ++ k :: rest ∧ c.Survives build r before ∧
      (c.run build before).Displaces build r k
  | .destroyed finished =>
    ∃ before k rest, l = before ++ k :: rest ∧ c.Survives build r before ∧
      (c.run build before).Destroys build r k finished

variable {build : Build} {c : Context α} {r : Record}

/-- What survives any calls is alive when they begin. -/
theorem Survives.alive {l : List Call} (hs : c.Survives build r l) : c.IsAlive r := by
  cases l with
  | nil => exact hs
  | cons k l => exact hs.1

/-- A call that an exception survives does not concern it. -/
theorem Survives.turn_eq {k : Call} {l : List Call} (hs : c.Survives build r (k :: l)) :
    c.turn r.handle k.operation = .stays := by
  obtain ⟨-, hthrown, -, hrest⟩ := hs
  cases ht : c.turn r.handle k.operation with
  | stays => rfl
  | thrown s =>
    obtain ⟨hs, hh⟩ := turn_eq_thrown_iff.1 ht
    exact absurd hh (hthrown s hs)
  | ended s =>
    obtain ⟨s', hs', -⟩ := hrest.alive
    rw [registry_call, (find?_of_turn_ended ht).2] at hs'
    cases hs'

/-- A call that does not concern an exception is one that it survives. -/
theorem survives_cons {k : Call} {l : List Call} (hlive : c.IsAlive r)
    (ht : c.turn r.handle k.operation = .stays)
    (hs : (c.call build k).state.Survives build r l) : c.Survives build r (k :: l) := by
  refine ⟨hlive, fun s hthrown hh => ?_, fun d hd hh => ?_, hs⟩
  · rw [turn_eq_thrown_iff.2 ⟨hthrown, hh⟩] at ht
    cases ht
  · have hnone := destructions_call build c k r.handle
    rw [ht] at hnone
    have hmem : d ∈ (destructions (c.call build k).trace).filter (·.2 = r.handle) :=
      List.mem_filter.2 ⟨hd, by simpa using hh⟩
    rw [hnone] at hmem
    cases hmem

/-- An exception that a call does not concern goes on to live. -/
theorem alive_call (build : Build) {k : Call} (hlive : c.IsAlive r)
    (ht : c.turn r.handle k.operation = .stays) : (c.call build k).state.IsAlive r := by
  obtain ⟨s, hs, hcont⟩ := hlive
  obtain ⟨s', hs', hcont'⟩ := (find?_of_turn_stays ht).1 s hs
  exact ⟨s', by rw [registry_call]; exact hs', hcont'.trans hcont⟩

/-- The fate of an exception that has survived some calls is decided by those that follow. -/
theorem fate_append {before l : List Call} (hs : c.Survives build r before) :
    c.fate build r.handle (before ++ l) = (c.run build before).fate build r.handle l := by
  induction before generalizing c with
  | nil => rfl
  | cons k before ih =>
    rw [List.cons_append, fate, hs.turn_eq]
    exact ih hs.2.2.2

/-- A call that ends an exception destroys it. -/
theorem destroys_of_turn {k : Call} {s : Record} (hlive : c.IsAlive r)
    (ht : c.turn r.handle k.operation = .ended s) :
    c.Destroys build r k (k.conduct.finishes s.destructor) := by
  obtain ⟨hfind, hgone⟩ := find?_of_turn_ended ht
  obtain ⟨s', hs', hcont⟩ := hlive
  rw [hfind] at hs'
  cases hs'
  obtain ⟨hending, -⟩ := turn_eq_ended_iff.1 ht
  obtain ⟨h, hgives, hd⟩ := ending?_eq_some_iff.1 hending
  obtain ⟨-, hh, hlast⟩ := Registry.dying?_eq_some_iff.1 hd
  have hhandle : h = r.handle := by
    rw [← Registry.handle_of_find? hh]
    exact hcont.handle
  obtain ⟨hdes, hback⟩ := trace_perform build k.conduct c k.operation
  -- who hands storage back gives back no reference
  have hop : ∀ h', k.operation ≠ .free h' := by
    rintro h' he
    rw [he] at hgives
    cases hgives
  refine ⟨by rw [hgives, hhandle], ⟨s, hfind, hcont, hlast⟩, ?_, by rw [hcont.destructor], ?_,
    fun conduct => ?_⟩
  · rw [call, hdes, hending, Ended.calls, Record.ended, ← hcont.destructor, ← hcont.handle]
  · rw [call, hback, handsBack_of_ne_free hop, hending, ← hcont.handle]
  · rw [registry_perform]
    exact hgone

/-- An exception meets the fate that is told of it. -/
theorem meets_fate (hlive : c.IsAlive r) (l : List Call) :
    c.Meets build r l (c.fate build r.handle l) := by
  -- the first call that concerns the exception settles its fate
  induction l generalizing c with
  | nil => exact hlive
  | cons k l ih =>
    rw [fate]
    cases ht : c.turn r.handle k.operation with
    | thrown s =>
      refine ⟨[], k, l, rfl, hlive, ⟨s, turn_eq_thrown_iff.1 ht⟩, ?_⟩
      rw [run_nil, call, (trace_perform build k.conduct c k.operation).1,
        ending?_of_thrown? (turn_eq_thrown_iff.1 ht).1]
    | ended s => exact ⟨[], k, l, rfl, hlive, destroys_of_turn hlive ht⟩
    | stays =>
      have hrest := ih (alive_call build hlive ht)
      cases hf : (c.call build k).state.fate build r.handle l with
      | kept =>
        rw [hf] at hrest
        exact survives_cons hlive ht hrest
      | displaced =>
        rw [hf] at hrest
        obtain ⟨before, k', rest, rfl, hs, hd⟩ := hrest
        exact ⟨k :: before, k', rest, rfl, survives_cons hlive ht hs, hd⟩
      | destroyed finished =>
        rw [hf] at hrest
        obtain ⟨before, k', rest, rfl, hs, hd⟩ := hrest
        exact ⟨k :: before, k', rest, rfl, survives_cons hlive ht hs, hd⟩

/-- A thrown exception meets no other fate than that which `fate` tells. -/
theorem eq_fate_of_meets {l : List Call} {f : Fate} (hf : c.Meets build r l f) :
    f = c.fate build r.handle l := by
  cases f with
  | kept =>
    have happ := fate_append (l := []) hf
    rw [List.append_nil] at happ
    exact happ.symm
  | displaced =>
    obtain ⟨before, k, rest, rfl, hs, ⟨s, hthrown, hh⟩, -⟩ := hf
    rw [fate_append hs, fate, turn_eq_thrown_iff.2 ⟨hthrown, hh⟩]
  | destroyed finished =>
    obtain ⟨before, k, rest, rfl, hs, hd⟩ := hf
    obtain ⟨s, hfind, hcont, -⟩ := hd.last
    have hgone := hd.forgotten k.conduct
    rw [registry_perform] at hgone
    have hturn := turn_eq_ended_iff.2 ⟨ending?_of_find?_none hfind hgone, hcont.handle⟩
    rw [fate_append hs, fate, hturn, ← hd.finished_eq, ← hcont.destructor]

/-! ## All lives of a handle -/

/-- The destructor calls with a handle in a run: that of the exception that is alive at its
beginning, if it is destroyed, and those of the exceptions thrown later that are. -/
theorem destructions_observed (build : Build) (c : Context α) (h : Handle) (l : List Call) :
    (destructions (c.observed build l)).filter (·.2 = h) =
      (c.registry.find? h).toList.flatMap
          (fun r => if (c.fate build h l).isDestroyed then r.ended.calls else []) ++
        ((c.lives build h l).filter (·.fate.isDestroyed)).flatMap (·.record.ended.calls) := by
  induction l generalizing c with
  | nil => cases c.registry.find? h <;> rfl
  | cons k l ih =>
    rw [observed, destructions_append, List.filter_append, destructions_call, ih, registry_call,
      fate, lives]
    cases ht : c.turn h k.operation with
    | thrown r =>
      -- whatever was alive is displaced, and the new life is the first of the rest
      rw [find?_of_turn_thrown ht]
      cases hf : ((c.call build k).state.fate build h l).isDestroyed <;>
        cases c.registry.find? h <;> simp [hf]
    | ended r =>
      rw [(find?_of_turn_ended ht).1, (find?_of_turn_ended ht).2]
      simp
    | stays =>
      -- what is alive may have other fields now, but the destructor and the handle are the same
      obtain ⟨hsome, hnone⟩ := find?_of_turn_stays ht
      cases hr : c.registry.find? h with
      | none => rw [hnone hr, List.nil_append]
      | some r =>
        obtain ⟨r', hr', hcont⟩ := hsome r hr
        have hended : r'.ended = r.ended := by
          rw [Record.ended, Record.ended, hcont.handle, hcont.destructor]
        simp [hr', hended]

/-- What a run hands back of one handle. An exception that is alive leaves its storage to be
handed back later, unless its destructor does not return. -/
theorem count_handedBack_observed (build : Build) (c : Context α) (h : Handle) (l : List Call) :
    (handedBack (c.observed build l)).count h +
        (if (c.run build l).registry.contains h then 1 else 0) +
        (c.lives build h l).countP (·.fate = .destroyed false) +
        (if c.registry.contains h ∧ c.fate build h l = .destroyed false then 1 else 0) =
      l.countP (·.operation = .free h) + (c.lives build h l).countP (¬ ·.displacing) +
        if c.registry.contains h then 1 else 0 := by
  induction l generalizing c with
  | nil => by_cases hlive : c.registry.contains h = true <;> simp [observed, lives, fate, hlive]
  | cons k l ih =>
    -- all that differs between the accounts before and after the call is told by its turn
    have hrest := ih (c.call build k).state
    rw [registry_call] at hrest
    rw [observed, handedBack_append, List.count_append, count_handedBack_call, run_cons, fate,
      lives, List.countP_cons]
    cases ht : c.turn h k.operation with
    | thrown r =>
      have hafter : (c.registryAfter k.operation).contains h = true :=
        (Registry.contains_iff _ _).2 ⟨r, find?_of_turn_thrown ht⟩
      rw [hafter] at hrest
      by_cases hf : (c.call build k).state.fate build h l = .destroyed false <;>
        cases c.registry.contains h <;> simp [hf] at hrest ⊢ <;> omega
    | ended r =>
      obtain ⟨hbefore, hafter⟩ := find?_of_turn_ended ht
      rw [(Registry.contains_eq_false_iff _ _).2 hafter] at hrest
      rw [(Registry.contains_iff _ _).2 ⟨r, hbefore⟩]
      cases hfin : k.conduct.finishes r.destructor <;> simp [hfin] at hrest ⊢ <;> omega
    | stays =>
      rw [contains_of_turn_stays ht] at hrest
      simp at hrest ⊢
      omega

/-- What a run and the end of its context let others see. -/
def watched (build : Build) (c : Context α) (l : List Call) : List Observation :=
  c.observed build l ++ (c.run build l).teardown.trace

/-- Every exception that is thrown meets one fate. It lives until another one is thrown in its
place, until its last reference is given back, or until the context ends, and what comes first
is told by `fate`. Of all the exceptions thrown with one handle the destroyed ones had their
destructors called, each once and in turn, and no other destructor call has that handle. The
storage at a handle is handed back as often as the client asks for it and as exceptions are
thrown there without displacing one, except for the exceptions whose destructor did not
return. -/
theorem every_throw_meets_one_fate (build : Build) (types : Hierarchy) (allocator : α)
    (l : List Call) :
    let c := fresh types allocator
    (∀ before k rest r, l = before ++ k :: rest → k.operation.thrown? = some r →
      ∀ f, ((c.run build before).call build k).state.Meets build r rest f ↔
        f = ((c.run build before).call build k).state.fate build r.handle rest) ∧
    (∀ h, (destructions (c.watched build l)).filter (·.2 = h) =
      ((c.lives build h l).filter (·.fate.isDestroyed)).flatMap (·.record.ended.calls)) ∧
    (∀ h, (handedBack (c.watched build l)).count h +
        (c.lives build h l).countP (·.fate = .destroyed false) =
      l.countP (·.operation = .free h) + (c.lives build h l).countP (¬ ·.displacing)) := by
  intro c
  obtain ⟨hdes, hback⟩ := trace_teardown (c.run build l)
  refine ⟨fun before k rest r _ hr f => ?_, fun h => ?_, fun h => ?_⟩
  · have hlive : ((c.run build before).call build k).state.IsAlive r := by
      refine ⟨r, ?_, .refl r⟩
      rw [registry_call, registryAfter_of_thrown? hr, Registry.find?_insert, if_pos rfl]
    constructor
    · exact eq_fate_of_meets
    · rintro rfl
      exact meets_fate hlive rest
  · rw [watched, destructions_append, hdes, List.append_nil, destructions_observed]
    rfl
  · -- the end of the context hands back what is alive, so nothing is left to count
    have hcount := count_handedBack_observed build c h l
    rw [watched, handedBack_append, List.count_append, hback, Registry.count_handles]
    simp [c, fresh, Registry.contains] at hcount ⊢
    omega

/-- Three exceptions with one handle: one is displaced, one has a destructor that panics, and one
is alive at the end. -/
example :
    let throws : Call := ⟨.quiet, .throw ⟨16⟩ none (some ⟨1⟩)⟩
    let l := [throws, throws, ⟨.quiet, .beginCatch ⟨16⟩⟩, ⟨fun _ => .panics "", .endCatch⟩, throws]
    ((fresh Hierarchy.empty (Bump.startingAt 4096)).lives .checked ⟨16⟩ l).map (·.fate) =
      [.displaced, .destroyed false, .kept] := by
  decide +kernel

end Context

end ExceptionLifetime
