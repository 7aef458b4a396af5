/-
Reference traffic on different exceptions.

Several clients take and give back references, each to an exception of its own, and
nobody says in which order their calls come. An exception may end in between, and a
client that goes on naming it then names nothing.

All that a call for one exception can see or change is the record of that exception and
the block in which it lies. That is not plain for a name: to resolve it every live record
is looked at, and which ones are alive depends on what the others did. But where no name
is shared, a name leads to the exception that it is of, or to nobody once that has ended,
whatever else is alive. So a schedule can be compared, for one exception at a time, with
the calls for that exception alone. Two schedules of the same calls then agree on every
exception, on every block, and on what each client got to see.
-/
import ExceptionLifetime.Proofs.Cleanup
import ExceptionLifetime.Proofs.Lifetime
import ExceptionLifetime.Storage.Heap

set_option autoImplicit false

namespace ExceptionLifetime

/-! ## Names of one exception -/

namespace Registry

variable {g g' g₀ : Registry} {h k a : Handle} {r : Record}

/-- If fewer are alive, a name is a name of the same exception, or of none. -/
theorem Within.eq_of_mem (hw : g.Within g₀) (hp : g₀.Partitioned) (hr : g₀.find? h = some r)
    (ha : a ∈ r.aliases) {s : Record} (hs : g.find? k = some s) (hmem : a ∈ s.aliases) : k = h := by
  obtain ⟨s₀, hs₀, haliases⟩ := hw k s hs
  exact hp hs₀ hr (haliases ▸ hmem) ha

/-- The name has an owner as long as its exception is alive. -/
theorem Within.owner?_eq (hw : g.Within g₀) (hp : g₀.Partitioned) (hr : g₀.find? h = some r)
    (ha : a ∈ r.aliases) : g.owner? a = if g.contains h then some h else none := by
  split
  next hlive =>
    obtain ⟨s, hs⟩ := (contains_iff g h).1 hlive
    obtain ⟨r₀, hr₀, haliases⟩ := hw h s hs
    obtain rfl := Option.some.inj (hr.symm.trans hr₀)
    -- whoever else goes by the name is the same exception, so it is the first of them
    refine owner?_eq_some_iff.2 ⟨s, hs, haliases ▸ ha, fun k s' hs' hmem => ?_⟩
    have hk := hw.eq_of_mem hp hr ha hs' hmem
    exact Nat.le_of_eq (congrArg Handle.toNat hk.symm)
  next hgone =>
    refine owner?_eq_none_iff.2 fun k s hs hmem => hgone ?_
    rw [← hw.eq_of_mem hp hr ha hs hmem]
    exact (contains_iff g k).2 ⟨s, hs⟩

/-- A name is a handle of its own only if it is the handle of its exception. -/
theorem Within.contains_eq (hw : g.Within g₀) (hp : g₀.Partitioned) (hr : g₀.find? h = some r)
    (ha : a ∈ r.aliases) : g.contains a = (decide (a = h) && g.contains h) := by
  by_cases hself : a = h
  · simp [hself]
  · rw [decide_eq_false hself, Bool.false_and, contains_eq_false_iff]
    refine Option.eq_none_iff_forall_ne_some.2 fun s hs => hself ?_
    exact hw.eq_of_mem hp hr ha hs (handle_of_find? hs ▸ s.handle_mem)

/-- Where a name leads depends on nothing but whether its exception is alive. -/
theorem Within.resolve_congr (hw : g.Within g₀) (hw' : g'.Within g₀) (hp : g₀.Partitioned)
    (hr : g₀.find? h = some r) (ha : a ∈ r.aliases) (hsame : g.contains h = g'.contains h) :
    g.resolve a = g'.resolve a ∧ g.resolution a = g'.resolution a := by
  have hcontains : g.contains a = g'.contains a := by
    rw [hw.contains_eq hp hr ha, hw'.contains_eq hp hr ha, hsame]
  have howner : g.owner? a = g'.owner? a := by
    rw [hw.owner?_eq hp hr ha, hw'.owner?_eq hp hr ha, hsame]
  constructor
  · rw [resolve, resolve, hcontains, howner]
  · rw [resolution, resolution, hcontains, howner]

/-- A name leads to its exception, or to what is not alive. -/
theorem Within.resolve_cases (hw : g.Within g₀) (hp : g₀.Partitioned) (hr : g₀.find? h = some r)
    (ha : a ∈ r.aliases) : g.resolve a = h ∨ g.find? (g.resolve a) = none := by
  cases hs : g.find? (g.resolve a) with
  | none => exact .inr rfl
  | some s =>
    refine .inl (hw.eq_of_mem hp hr ha hs ?_)
    by_cases hnull : g.resolve a = Handle.null
    · -- what leads to null is null, or a name of the exception there
      by_cases ha0 : a = Handle.null
      · rw [ha0, resolve_null] at hs
        rw [ha0, ← handle_of_find? hs]
        exact s.handle_mem
      · have hlive := (contains_iff g _).2 ⟨s, hs⟩
        rcases (resolve_eq_iff ha0 hlive).1 rfl with hself | ⟨-, ho⟩
        · exact absurd (hself.trans hnull) ha0
        · obtain ⟨s', hs', hmem, -⟩ := owner?_eq_some_iff.1 ho
          obtain rfl := Option.some.inj (hs.symm.trans hs')
          exact hmem
    · exact mem_aliases_of_resolve hs rfl hnull

/-- To take a reference gives no names. -/
theorem within_retain (g : Registry) (t : Handle) : (g.retain t).Within g := by
  intro k r' hr'
  rw [find?_retain_eq] at hr'
  split at hr'
  · obtain ⟨r, hr, rfl⟩ := Option.map_eq_some_iff.1 hr'
    exact ⟨r, hr, r.aliases_held⟩
  · exact ⟨r', hr', rfl⟩

end Registry

/-! ## Blocks of a heap -/

namespace Heap

variable {place : Placement}

/-- What is handed back is not in use any more, whether or not it was. -/
theorem live_discard (m : Heap place) (h : Handle) :
    (discard m h).live = m.live.erase h.toNat := by
  cases hb : m.live.find? h.toNat with
  | some b =>
    have hok : Allocator.free m h = .ok (m.release b) := by
      change m.free h = _
      rw [free, hb]
    obtain ⟨-, hstart⟩ := Ascending.find?_eq_some_iff.1 hb
    rw [discard, hok, ← hstart]
    rfl
  | none =>
    have herror : Allocator.free m h = .error ⟨h⟩ := by
      change m.free h = _
      rw [free, hb]
    -- what the heap refuses was not there to be erased
    have hsame : discard m h = m := by rw [discard, herror]
    rw [hsame]
    refine Ascending.ext_find? fun k => ?_
    rw [Ascending.find?_erase]
    split
    next hk => rw [← hk, hb]
    next => rfl

/-- Heaps in which the same blocks are found are alike. -/
theorem live_ext {m m' : Heap place}
    (h : ∀ k : Handle, m.live.find? k.toNat = m'.live.find? k.toNat) : m.live = m'.live := by
  refine Ascending.ext_find? fun k => ?_
  by_cases hk : k < UInt64.size
  · have hn : Handle.toNat ⟨UInt64.ofNat k⟩ = k := UInt64.toNat_ofNat_of_lt' hk
    have hfind := h ⟨UInt64.ofNat k⟩
    rwa [hn] at hfind
  · have hnone : ∀ n : Heap place, n.live.find? k = none := by
      intro n
      refine Ascending.find?_eq_none_iff.2 fun b _ hb => hk ?_
      exact hb ▸ b.start.addr.toNat_lt
    rw [hnone, hnone]

end Heap

/-! ## Two contexts that agree on one exception -/

namespace Context

variable {place : Placement}

/-- The contexts differ in other exceptions only: in their records, and in the storage. -/
structure SameAt (h : Handle) (c c' : Context (Heap place)) : Prop where
  rest : c = { c' with registry := c.registry, allocator := c.allocator }
  record : c.registry.find? h = c'.registry.find? h
  block : c.allocator.live.find? h.toNat = c'.allocator.live.find? h.toNat

namespace SameAt

variable {h : Handle} {c c' c'' : Context (Heap place)}

theorem refl (h : Handle) (c : Context (Heap place)) : SameAt h c c := ⟨rfl, rfl, rfl⟩

theorem symm (hs : SameAt h c c') : SameAt h c' c :=
  ⟨by rw [hs.rest], hs.record.symm, hs.block.symm⟩

theorem trans (hs : SameAt h c c') (hs' : SameAt h c' c'') : SameAt h c c'' :=
  ⟨by rw [hs.rest, hs'.rest], hs.record.trans hs'.record, hs.block.trans hs'.block⟩

end SameAt

/-- The calls end alike and let others see the same, and the contexts that they leave agree on
the exception `h`. -/
structure Agree {β : Type} (h : Handle) (u u' : Step (Context (Heap place)) β) : Prop where
  outcome : u.outcome = u'.outcome
  trace : u.trace = u'.trace
  state : SameAt h u.state u'.state

namespace Agree

variable {β γ : Type} {h : Handle} {u u' : Step (Context (Heap place)) β}

theorem map (hu : Agree h u u') (f : β → γ) : Agree h (u.map f) (u'.map f) :=
  ⟨congrArg (Outcome.map f) hu.outcome, hu.trace, hu.state⟩

theorem after (hu : Agree h u u') {t t' : List Observation} (ht : t = t') :
    Agree h (u.after t) (u'.after t') := by
  refine ⟨hu.outcome, ?_, hu.state⟩
  rw [Step.trace_after, Step.trace_after, ht, hu.trace]

/-- What is done next agrees if it does so on all contexts that agree. -/
theorem andThen (hu : Agree h u u') {next : β → Context (Heap place) → Step (Context (Heap place)) γ}
    (hnext : ∀ b s s', SameAt h s s' → Agree h (next b s) (next b s')) :
    Agree h (u.andThen next) (u'.andThen next) := by
  obtain ⟨o, s, t⟩ := u
  obtain ⟨o', s', t'⟩ := u'
  obtain ⟨houtcome, htrace, hstate⟩ := hu
  simp only at houtcome htrace hstate
  subst houtcome htrace
  cases o with
  | returned b => exact (hnext b s s' hstate).after rfl
  | transferred _ | panicked _ | aborted _ => exact ⟨rfl, rfl, hstate⟩

end Agree

variable {h y : Handle} {c c' : Context (Heap place)} {build : Build}

/-! ## One reference -/

/-- The context after a reference was given back, if destructors return. -/
theorem released_quiet (c : Context (Heap place)) (y : Handle) :
    c.released .quiet y =
      { c with
        registry := c.registry.release y
        allocator := (c.registry.dying? y).elim c.allocator fun r =>
          discard c.allocator r.handle } := by
  unfold released
  cases hd : c.registry.dying? y with
  | none => rfl
  | some r => simp [without, Registry.release_of_dying? hd]

/-- A reference to another exception, or to none, is of no concern to the exception `h`. -/
theorem sameAt_retain (hy : y ≠ h ∨ c.registry.find? y = none) :
    SameAt h (c.retain y).state c := by
  rw [state_retain]
  refine ⟨rfl, ?_, rfl⟩
  rcases hy with hne | hnone
  · exact (Registry.find?_retain_eq _ _ _).trans (if_neg hne)
  · rw [Registry.retain_of_find?_none hnone]

/-- A reference to another exception is given back, or one to none: whether that exception ends or
not, the storage of `h` is not touched. -/
theorem sameAt_release (build : Build) (hy : y ≠ h ∨ c.registry.find? y = none) :
    SameAt h (c.release build .quiet y).state c := by
  rw [state_release, released_quiet]
  by_cases hnone : c.registry.find? y = none
  · -- without an exception there is nothing that could end
    have hrelease : c.registry.release y = c.registry := by
      refine Registry.ext_find? fun k => ?_
      rw [Registry.find?_release_eq]
      split
      next hk => rw [← hk, hnone, Option.bind_none]
      next => rfl
    rw [Registry.dying?_of_find?_none hnone, hrelease]
    exact .refl h c
  · have hne : y ≠ h := hy.resolve_right hnone
    refine ⟨rfl, (Registry.find?_release_eq _ _ _).trans (if_neg hne), ?_⟩
    cases hd : c.registry.dying? y with
    | none => rfl
    | some r =>
      obtain ⟨-, hr, -⟩ := Registry.dying?_eq_some_iff.1 hd
      have hother : r.handle.toNat ≠ h.toNat := by
        rw [Registry.handle_of_find? hr]
        exact fun heq => hne (Handle.ext_toNat heq)
      rw [Option.elim_some, Heap.live_discard, Ascending.find?_erase, if_neg hother]

/-- What is shown to the sink is the same. -/
theorem SameAt.seen (hs : SameAt h c c') (e : Event) : c.seen e = c'.seen e := by
  rw [hs.rest]
  rfl

/-- Storage is taken back, or refused, alike. -/
theorem SameAt.agree_free (hs : SameAt h c c') : Agree h (c.free h) (c'.free h) := by
  have hblock := hs.block
  have hfree : ∀ s : Context (Heap place), Allocator.free s.allocator h = s.allocator.free h :=
    fun _ => rfl
  have hstate : SameAt h (c.free h).state (c'.free h).state := by
    rw [Context.free, Context.free, state_handBack, state_handBack]
    refine ⟨by rw [hs.rest], hs.record, ?_⟩
    rw [Heap.live_discard, Heap.live_discard, Ascending.find?_erase, Ascending.find?_erase,
      if_pos rfl, if_pos rfl]
  refine ⟨?_, ?_, hstate⟩
  · exact (outcome_handBack _ c h).trans (outcome_handBack _ c' h).symm
  · unfold Context.free handBack
    rw [hfree, hfree, Heap.free, Heap.free, hblock]
    cases c'.allocator.live.find? h.toNat <;> rfl

/-- An exception is destroyed alike. -/
theorem SameAt.agree_destroy (hs : SameAt h c c') {r : Record} (hr : r.handle = h) :
    Agree h (c.destroy .quiet r) (c'.destroy .quiet r) := by
  subst hr
  have hforgotten : SameAt r.handle { c with registry := c.registry.erase r.handle }
      { c' with registry := c'.registry.erase r.handle } := by
    refine ⟨by rw [hs.rest], ?_, hs.block⟩
    simp only [Registry.find?_erase, if_pos]
  have hdestruct : Agree r.handle
      (destruct .quiet { c with registry := c.registry.erase r.handle } r.handle r.destructor)
      (destruct .quiet { c' with registry := c'.registry.erase r.handle } r.handle
        r.destructor) := by
    rw [destruct_eq, destruct_eq]
    exact ⟨rfl, rfl, hforgotten⟩
  refine hdestruct.andThen fun _ s s' hs => hs.agree_free.andThen fun _ s s' hs => ⟨rfl, ?_, hs⟩
  -- the log tells what was thrown last and how deep the scopes are, which both share
  have hlog : LogEntry.freed r.handle s.lastThrown s.depth
      = .freed r.handle s'.lastThrown s'.depth := by
    rw [hs.rest]
    rfl
  simp only [hlog, hs.seen]

/-- A reference is taken alike to the exception itself, and to none. -/
theorem SameAt.agree_retain (hs : SameAt h c c')
    (hy : y = h ∨ c.registry.find? y = none ∧ c'.registry.find? y = none) :
    Agree h (c.retain y) (c'.retain y) := by
  -- in both contexts the same record is looked at, or none is
  have hfind : c.registry.find? y = c'.registry.find? y := by
    rcases hy with rfl | ⟨hnone, hnone'⟩
    · exact hs.record
    · rw [hnone, hnone']
  refine ⟨(outcome_retain c y).trans (outcome_retain c' y).symm, ?_, ?_⟩
  · unfold retain
    rw [hfind]
    split
    · rfl
    · cases c'.registry.find? y with
      | none => rfl
      | some r => exact congrArg (List.cons _) (hs.seen _)
  · rw [state_retain, state_retain]
    refine ⟨by rw [hs.rest], ?_, hs.block⟩
    simp only [Registry.find?_retain_eq, hs.record]

/-- A reference is given back alike to the exception itself, and to none. -/
theorem SameAt.agree_release (hs : SameAt h c c') (build : Build)
    (hy : y = h ∨ c.registry.find? y = none ∧ c'.registry.find? y = none) :
    Agree h (c.release build .quiet y) (c'.release build .quiet y) := by
  unfold release
  split
  · exact ⟨rfl, rfl, hs⟩
  rcases hy with rfl | ⟨hnone, hnone'⟩
  · rw [hs.record]
    cases hr : c'.registry.find? y with
    | none => exact ⟨rfl, rfl, hs⟩
    | some r =>
      have hh : r.handle = y := Registry.handle_of_find? hr
      -- the record goes in with one reference less, and may be destroyed from there
      have hentered : SameAt y { c with registry := c.registry.insert r.released }
          { c' with registry := c'.registry.insert r.released } := by
        refine ⟨by rw [hs.rest], ?_, hs.block⟩
        simp only [Registry.find?_insert, show r.released.handle = y from hh, if_pos]
      simp only
      split
      · cases build <;> exact ⟨rfl, rfl, hs⟩
      · refine Agree.after ?_ (congrArg (List.cons _) (hs.seen _))
        split
        · exact hentered.agree_destroy hh
        · exact ⟨rfl, rfl, hentered⟩
  · rw [hnone, hnone']
    exact ⟨rfl, rfl, hs⟩

end Context

/-! ## Calls for one exception -/

/-- Whether a call takes or gives back a reference to the exception `r`, by its handle or, where
names are resolved, by any name of it. -/
def Operation.counts (r : Record) : Operation → Bool
  | .retain h | .release h => h = r.handle
  | .retainAny a | .releaseAny a => r.hasAlias a
  | _ => false

namespace Context

variable {place : Placement} {h k : Handle} {c c' : Context (Heap place)} {g₀ : Registry}
  {r s : Record} {op : Operation} {build : Build}

theorem SameAt.contains_eq (hs : SameAt h c c') :
    c.registry.contains h = c'.registry.contains h := by
  rw [Registry.contains, Registry.contains, hs.record]

/-- A call for the exception comes to the same in contexts that agree on it. -/
theorem SameAt.agree_perform (hs : SameAt h c c') (hw : c.registry.Within g₀)
    (hw' : c'.registry.Within g₀) (hp : g₀.Partitioned) (hr : g₀.find? h = some r)
    (hop : op.counts r = true) (build : Build) :
    Agree h (c.perform build .quiet op) (c'.perform build .quiet op) := by
  -- a name leads to the same handle in both, that of the exception or one of nothing alive
  have hname : ∀ a, r.hasAlias a = true → c.resolution a = c'.resolution a ∧
      c.registry.resolve a = c'.registry.resolve a ∧ (c.registry.resolve a = h ∨
        c.registry.find? (c.registry.resolve a) = none ∧
          c'.registry.find? (c.registry.resolve a) = none) := by
    intro a ha
    have hmem := (HandleSet.has_iff _ _).1 ha
    obtain ⟨hlead, hlog⟩ := hw.resolve_congr hw' hp hr hmem hs.contains_eq
    refine ⟨congrArg (List.map Observation.logged) hlog, hlead, ?_⟩
    rcases hw.resolve_cases hp hr hmem with hself | hnone
    · exact .inl hself
    rcases hw'.resolve_cases hp hr hmem with hself | hnone'
    · exact .inl (hlead.trans hself)
    · exact .inr ⟨hnone, hlead ▸ hnone'⟩
  have hh := Registry.handle_of_find? hr
  cases op with
  | retain y => exact (hs.agree_retain (.inl ((of_decide_eq_true hop).trans hh))).map _
  | release y => exact (hs.agree_release build (.inl ((of_decide_eq_true hop).trans hh))).map _
  | retainAny a =>
    obtain ⟨hlog, hlead, hy⟩ := hname a hop
    rw [perform, perform, retainAny, retainAny, resolve_andThen, resolve_andThen, ← hlead]
    exact ((hs.agree_retain hy).after hlog).map _
  | releaseAny a =>
    obtain ⟨hlog, hlead, hy⟩ := hname a hop
    rw [perform, perform, releaseAny, releaseAny, resolve_andThen, resolve_andThen, ← hlead]
    exact ((hs.agree_release build hy).after hlog).map _
  | _ => cases hop

/-- A call for another exception is of no concern. -/
theorem sameAt_perform (hw : c.registry.Within g₀) (hp : g₀.Partitioned)
    (hr : g₀.find? k = some r) (hop : op.counts r = true) (hk : k ≠ h) (build : Build) :
    SameAt h (c.perform build .quiet op).state c := by
  -- a name leads to its own exception, which is another one, or to nothing
  have hname : ∀ a, r.hasAlias a = true → c.registry.resolve a ≠ h ∨
      c.registry.find? (c.registry.resolve a) = none := by
    intro a ha
    refine (hw.resolve_cases hp hr ((HandleSet.has_iff _ _).1 ha)).imp_left fun hlead => ?_
    rw [hlead]
    exact hk
  have hh := Registry.handle_of_find? hr
  cases op with
  | retain y =>
    obtain rfl : y = k := (of_decide_eq_true hop).trans hh
    exact sameAt_retain (.inl hk)
  | release y =>
    obtain rfl : y = k := (of_decide_eq_true hop).trans hh
    exact sameAt_release build (.inl hk)
  | retainAny a => exact sameAt_retain (hname a hop)
  | releaseAny a => exact sameAt_release build (hname a hop)
  | _ => cases hop

/-- References that are taken and given back leave no exception that there was not. -/
theorem within_perform (hw : c.registry.Within g₀) (hop : op.counts r = true) (build : Build) :
    (c.perform build .quiet op).state.registry.Within g₀ := by
  rw [registry_perform]
  cases op with
  | retain _ | retainAny _ => exact (Registry.within_retain _ _).trans hw
  | release _ | releaseAny _ => exact (Registry.within_release _ _).trans hw
  | _ => cases hop

/-- What a call for an exception can end is that exception. -/
theorem ending?_of_counts (hw : c.registry.Within g₀) (hp : g₀.Partitioned)
    (hr : g₀.find? h = some r) (hop : op.counts r = true) (hs : c.ending? op = some s) :
    c.registry.find? h = some s := by
  obtain ⟨y, hgives, hd⟩ := ending?_eq_some_iff.1 hs
  obtain ⟨-, hy, -⟩ := Registry.dying?_eq_some_iff.1 hd
  -- only a reference that is given back ends anything, and it is to this exception
  have hyh : y = h := by
    cases op with
    | release x =>
      obtain rfl := Option.some.inj hgives
      exact (of_decide_eq_true hop).trans (Registry.handle_of_find? hr)
    | releaseAny a =>
      obtain rfl := Option.some.inj hgives
      refine (hw.resolve_cases hp hr ((HandleSet.has_iff _ _).1 hop)).resolve_right fun hnone => ?_
      rw [hnone] at hy
      cases hy
    | retain _ | retainAny _ => cases hgives
    | _ => cases hop
  exact hyh ▸ hy

/-- What is seen of destructors and storage in a call for an exception comes down to what ends. -/
theorem trace_of_counts (hop : op.counts r = true) (build : Build) (c : Context (Heap place))
    (h : Handle) :
    let u := c.perform build .quiet op
    destructions u.trace = (c.ending? op).elim [] (·.ended.calls) ∧
      handedBack u.trace = (c.ending? op).elim [] (fun e => [e.handle]) ∧
      (c.ending? op = none → c.turn h op = .stays) := by
  intro u
  obtain ⟨hdes, hback⟩ := trace_perform build .quiet c op
  have hfree : ∀ y, op ≠ .free y := by
    rintro y rfl
    cases hop
  have hthrown : op.thrown? = none := by
    cases op <;> first | rfl | cases hop
  rw [handsBack_of_ne_free hfree] at hback
  refine ⟨?_, ?_, fun hending => by rw [turn, hthrown, hending]⟩
  · rw [hdes]
    cases c.ending? op <;> rfl
  · rw [hback]
    cases c.ending? op <;> simp

/-- A call for an exception that is alive lets nothing be seen of destructors and storage, or it
ends the exception. -/
theorem perform_of_alive (hw : c.registry.Within g₀) (hp : g₀.Partitioned)
    (hr : g₀.find? h = some r) (hop : op.counts r = true) (hs : c.registry.find? h = some s)
    (build : Build) :
    let u := c.perform build .quiet op
    (Silent u.trace ∧ ∃ s', u.state.registry.find? h = some s' ∧ s'.ended = s.ended) ∨
      (destructions u.trace = s.ended.calls ∧ handedBack u.trace = [h] ∧
        u.state.registry.find? h = none) := by
  intro u
  obtain ⟨hdes, hback, hstays⟩ := trace_of_counts hop build c h
  have hafter : u.state.registry = c.registryAfter op := registry_perform build .quiet c op
  rw [hafter]
  -- either way the trace is read off what ends
  cases hending : c.ending? op with
  | none =>
    rw [hending] at hdes hback
    obtain ⟨s', hs', hcont⟩ := (find?_of_turn_stays (hstays hending)).1 s hs
    refine .inl ⟨⟨hdes, hback⟩, s', hs', ?_⟩
    rw [Record.ended, Record.ended, hcont.handle, hcont.destructor]
  | some e =>
    obtain rfl := Option.some.inj (hs.symm.trans (ending?_of_counts hw hp hr hop hending))
    have hh := Registry.handle_of_find? hs
    rw [hending] at hdes hback
    rw [← hh]
    exact .inr ⟨hdes, hback, (find?_of_turn_ended (turn_eq_ended_iff.2 ⟨hending, rfl⟩)).2⟩

/-- A call for an exception that has ended does nothing of the kind. -/
theorem perform_of_gone (hw : c.registry.Within g₀) (hp : g₀.Partitioned)
    (hr : g₀.find? h = some r) (hop : op.counts r = true) (hgone : c.registry.find? h = none)
    (build : Build) :
    let u := c.perform build .quiet op
    Silent u.trace ∧ u.state.registry.find? h = none := by
  intro u
  obtain ⟨hdes, hback, hstays⟩ := trace_of_counts hop build c h
  have hending : c.ending? op = none := by
    refine Option.eq_none_iff_forall_ne_some.2 fun e he => ?_
    rw [ending?_of_counts hw hp hr hop he] at hgone
    cases hgone
  have hafter : u.state.registry = c.registryAfter op := registry_perform build .quiet c op
  rw [hending] at hdes hback
  rw [hafter]
  exact ⟨⟨hdes, hback⟩, (find?_of_turn_stays (hstays hending)).2 hgone⟩

end Context

/-! ## Schedules -/

/-- The calls for the exception `h` in a schedule, in which each call stands beside the handle of
the exception that it is for. -/
def callsFor (h : Handle) (l : List (Handle × Operation)) : List Operation :=
  (l.filter (·.1 = h)).map Prod.snd

/-- The schedule consists of these calls for each exception, in their order, and of no others. -/
def Interleaves (family : Handle → List Operation) (l : List (Handle × Operation)) : Prop :=
  ∀ h, callsFor h l = family h

theorem callsFor_cons_self (h : Handle) (op : Operation) (l : List (Handle × Operation)) :
    callsFor h ((h, op) :: l) = op :: callsFor h l := by
  simp [callsFor]

theorem callsFor_cons_of_ne {h k : Handle} (hk : k ≠ h) (op : Operation)
    (l : List (Handle × Operation)) : callsFor h ((k, op) :: l) = callsFor h l := by
  simp [callsFor, hk]

/-- The calls for an exception are those that are listed with its handle. -/
theorem mem_callsFor {h : Handle} {op : Operation} {l : List (Handle × Operation)} :
    op ∈ callsFor h l ↔ (h, op) ∈ l := by
  simp [callsFor]

namespace Context

variable {place : Placement}

/-- What calls come to, one after the other: how they end, and what they let others see. -/
def answers (build : Build) (c : Context (Heap place)) :
    List Operation → List (Outcome Reply × List Observation)
  | [] => []
  | op :: l =>
    let u := c.perform build .quiet op
    (u.outcome, u.trace) :: answers build u.state l

/-- What the calls for `h` come to in a schedule. -/
def answersFor (build : Build) (c : Context (Heap place)) (h : Handle) :
    List (Handle × Operation) → List (Outcome Reply × List Observation)
  | [] => []
  | (k, op) :: l =>
    let u := c.perform build .quiet op
    if k = h then (u.outcome, u.trace) :: answersFor build u.state h l
    else answersFor build u.state h l

/-- The context after a schedule. -/
def scheduled (build : Build) (c : Context (Heap place)) (l : List (Handle × Operation)) :
    Context (Heap place) :=
  c.follow build (l.map Prod.snd)

variable {h : Handle} {c c' : Context (Heap place)} {g₀ : Registry} {r s : Record} {build : Build}

/-- As far as one exception is concerned, a schedule is the calls for that exception. -/
theorem SameAt.scheduled (build : Build) (hp : g₀.Partitioned) {l : List (Handle × Operation)}
    (hl : ∀ k op, (k, op) ∈ l → ∃ r, g₀.find? k = some r ∧ op.counts r = true)
    (hw : c.registry.Within g₀) (hw' : c'.registry.Within g₀) (hs : SameAt h c c') :
    SameAt h (c.scheduled build l) (c'.follow build (callsFor h l)) ∧
      c.answersFor build h l = c'.answers build (callsFor h l) := by
  induction l generalizing c c' with
  | nil => exact ⟨hs, rfl⟩
  | cons p l ih =>
    obtain ⟨k, op⟩ := p
    obtain ⟨r, hr, hop⟩ := hl k op List.mem_cons_self
    have hl' := fun k op hmem => hl k op (List.mem_cons_of_mem _ hmem)
    have hnext := within_perform hw hop build
    -- both sides make a call for the exception, and only one a call for another
    by_cases hk : k = h
    · subst hk
      have hu := hs.agree_perform hw hw' hp hr hop build
      obtain ⟨hstate, hanswers⟩ := ih hl' hnext (within_perform hw' hop build) hu.state
      rw [callsFor_cons_self]
      refine ⟨hstate, ?_⟩
      rw [answersFor, answers, if_pos rfl, hu.outcome, hu.trace, hanswers]
    · have hother := (sameAt_perform hw hp hr hop hk build).trans hs
      obtain ⟨hstate, hanswers⟩ := ih hl' hnext hw' hother
      rw [callsFor_cons_of_ne hk]
      refine ⟨hstate, ?_⟩
      rw [answersFor, if_neg hk, hanswers]

/-- Calls for an exception that has ended let nothing be seen of destructors and storage. -/
theorem answers_of_gone (build : Build) (hp : g₀.Partitioned) (hr : g₀.find? h = some r) {l : List Operation}
    (hl : ∀ op ∈ l, op.counts r = true) (hw : c.registry.Within g₀)
    (hgone : c.registry.find? h = none) :
    Silent ((c.answers build l).flatMap Prod.snd) ∧
      (c.follow build l).registry.find? h = none := by
  induction l generalizing c with
  | nil => exact ⟨⟨rfl, rfl⟩, hgone⟩
  | cons op l ih =>
    have hop := hl op List.mem_cons_self
    obtain ⟨⟨hdes, hback⟩, hafter⟩ := perform_of_gone hw hp hr hop hgone build
    obtain ⟨⟨hdes', hback'⟩, hlast⟩ := ih (fun op hmem => hl op (List.mem_cons_of_mem _ hmem))
      (within_perform hw hop build) hafter
    refine ⟨⟨?_, ?_⟩, hlast⟩
    · rw [answers, List.flatMap_cons, destructions_append, hdes, hdes', List.nil_append]
    · rw [answers, List.flatMap_cons, handedBack_append, hback, hback', List.nil_append]

/-- Calls for an exception that is alive leave it alive, or they end it once. -/
theorem answers_of_alive (build : Build) (hp : g₀.Partitioned) (hr : g₀.find? h = some r) {l : List Operation}
    (hl : ∀ op ∈ l, op.counts r = true) (hw : c.registry.Within g₀)
    (hs : c.registry.find? h = some s) :
    let t := (c.answers build l).flatMap Prod.snd
    (Silent t ∧ (c.follow build l).registry.contains h = true) ∨
      (destructions t = s.ended.calls ∧ handedBack t = [h] ∧
        (c.follow build l).registry.contains h = false) := by
  induction l generalizing c s with
  | nil => exact .inl ⟨⟨rfl, rfl⟩, (Registry.contains_iff _ _).2 ⟨s, hs⟩⟩
  | cons op l ih =>
    have hop := hl op List.mem_cons_self
    have hl' := fun op hmem => hl op (List.mem_cons_of_mem _ hmem)
    have hnext := within_perform hw hop build
    simp only [answers, List.flatMap_cons, destructions_append, handedBack_append, Silent]
    rcases perform_of_alive hw hp hr hop hs build with
      ⟨⟨hdes, hback⟩, s', hs', hended⟩ | ⟨hdes, hback, hgone⟩
    · rw [hdes, hback, ← hended, List.nil_append, List.nil_append]
      exact ih hl' hnext hs'
    · -- the rest of the calls finds nothing to give back
      obtain ⟨⟨hdes', hback'⟩, hlast⟩ := answers_of_gone build hp hr hl' hnext hgone
      refine .inr ⟨?_, ?_, (Registry.contains_eq_false_iff _ _).2 hlast⟩
      · rw [hdes, hdes', List.append_nil]
      · rw [hback, hback', List.append_nil]

/-- Reference traffic on different exceptions commutes.

Let no two live exceptions share a name, and let there be calls for some of them, each of which
takes or gives back a reference to its exception under a name of it. In whatever order the calls
for different exceptions are interleaved, the same is alive in the end, with the same records and
in the same blocks, and nothing else of the context depends on it either. The calls for each
exception end alike and let the same be seen. They leave the exception alive, and nothing is seen
of its destructor and its storage, or they end it, and then its destructor is called once and its
storage handed back once. -/
theorem reference_traffic_commutes (build : Build) (c : Context (Heap place))
    (family : Handle → List Operation) (l l' : List (Handle × Operation))
    (hp : c.registry.Partitioned)
    (hfamily : ∀ h, ∀ op ∈ family h, ∃ r, c.registry.find? h = some r ∧ op.counts r = true)
    (hl : Interleaves family l) (hl' : Interleaves family l') :
    let s := c.scheduled build l
    let s' := c.scheduled build l'
    s = { s' with allocator := s.allocator } ∧ s.allocator.live = s'.allocator.live ∧
      ∀ h, c.answersFor build h l = c.answersFor build h l' ∧
        ∀ r, c.registry.find? h = some r →
          let t := (c.answersFor build h l).flatMap Prod.snd
          (destructions t = [] ∧ handedBack t = [] ∧ s.registry.contains h = true) ∨
            (destructions t = r.ended.calls ∧ handedBack t = [h] ∧
              s.registry.contains h = false) := by
  intro s s'
  have hcalls : ∀ m, Interleaves family m →
      ∀ k op, (k, op) ∈ m → ∃ r, c.registry.find? k = some r ∧ op.counts r = true := by
    intro m hm k op hmem
    exact hfamily k op (hm k ▸ mem_callsFor.2 hmem)
  have hw := Registry.Within.refl c.registry
  -- both schedules are compared with the calls for one exception alone
  have hsolo : ∀ m, Interleaves family m → ∀ h,
      SameAt h (c.scheduled build m) (c.follow build (family h)) ∧
        c.answersFor build h m = c.answers build (family h) := by
    intro m hm h
    have hscheduled := SameAt.scheduled build hp (hcalls m hm) hw hw (.refl h c)
    rwa [hm h] at hscheduled
  have hsame : ∀ h, SameAt h s s' := fun h => (hsolo l hl h).1.trans (hsolo l' hl' h).1.symm
  have hregistry : s.registry = s'.registry := Registry.ext_find? fun h => (hsame h).record
  refine ⟨?_, Heap.live_ext fun h => (hsame h).block, fun h => ⟨?_, fun r hr => ?_⟩⟩
  · have hrest := (hsame Handle.null).rest
    rw [hregistry] at hrest
    exact hrest
  · exact (hsolo l hl h).2.trans (hsolo l' hl' h).2.symm
  · obtain ⟨hstate, hanswers⟩ := hsolo l hl h
    have hcounts : ∀ op ∈ family h, op.counts r = true := by
      intro op hop
      obtain ⟨r', hr', hop'⟩ := hfamily h op hop
      obtain rfl := Option.some.inj (hr.symm.trans hr')
      exact hop'
    rw [hanswers, hstate.contains_eq]
    rcases answers_of_alive build hp hr hcounts hw hr with ⟨⟨hdes, hback⟩, hlive⟩ | hend
    · exact .inl ⟨hdes, hback, hlive⟩
    · exact .inr hend

/-- Two exceptions, one of them under the name of its base, and calls for both that go on after
they have ended. The blocks are handed back in the other order, but they are the same. -/
theorem reference_traffic_commutes_two :
    let base : TypeTag := ⟨1, by decide⟩
    let derived : TypeTag := ⟨2, by decide⟩
    let types : Hierarchy :=
      ⟨#[⟨"Base", .classType []⟩, ⟨"Derived", .classType [⟨base, 8⟩]⟩], []⟩
    let c := (fresh types (Heap.empty : Heap (.upward 4096))).follow .checked
      [.allocate 24, .allocate 8, .setSink 0, .throw ⟨4096⟩ (some derived) (some ⟨1⟩),
        .matchClause [base], .beginCatch ⟨4104⟩, .throw ⟨4144⟩ none (some ⟨2⟩), .retain ⟨4144⟩]
    let l : List (Handle × Operation) :=
      [(⟨4096⟩, .retainAny ⟨4104⟩), (⟨4144⟩, .release ⟨4144⟩), (⟨4096⟩, .release ⟨4096⟩),
        (⟨4144⟩, .retainAny ⟨4144⟩), (⟨4096⟩, .releaseAny ⟨4104⟩), (⟨4096⟩, .releaseAny ⟨4104⟩)]
    let l' : List (Handle × Operation) :=
      [(⟨4096⟩, .retainAny ⟨4104⟩), (⟨4096⟩, .release ⟨4096⟩), (⟨4096⟩, .releaseAny ⟨4104⟩),
        (⟨4144⟩, .release ⟨4144⟩), (⟨4096⟩, .releaseAny ⟨4104⟩), (⟨4144⟩, .retainAny ⟨4144⟩)]
    (c.scheduled .checked l).allocator.calls ≠ (c.scheduled .checked l').allocator.calls ∧
      c.scheduled .checked l =
        { c.scheduled .checked l' with allocator := (c.scheduled .checked l).allocator } ∧
      (c.scheduled .checked l).allocator.live = (c.scheduled .checked l').allocator.live ∧
      c.answersFor .checked ⟨4096⟩ l = c.answersFor .checked ⟨4096⟩ l' ∧
      destructions ((c.answersFor .checked ⟨4096⟩ l).flatMap Prod.snd) = [(1, ⟨4096⟩)] := by
  intro base derived types c l l'
  have hnull : c.registry.All Record.NullIsOwn :=
    nullIsOwn_run .checked (fun k r hr => by cases hr) _
  have hp : c.registry.Partitioned :=
    (Registry.namesResolve_iff_partitioned hnull).1 (by decide +kernel)
  have hcalls : ∀ p ∈ l, (c.registry.find? p.1).any p.2.counts = true := by decide +kernel
  have hl' : ∀ h, callsFor h l' = callsFor h l := by
    intro h
    by_cases h₁ : (⟨4096⟩ : Handle) = h
    · subst h₁
      decide
    by_cases h₂ : (⟨4144⟩ : Handle) = h
    · subst h₂
      decide
    · simp [callsFor, l, l', h₁, h₂]
  have hfamily : ∀ h, ∀ op ∈ callsFor h l,
      ∃ r, c.registry.find? h = some r ∧ op.counts r = true := by
    intro h op hop
    exact (Option.any_eq_true _ _).1 (hcalls (h, op) (mem_callsFor.1 hop))
  obtain ⟨hstate, hlive, hanswers⟩ :=
    reference_traffic_commutes .checked c (callsFor · l) l l' hp hfamily (fun h => rfl) hl'
  exact ⟨by decide +kernel, hstate, hlive, (hanswers ⟨4096⟩).1, by decide +kernel⟩

end Context

end ExceptionLifetime
