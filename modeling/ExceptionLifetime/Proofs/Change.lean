/-
What is left of an exception after a change of the live ones.

A change concerns one exception at most. Of that one it leaves another record, or
none, and every other exception it leaves alone. All the ways in which one record
can follow another are listed here, so that what is to hold of records throughout
a run is checked once for each way, and no change has to be opened for it.

It follows that a change enters one exception at most and ends one at most. An
exception that it neither enters nor ends stays the one that was thrown: it keeps
its handle, its type and its destructor, and the names it goes by.
-/
import ExceptionLifetime.Proofs.Call

set_option autoImplicit false

namespace ExceptionLifetime

/-- The record `r'` is of the exception that `r` is of, at a later time. -/
structure Record.Continues (r' r : Record) : Prop where
  handle : r'.handle = r.handle
  type : r'.type = r.type
  destructor : r'.destructor = r.destructor
  aliases : ∀ a ∈ r.aliases, a ∈ r'.aliases

namespace Record

theorem Continues.refl (r : Record) : r.Continues r := ⟨rfl, rfl, rfl, fun _ ha => ha⟩

/-- What continues a continuation continues the first: along a run, names are only added. -/
theorem Continues.trans {r r' r'' : Record} (h' : r''.Continues r') (h : r'.Continues r) :
    r''.Continues r :=
  ⟨h'.handle.trans h.handle, h'.type.trans h.type, h'.destructor.trans h.destructor,
    fun a ha => h'.aliases a (h.aliases a ha)⟩

/-! ## What becomes of a record -/

/-- The record with one more reference, unless it is of the null handle: nobody takes a
reference to that. -/
def held (r : Record) : Record := if r.handle.isNull then r else r.retained

/-- What is left of the exception when a reference is given back. -/
def relieved (r : Record) : Option Record := if r.handle.isNull then some r else r.afterRelease

/-- A handle that is not null counts the reference. -/
theorem held_of_ne_null {r : Record} (hnull : r.handle ≠ Handle.null) : r.held = r.retained := by
  simp [held, hnull]

/-- There is no reference to null, so nothing is counted. -/
theorem held_of_null {r : Record} (hnull : r.handle = Handle.null) : r.held = r := by
  simp [held, hnull]

/-- Holding a record changes its count and nothing else. The fields are listed one by one for
`simp`. -/
@[simp] theorem handle_held (r : Record) : r.held.handle = r.handle := by
  unfold held
  split <;> rfl

@[simp] theorem aliases_held (r : Record) : r.held.aliases = r.aliases := by
  unfold held
  split <;> rfl

@[simp] theorem type_held (r : Record) : r.held.type = r.type := by
  unfold held
  split <;> rfl

@[simp] theorem destructor_held (r : Record) : r.held.destructor = r.destructor := by
  unfold held
  split <;> rfl

@[simp] theorem caught_held (r : Record) : r.held.caught = r.caught := by
  unfold held
  split <;> rfl

@[simp] theorem rethrown_held (r : Record) : r.held.rethrown = r.rethrown := by
  unfold held
  split <;> rfl

/-- What is left when a reference is given back differs in the count only. -/
theorem fields_relieved {r r' : Record} (h : r.relieved = some r') :
    r'.handle = r.handle ∧ r'.aliases = r.aliases ∧ r'.type = r.type ∧
      r'.destructor = r.destructor ∧ r'.caught = r.caught ∧ r'.rethrown = r.rethrown := by
  unfold relieved at h
  split at h
  · cases h
    exact ⟨rfl, rfl, rfl, rfl, rfl, rfl⟩
  · obtain ⟨hhandle, haliases, htype, hdes, hcaught, hmark, -⟩ := afterRelease_eq_some h
    exact ⟨hhandle, haliases, htype, hdes, hcaught, hmark⟩

/-- A record goes with a reference exactly if it is the last one. -/
theorem relieved_eq_none_iff (r : Record) :
    r.relieved = none ↔ r.handle ≠ Handle.null ∧ r.isLast = true := by
  unfold relieved
  split
  next hnull => simp [(Handle.isNull_iff _).1 hnull]
  next hnull =>
    rw [Bool.not_eq_true, Handle.isNull_eq_false_iff] at hnull
    rw [afterRelease_eq_none_iff, and_iff_right hnull]

end Record

/-- The exception that a change concerns. -/
def Change.subject? : Change → Option Handle
  | .nothing => none
  | .thrown r => some r.handle
  | .caught h | .rethrown h | .retained h | .released h => some h
  | .named owner _ => some owner

/-- What a change can leave of the exception whose record was `r`. -/
inductive Record.Becomes (r : Record) : Change → Option Record → Prop
  /-- The change concerns another exception, or none. -/
  | apart {ch : Change} (h : ch.subject? ≠ some r.handle) : Becomes r ch (some r)
  /-- Another exception with the same handle was thrown. -/
  | displaced {s : Record} (h : s.handle = r.handle) : Becomes r (.thrown s) (some s)
  | caught : Becomes r (.caught r.handle) (some r.nowCaught.held)
  | rethrown : Becomes r (.rethrown r.handle) (some r.nowRethrown)
  | retained : Becomes r (.retained r.handle) (some r.held)
  | released {o : Option Record} (h : r.relieved = o) : Becomes r (.released r.handle) o
  | named {a : Handle} (h : a ≠ Handle.null) :
    Becomes r (.named r.handle a) (some (r.withAlias a))
  /-- A name that is null or leads elsewhere is not given. -/
  | refused {a : Handle} : Becomes r (.named r.handle a) (some r)

namespace Registry

/-- All live exceptions are such. -/
def All (P : Record → Prop) (g : Registry) : Prop := ∀ k r, g.find? k = some r → P r

/-- A record that is changed stays. -/
theorem contains_modify {f : Record → Record} (hf : ∀ r, (f r).handle = r.handle) (g : Registry)
    (h k : Handle) : (g.modify h f).contains k = g.contains k := by
  unfold contains
  rw [find?_modify hf]
  split <;> simp

/-- A reference more ends no exception and begins none. -/
theorem contains_retain (g : Registry) (h k : Handle) :
    (g.retain h).contains k = g.contains k := by
  unfold retain
  split
  · rfl
  · exact contains_modify (f := Record.retained) (fun _ => rfl) g h k

/-- To give a name neither begins nor ends an exception. -/
theorem contains_addAlias {g g' : Registry} {owner a : Handle} (h : g.addAlias owner a = .ok g')
    (k : Handle) : g'.contains k = g.contains k := by
  rcases addAlias_eq_ok h with rfl | ⟨-, -, rfl⟩
  · rfl
  · exact contains_modify (f := (·.withAlias a)) (fun _ => rfl) g owner k

/-- Taking a reference, to whatever handle. -/
theorem find?_retain_eq (g : Registry) (h k : Handle) :
    (g.retain h).find? k = if h = k then (g.find? k).map Record.held else g.find? k := by
  -- no reference is to null, and a record under null does not count any
  by_cases hnull : h = Handle.null
  · rw [hnull, retain_null]
    split
    next hk =>
      cases hr : g.find? k with
      | none => rfl
      | some r => rw [Option.map_some, Record.held_of_null ((handle_of_find? hr).trans hk.symm)]
    · rfl
  · rw [find?_retain hnull]
    split
    next hk =>
      cases hr : g.find? k with
      | none => rfl
      | some r =>
        have hr' : r.handle ≠ Handle.null := by
          rw [handle_of_find? hr, ← hk]
          exact hnull
        rw [Option.map_some, Option.map_some, Record.held_of_ne_null hr']
    · rfl

/-- Giving a reference back, to whatever handle. -/
theorem find?_release_eq (g : Registry) (h k : Handle) :
    (g.release h).find? k = if h = k then (g.find? k).bind Record.relieved else g.find? k := by
  by_cases hnull : h = Handle.null
  · rw [hnull, release_null]
    split
    next hk =>
      cases hr : g.find? k with
      | none => rfl
      | some r => simp [Record.relieved, handle_of_find? hr, hk.symm]
    · rfl
  · rw [find?_release hnull]
    split
    next hk =>
      cases hr : g.find? k with
      | none => rfl
      | some r => simp [Record.relieved, handle_of_find? hr, hk.symm, hnull]
    · rfl

end Registry

/-! ## Changes -/

namespace Change

variable {g : Registry} {ch : Change} {k : Handle}

/-- A change leaves alone what it does not concern. -/
theorem find?_on_of_ne (hk : ch.subject? ≠ some k) : (ch.on g).find? k = g.find? k := by
  -- every case asks whether the handle of the change is this one
  have hother : ∀ h, some h ≠ some k → h ≠ k := fun h hne heq => hne (congrArg some heq)
  cases ch with
  | nothing => rfl
  | thrown r => rw [on, Registry.find?_insert, if_neg (hother _ hk)]
  | caught h =>
    rw [on, Registry.find?_retain_eq, if_neg (hother _ hk),
      Registry.find?_modify (f := Record.nowCaught) fun _ => rfl, if_neg (hother _ hk)]
  | rethrown h =>
    rw [on, Registry.find?_modify (f := Record.nowRethrown) fun _ => rfl, if_neg (hother _ hk)]
  | retained h => rw [on, Registry.find?_retain_eq, if_neg (hother _ hk)]
  | released h => rw [on, Registry.find?_release_eq, if_neg (hother _ hk)]
  | named owner a =>
    rw [on]
    split
    next g' hg' =>
      rcases Registry.addAlias_eq_ok hg' with rfl | ⟨-, -, rfl⟩
      · rfl
      · rw [Registry.find?_named, if_neg (hother _ hk)]
    · rfl

/-- All but the exception that a change concerns are as before. -/
theorem erase_on (hs : ch.subject? = some k) : (ch.on g).erase k = g.erase k := by
  apply Registry.ext_find?
  intro j
  rw [Registry.find?_erase, Registry.find?_erase]
  by_cases hj : k = j
  · rw [if_pos hj, if_pos hj]
  · rw [if_neg hj, if_neg hj, find?_on_of_ne]
    rw [hs]
    exact fun heq => hj (Option.some.inj heq)

/-- What is alive before a change becomes one of the things that are listed. -/
theorem becomes_on {r : Record} (hr : g.find? k = some r) (ch : Change) :
    r.Becomes ch ((ch.on g).find? k) := by
  obtain rfl := Registry.handle_of_find? hr
  -- a change concerns one exception, so for all others there is nothing to look up
  by_cases hk : ch.subject? = some r.handle
  case neg =>
    rw [find?_on_of_ne hk, hr]
    exact .apart hk
  cases ch with
  | nothing => cases hk
  | thrown s =>
    have hs : s.handle = r.handle := Option.some.inj hk
    rw [on, Registry.find?_insert, if_pos hs]
    exact .displaced hs
  | caught h =>
    obtain rfl : h = r.handle := Option.some.inj hk
    rw [on, Registry.find?_retain_eq, if_pos rfl,
      Registry.find?_modify (f := Record.nowCaught) fun _ => rfl, if_pos rfl, hr]
    exact .caught
  | rethrown h =>
    obtain rfl : h = r.handle := Option.some.inj hk
    rw [on, Registry.find?_modify (f := Record.nowRethrown) fun _ => rfl, if_pos rfl, hr]
    exact .rethrown
  | retained h =>
    obtain rfl : h = r.handle := Option.some.inj hk
    rw [on, Registry.find?_retain_eq, if_pos rfl, hr]
    exact .retained
  | released h =>
    obtain rfl : h = r.handle := Option.some.inj hk
    rw [on, Registry.find?_release_eq, if_pos rfl, hr]
    exact .released rfl
  | named owner a =>
    obtain rfl : owner = r.handle := Option.some.inj hk
    rw [on]
    split
    next g' hg' =>
      rcases Registry.addAlias_eq_ok hg' with rfl | ⟨ha, -, rfl⟩
      · rw [hr]
        exact .refused
      · rw [Registry.find?_named, if_pos rfl, hr]
        exact .named ha
    · rw [hr]
      exact .refused

/-- What was not alive before a change and is alive after it has just been thrown. -/
theorem eq_thrown_of_find?_none {r' : Record} (hnone : g.find? k = none)
    (hr' : (ch.on g).find? k = some r') : ch = .thrown r' := by
  by_cases hk : ch.subject? = some k
  case neg =>
    rw [find?_on_of_ne hk, hnone] at hr'
    cases hr'
  -- all changes but a throw map what is there, and nothing is
  cases ch with
  | nothing => cases hk
  | thrown s =>
    rw [on, Registry.find?_insert, if_pos (Option.some.inj hk)] at hr'
    cases hr'
    rfl
  | caught h =>
    rw [on, Registry.find?_retain_eq, Registry.find?_modify (f := Record.nowCaught) fun _ => rfl,
      hnone] at hr'
    simp at hr'
  | rethrown h =>
    rw [on, Registry.find?_modify (f := Record.nowRethrown) fun _ => rfl, hnone] at hr'
    simp at hr'
  | retained h =>
    rw [on, Registry.find?_retain_eq, hnone] at hr'
    simp at hr'
  | released h =>
    rw [on, Registry.find?_release_eq, hnone] at hr'
    simp at hr'
  | named owner a =>
    rw [on] at hr'
    split at hr'
    next g' hg' =>
      rcases Registry.addAlias_eq_ok hg' with rfl | ⟨-, -, rfl⟩
      · rw [hnone] at hr'
        cases hr'
      · rw [Registry.find?_named, hnone] at hr'
        simp at hr'
    · rw [hnone] at hr'
      cases hr'

/-- What is alive after a change has just been thrown or comes from what was alive before. -/
theorem becomes_of_find?_on {r' : Record} (hr' : (ch.on g).find? k = some r') :
    ch = .thrown r' ∨ ∃ r, g.find? k = some r ∧ r.Becomes ch (some r') := by
  cases hr : g.find? k with
  | none => exact .inl (eq_thrown_of_find?_none hr hr')
  | some r =>
    have hb := becomes_on hr ch
    rw [hr'] at hb
    exact .inr ⟨r, rfl, hb⟩

/-- A record that was not thrown just now is of the exception that was there before. -/
theorem continues_of_becomes {r r' : Record} (hb : r.Becomes ch (some r')) :
    ch = .thrown r' ∨ r'.Continues r := by
  cases hb with
  | apart _ | refused => exact .inr (.refl r)
  | displaced _ => exact .inl rfl
  | caught =>
    exact .inr ⟨r.nowCaught.handle_held, r.nowCaught.type_held, r.nowCaught.destructor_held,
      fun a ha => r.nowCaught.aliases_held.symm ▸ ha⟩
  | rethrown => exact .inr ⟨rfl, rfl, rfl, fun _ ha => ha⟩
  | retained =>
    exact .inr ⟨r.handle_held, r.type_held, r.destructor_held,
      fun a ha => r.aliases_held.symm ▸ ha⟩
  | released h =>
    obtain ⟨hhandle, haliases, htype, hdes, -⟩ := Record.fields_relieved h
    exact .inr ⟨hhandle, htype, hdes, fun a ha => haliases ▸ ha⟩
  | named _ =>
    exact .inr ⟨rfl, rfl, rfl, fun b hb => (HandleSet.mem_insert r.aliases b _).2 (.inr hb)⟩

/-- What is alive after a change has just been thrown or was alive before. -/
theorem continues_on {r' : Record} (hr' : (ch.on g).find? k = some r') :
    ch = .thrown r' ∨ ∃ r, g.find? k = some r ∧ r'.Continues r := by
  rcases becomes_of_find?_on hr' with hthrown | ⟨r, hr, hb⟩
  · exact .inl hthrown
  · exact (continues_of_becomes hb).imp id fun hcont => ⟨r, hr, hcont⟩

/-- An exception ends by giving back its last reference, and by nothing else. -/
theorem dying?_of_find?_none {r : Record} (hr : g.find? k = some r)
    (hgone : (ch.on g).find? k = none) : ch = .released k ∧ g.dying? k = some r := by
  have hb := becomes_on hr ch
  rw [hgone] at hb
  -- of all that can become of an exception, only this leaves nothing
  cases hb with
  | released hlast =>
    have hk := Registry.handle_of_find? hr
    obtain ⟨hnull, hlast⟩ := (Record.relieved_eq_none_iff r).1 hlast
    exact ⟨by rw [hk], Registry.dying?_eq_some_iff.2 ⟨hk ▸ hnull, hr, hlast⟩⟩

/-- What holds of a record that was thrown just now, and passes from a record to what becomes of
it, goes on to hold of all live exceptions. -/
theorem all_on {P : Record → Prop} (hall : g.All P) (hthrown : ∀ s, ch = .thrown s → P s)
    (hstep : ∀ r r', P r → r.Becomes ch (some r') → ch ≠ .thrown r' → P r') : (ch.on g).All P := by
  intro k r' hr'
  rcases becomes_of_find?_on hr' with hnew | ⟨r, hr, hb⟩
  · exact hthrown r' hnew
  · by_cases hnew : ch = .thrown r'
    · exact hthrown r' hnew
    · exact hstep r r' (hall k r hr) hb hnew

/-- No change makes two exceptions share a name, as long as throws name nobody. -/
theorem partitioned_on (hp : g.Partitioned)
    (hnew : ∀ r, ch = .thrown r →
      ∃ type d, r = .fresh r.handle type d ∧ g.IsUnknown r.handle) :
    (ch.on g).Partitioned := by
  -- names come with throws and with aliases only
  cases ch with
  | nothing => exact hp
  | thrown r =>
    obtain ⟨type, d, hr, hfree⟩ := hnew r rfl
    rw [on, hr]
    exact hp.insert_fresh hfree type d
  | caught h =>
    exact (hp.modify (f := Record.nowCaught) (fun _ => rfl) (fun _ => rfl) h).retain h
  | rethrown h => exact hp.modify (f := Record.nowRethrown) (fun _ => rfl) (fun _ => rfl) h
  | retained h => exact hp.retain h
  | released h => exact hp.release h
  | named owner a =>
    rw [on]
    split
    next g' hg' => exact hp.addAlias hg'
    · exact hp

end Change

/-! ## Calls -/

namespace Context

variable {α : Type}

/-- What a call does to the live exceptions can be read off the call. -/
theorem change_eq_iff (c : Context α) (op : Operation) :
    (∀ r, c.change op = .thrown r ↔ op.thrown? = some r) ∧
      (∀ h, c.change op = .caught h ↔ c.catches? op = some h) ∧
      (∀ h, c.change op = .rethrown h ↔ c.rethrows? op = some h) ∧
      ∀ h, c.change op = .released h ↔ c.givesBack? op = some h := by
  cases op with
  | throwIndexed h type table i =>
    rw [change]
    cases (Operation.throwIndexed h type table i).thrown? <;>
      simp [catches?, rethrows?, givesBack?]
  | rethrow =>
    rw [change, rethrows?]
    cases c.scopes <;> simp [Operation.thrown?, catches?, givesBack?]
  | rethrowCaptured h =>
    rw [change, rethrows?]
    split <;> simp [Operation.thrown?, catches?, givesBack?]
  | matchClause clauses =>
    rw [change]
    split <;> simp [Operation.thrown?, catches?, rethrows?, givesBack?]
  | _ => simp [change, Operation.thrown?, catches?, rethrows?, givesBack?]

/-- The four kinds of change are told by what an operation throws, catches, rethrows and gives back.
These are the parts of `change_eq_iff` by name. -/
theorem change_eq_thrown_iff {c : Context α} {op : Operation} {r : Record} :
    c.change op = .thrown r ↔ op.thrown? = some r :=
  (c.change_eq_iff op).1 r

/-- What a call throws starts anew. -/
theorem fresh_of_change {c : Context α} {op : Operation} {r : Record}
    (hch : c.change op = .thrown r) : ∃ type d, r = .fresh r.handle type d := by
  obtain ⟨type, d, hr, -⟩ := Operation.thrown?_eq_some (change_eq_thrown_iff.1 hch)
  exact ⟨type, d, hr⟩

theorem change_eq_caught_iff {c : Context α} {op : Operation} {h : Handle} :
    c.change op = .caught h ↔ c.catches? op = some h :=
  (c.change_eq_iff op).2.1 h

theorem change_eq_rethrown_iff {c : Context α} {op : Operation} {h : Handle} :
    c.change op = .rethrown h ↔ c.rethrows? op = some h :=
  (c.change_eq_iff op).2.2.1 h

theorem change_eq_released_iff {c : Context α} {op : Operation} {h : Handle} :
    c.change op = .released h ↔ c.givesBack? op = some h :=
  (c.change_eq_iff op).2.2.2 h

/-- An operation that throws enters its record and does nothing else to the registry. -/
theorem registryAfter_of_thrown? {c : Context α} {op : Operation} {r : Record}
    (h : op.thrown? = some r) : c.registryAfter op = c.registry.insert r := by
  rw [registryAfter, change_eq_thrown_iff.2 h, Change.on]

/-- An operation ends the exception to which it gives back the last reference. -/
theorem ending?_eq_some_iff {c : Context α} {op : Operation} {r : Record} :
    c.ending? op = some r ↔ ∃ h, c.givesBack? op = some h ∧ c.registry.dying? h = some r := by
  rw [ending?, Option.bind_eq_some_iff]

/-- The exception that ends during a call is not alive after it, and all others are as they
were. -/
theorem registryAfter_of_ending? {c : Context α} {op : Operation} {r : Record}
    (h : c.ending? op = some r) : c.registryAfter op = c.registry.erase r.handle := by
  obtain ⟨k, hk, hd⟩ := ending?_eq_some_iff.1 h
  rw [registryAfter, change_eq_released_iff.2 hk, Change.on, Registry.release_of_dying? hd]

/-- An exception is alive until a call ends it. -/
theorem ending?_of_find?_none {c : Context α} {op : Operation} {k : Handle} {r : Record}
    (hr : c.registry.find? k = some r) (hgone : (c.registryAfter op).find? k = none) :
    c.ending? op = some r := by
  obtain ⟨hch, hd⟩ := Change.dying?_of_find?_none hr hgone
  exact ending?_eq_some_iff.2 ⟨k, change_eq_released_iff.1 hch, hd⟩

/-- An exception ends in a call if and only if the call gives back its last reference while
it is not rethrown. -/
theorem find?_registryAfter_eq_none_iff {c : Context α} {op : Operation} {h : Handle} {r : Record}
    (hr : c.registry.find? h = some r) :
    (c.registryAfter op).find? h = none ↔
      c.givesBack? op = some h ∧ h ≠ Handle.null ∧ r.refcount.toNat = 1 ∧ r.rethrown = false := by
  constructor
  · intro hgone
    obtain ⟨hch, hd⟩ := Change.dying?_of_find?_none hr hgone
    obtain ⟨hnull, -, hlast⟩ := Registry.dying?_eq_some_iff.1 hd
    exact ⟨change_eq_released_iff.1 hch, hnull, (Record.isLast_iff r).1 hlast⟩
  · rintro ⟨hgives, hnull, hlast⟩
    have hd := Registry.dying?_eq_some_iff.2 ⟨hnull, hr, (Record.isLast_iff r).2 hlast⟩
    rw [registryAfter_of_ending? (ending?_eq_some_iff.2 ⟨h, hgives, hd⟩), Registry.find?_erase,
      if_pos (Registry.handle_of_find? hr)]

/-- What is alive after a call was thrown by it or was alive before. -/
theorem continues_registryAfter {c : Context α} {op : Operation} {k : Handle} {r' : Record}
    (hr' : (c.registryAfter op).find? k = some r') :
    op.thrown? = some r' ∨ ∃ r, c.registry.find? k = some r ∧ r'.Continues r := by
  rcases Change.continues_on hr' with h | h
  · exact .inl (change_eq_thrown_iff.1 h)
  · exact .inr h

end Context

end ExceptionLifetime
