/-
The live exceptions under the operations of a context.

Every operation changes the record of one exception at most: it enters it,
forgets it, or changes a field of it. The changes are stated here by what a
look-up finds afterwards, so that nothing further on has to open a registry.

Two views of a registry are built on look-ups. The one counts references, and
an exception that is not alive counts as one without references: giving back
the last reference and forgetting the exception are then the same to the
counter. The other says that no handle goes to two exceptions, and what that
means for where a handle leads.
-/
import ExceptionLifetime.Registry.Basic

set_option autoImplicit false

namespace ExceptionLifetime

theorem Handle.isNull_eq_false_iff (h : Handle) : h.isNull = false ↔ h ≠ Handle.null := by
  rw [← Bool.not_eq_true, Handle.isNull_iff]

/-! ## Records -/

namespace Record

/-- What is left of an exception to which a reference is given back. A count of
nothing stays, and without references only a rethrow keeps the exception. -/
def afterRelease (r : Record) : Option Record :=
  if r.refcount.isZero then some r else if r.released.isDead then none else some r.released

/-- The next reference that is given back ends the exception. -/
def isLast (r : Record) : Bool := !r.refcount.isZero && r.released.isDead

theorem isZero_refcount (r : Record) : r.refcount.isZero = true ↔ r.refcount.toNat = 0 := by
  simp [Count.isZero]

/-- One reference is the last one, unless the exception is on its way. -/
theorem isLast_iff (r : Record) :
    r.isLast = true ↔ r.refcount.toNat = 1 ∧ r.rethrown = false := by
  have hzero : r.released.refcount.isZero = true ↔ r.refcount.toNat - 1 = 0 := by
    rw [isZero_refcount]
    rfl
  have hkept : r.released.rethrown = r.rethrown := rfl
  rw [isLast, isDead, hkept, Bool.and_eq_true, Bool.and_eq_true, hzero, Bool.not_eq_true',
    Bool.not_eq_true', ← Bool.not_eq_true, isZero_refcount, ← and_assoc]
  -- a count is not zero and one less is zero
  apply and_congr_left
  intro _
  omega

/-- A record is gone after its last reference. -/
theorem afterRelease_eq_none_iff (r : Record) : r.afterRelease = none ↔ r.isLast = true := by
  unfold afterRelease isLast
  cases r.refcount.isZero <;> cases r.released.isDead <;> simp

/-- What outlives the release is the same exception. -/
theorem afterRelease_eq_some {r r' : Record} (h : r.afterRelease = some r') :
    r'.handle = r.handle ∧ r'.aliases = r.aliases ∧ r'.type = r.type ∧
      r'.destructor = r.destructor ∧ r'.caught = r.caught ∧ r'.rethrown = r.rethrown ∧
      r'.refcount.toNat = r.refcount.toNat - 1 := by
  unfold afterRelease at h
  split at h
  next hz =>
    have := (isZero_refcount r).1 hz
    cases h
    exact ⟨rfl, rfl, rfl, rfl, rfl, rfl, by omega⟩
  next =>
    split at h
    · cases h
    · cases h
      exact ⟨rfl, rfl, rfl, rfl, rfl, rfl, rfl⟩

end Record

namespace Registry

/-! ## Changing one record -/

/-- The registry in which the record of `h`, if there is one, is changed by `f`. -/
def modify (g : Registry) (h : Handle) (f : Record → Record) : Registry :=
  match g.find? h with
  | some r => g.insert (f r)
  | none => g

/-- A change of one record is seen under its own handle only. -/
theorem find?_modify {f : Record → Record} (hf : ∀ r, (f r).handle = r.handle) (g : Registry)
    (h k : Handle) : (g.modify h f).find? k = if h = k then (g.find? k).map f else g.find? k := by
  unfold modify
  split
  next r hr =>
    rw [find?_insert, hf, handle_of_find? hr]
    by_cases hk : h = k
    · subst hk
      simp [hr]
    · simp [hk]
  next hr =>
    by_cases hk : h = k
    · subst hk
      simp [hr]
    · simp [hk]

/-- To change a record is to enter it anew. -/
theorem modify_of_find? {g : Registry} {h : Handle} {r : Record} (hr : g.find? h = some r)
    (f : Record → Record) : g.modify h f = g.insert (f r) := by
  rw [modify, hr]

/-- What is not alive is not changed. -/
theorem modify_of_find?_none {g : Registry} {h : Handle} (hr : g.find? h = none)
    (f : Record → Record) : g.modify h f = g := by
  rw [modify, hr]

/-- Entering what is there already changes nothing. -/
theorem insert_of_find? {g : Registry} {r : Record} (hr : g.find? r.handle = some r) :
    g.insert r = g := by
  apply ext_find?
  intro k
  rw [find?_insert]
  by_cases hk : r.handle = k
  · rw [if_pos hk, ← hk, hr]
  · rw [if_neg hk]

/-- Entering an exception and forgetting it again changes nothing, if it was not there before. -/
theorem erase_insert {g : Registry} {r : Record} {h : Handle} (hr : r.handle = h)
    (hg : g.find? h = none) : (g.insert r).erase h = g := by
  apply ext_find?
  intro k
  rw [find?_erase, find?_insert, hr]
  by_cases hk : h = k
  · rw [if_pos hk, ← hk, hg]
  · rw [if_neg hk, if_neg hk]

/-- Of two records of one exception the later one stays. -/
theorem insert_insert {g : Registry} {r r' : Record} (h : r.handle = r'.handle) :
    (g.insert r).insert r' = g.insert r' := by
  apply ext_find?
  intro k
  simp only [find?_insert, h]
  split <;> rfl

/-- A record that is taken out again may as well not have been entered. -/
theorem erase_insert_eq {g : Registry} {r : Record} {h : Handle} (hr : r.handle = h) :
    (g.insert r).erase h = g.erase h := by
  apply ext_find?
  intro k
  rw [find?_erase, find?_erase, find?_insert, hr]
  by_cases hk : h = k
  · simp [hk]
  · simp [hk]

/-- One more reference to the exception with this very handle. -/
def retain (g : Registry) (h : Handle) : Registry :=
  if h.isNull then g else g.modify h Record.retained

/-- One reference less, and no exception any more if that was the last. -/
def release (g : Registry) (h : Handle) : Registry :=
  if h.isNull then g
  else
    match g.find? h with
    | none => g
    | some r =>
      if r.refcount.isZero then g
      else if r.released.isDead then g.erase h
      else g.insert r.released

/-- One more reference is seen under the handle of the record only. -/
theorem find?_retain {h : Handle} (hnull : h ≠ Handle.null) (g : Registry) (k : Handle) :
    (g.retain h).find? k = if h = k then (g.find? k).map Record.retained else g.find? k := by
  have hn : h.isNull = false := (Handle.isNull_eq_false_iff h).2 hnull
  rw [retain, hn]
  exact find?_modify (f := Record.retained) (fun _ => rfl) g h k

@[simp] theorem retain_null (g : Registry) : g.retain Handle.null = g := by
  simp [retain]

/-- One reference less is seen under the handle of the record only, and may be the end of it. -/
theorem find?_release {h : Handle} (hnull : h ≠ Handle.null) (g : Registry) (k : Handle) :
    (g.release h).find? k =
      if h = k then (g.find? k).bind Record.afterRelease else g.find? k := by
  have hn : h.isNull = false := (Handle.isNull_eq_false_iff h).2 hnull
  unfold release
  rw [hn, if_neg Bool.false_ne_true]
  by_cases hk : h = k
  · subst hk
    rw [if_pos rfl]
    cases hr : g.find? h with
    | none => simp [hr]
    | some r =>
      -- the record may stay, end, or lose a reference, all under its own handle
      have hh := handle_of_find? hr
      simp only [Option.bind_some, Record.afterRelease]
      split
      · exact hr
      · split
        · rw [find?_erase, if_pos rfl]
        · rw [find?_insert, if_pos (show r.released.handle = h from hh)]
  · -- the record that is entered or forgotten has another handle
    rw [if_neg hk]
    split
    · rfl
    next r hr =>
      have hh : r.released.handle ≠ k := fun he => hk ((handle_of_find? hr).symm.trans he)
      split
      · rfl
      · split
        · rw [find?_erase, if_neg hk]
        · rw [find?_insert, if_neg hh]

@[simp] theorem release_null (g : Registry) : g.release Handle.null = g := by
  simp [release]

/-- A new name is seen in the record that has it. It does not matter here whether another record has
the same name. -/
theorem find?_named (g : Registry) (owner a k : Handle) :
    (g.named owner a).find? k =
      if owner = k then (g.find? k).map (·.withAlias a) else g.find? k :=
  find?_modify (f := (·.withAlias a)) (fun _ => rfl) g owner k

/-- Giving an alias that is not refused. -/
theorem addAlias_eq_ok {g g' : Registry} {owner a : Handle} (h : g.addAlias owner a = .ok g') :
    g' = g ∨ (a ≠ Handle.null ∧ g.leadsTo? a ∈ [none, some owner] ∧ g' = g.named owner a) := by
  unfold addAlias at h
  split at h
  · cases h
    exact .inl rfl
  next hn =>
    -- a name that leads somewhere is granted only to whom it leads
    have hnull : a ≠ Handle.null := by simpa using hn
    split at h
    next other ho =>
      split at h
      next heq =>
        subst heq
        cases h
        exact .inr ⟨hnull, by simp [ho], rfl⟩
      · cases h
    next ho =>
      cases h
      exact .inr ⟨hnull, by simp [ho], rfl⟩

/-! ## Counting references -/

theorem contains_iff (g : Registry) (h : Handle) :
    g.contains h = true ↔ ∃ r, g.find? h = some r := by
  rw [contains, Option.isSome_iff_exists]

theorem contains_eq_false_iff (g : Registry) (h : Handle) :
    g.contains h = false ↔ g.find? h = none := by
  rw [contains, Option.isSome_eq_false_iff, Option.isNone_iff_eq_none]

/-- The references to the exception `h`; there are none to one that is not alive. -/
def refs (g : Registry) (h : Handle) : Nat :=
  match g.find? h with
  | some r => r.refcount.toNat
  | none => 0

/-- The references to a live exception are those its record counts. -/
theorem refs_of_find? {g : Registry} {h : Handle} {r : Record} (hr : g.find? h = some r) :
    g.refs h = r.refcount.toNat := by
  rw [refs, hr]

/-- What is not alive has no references. -/
theorem refs_of_find?_none {g : Registry} {h : Handle} (hr : g.find? h = none) :
    g.refs h = 0 := by
  rw [refs, hr]

/-- To what is referred to is alive. -/
theorem contains_of_refs_pos {g : Registry} {h : Handle} (hpos : 0 < g.refs h) :
    g.contains h = true := by
  cases hr : g.find? h with
  | some r => exact (contains_iff g h).2 ⟨r, hr⟩
  | none =>
    rw [refs_of_find?_none hr] at hpos
    omega

/-- A change that leaves the counts of records alone leaves all counts alone. -/
theorem refs_modify {f : Record → Record} (hf : ∀ r, (f r).handle = r.handle)
    (hc : ∀ r, (f r).refcount = r.refcount) (g : Registry) (h k : Handle) :
    (g.modify h f).refs k = g.refs k := by
  unfold refs
  rw [find?_modify hf]
  by_cases hk : h = k
  · rw [if_pos hk]
    cases g.find? k with
    | none => rfl
    | some r => exact congrArg Count.toNat (hc r)
  · rw [if_neg hk]

/-- Throwing an exception that is not alive makes no references. -/
theorem refs_insert_fresh {g : Registry} {h : Handle} (hdead : g.find? h = none)
    (type : Option TypeTag) (d : Option Destructor) (k : Handle) :
    (g.insert (.fresh h type d)).refs k = g.refs k := by
  have hh : (Record.fresh h type d).handle = h := rfl
  by_cases hk : h = k
  · subst hk
    rw [refs_of_find?_none hdead, refs, find?_insert, if_pos hh]
    rfl
  · rw [refs, refs, find?_insert, hh, if_neg hk]

/-- A reference to what is not alive is counted nowhere. -/
theorem retain_of_find?_none {g : Registry} {h : Handle} (hdead : g.find? h = none) :
    g.retain h = g := by
  rw [retain, modify_of_find?_none hdead]
  exact ite_self g

/-- Below the largest word, a reference taken is a reference counted. -/
theorem refs_retain {g : Registry} {h : Handle} (hnull : h ≠ Handle.null)
    (hlive : g.contains h = true) (hroom : g.refs h + 1 < UInt64.size) (k : Handle) :
    (g.retain h).refs k = g.refs k + if k = h then 1 else 0 := by
  obtain ⟨r, hr⟩ := (contains_iff g h).1 hlive
  rw [refs_of_find? hr] at hroom
  by_cases hk : k = h
  · subst hk
    have hafter : (g.retain k).find? k = some r.retained := by
      rw [find?_retain hnull, if_pos rfl, hr]
      rfl
    rw [if_pos rfl, refs_of_find? hr, refs_of_find? hafter]
    exact Count.toNat_up_of_lt hroom
  · rw [if_neg hk, refs, refs, find?_retain hnull, if_neg (Ne.symm hk), Nat.add_zero]

/-- Other exceptions have as many references as before. -/
theorem refs_retain_of_ne {h k : Handle} (hk : k ≠ h) (g : Registry) :
    (g.retain h).refs k = g.refs k := by
  unfold retain
  split
  · rfl
  · rw [refs, refs, find?_modify (f := Record.retained) fun _ => rfl, if_neg (Ne.symm hk)]

/-- A reference given back is one less to count, and the last one is none. -/
theorem refs_release {h : Handle} (hnull : h ≠ Handle.null) (g : Registry) (k : Handle) :
    (g.release h).refs k = g.refs k - if k = h then 1 else 0 := by
  by_cases hk : k = h
  · subst hk
    rw [if_pos rfl]
    cases hr : g.find? k with
    | none =>
      have hafter : (g.release k).find? k = none := by
        rw [find?_release hnull, if_pos rfl, hr]
        rfl
      rw [refs_of_find?_none hr, refs_of_find?_none hafter]
    | some r =>
      have hafter : (g.release k).find? k = r.afterRelease := by
        rw [find?_release hnull, if_pos rfl, hr]
        rfl
      rw [refs_of_find? hr]
      cases hl : r.afterRelease with
      | none =>
        -- an exception that is gone had one reference, and has none
        rw [hl] at hafter
        rw [refs_of_find?_none hafter]
        have hone := ((Record.isLast_iff r).1 ((Record.afterRelease_eq_none_iff r).1 hl)).1
        omega
      | some r' =>
        rw [hl] at hafter
        rw [refs_of_find? hafter]
        exact (Record.afterRelease_eq_some hl).2.2.2.2.2.2
  · rw [if_neg hk, refs, refs, find?_release hnull, if_neg (Ne.symm hk), Nat.sub_zero]

/-- A name is no reference. -/
theorem refs_addAlias {g g' : Registry} {owner a : Handle} (h : g.addAlias owner a = .ok g')
    (k : Handle) : g'.refs k = g.refs k := by
  rcases addAlias_eq_ok h with rfl | ⟨-, -, rfl⟩
  · rfl
  · exact refs_modify (f := (·.withAlias a)) (fun _ => rfl) (fun _ => rfl) g owner k

/-! ## Whose name is whose -/

/-- No two live exceptions go by one handle. -/
def Partitioned (g : Registry) : Prop :=
  ∀ ⦃k k' r r' a⦄, g.find? k = some r → g.find? k' = some r' → a ∈ r.aliases → a ∈ r'.aliases →
    k = k'

/-- A handle that nobody goes by. -/
def IsUnknown (g : Registry) (h : Handle) : Prop := g.find? h = none ∧ g.owner? h = none

instance (g : Registry) (h : Handle) : Decidable (g.IsUnknown h) :=
  inferInstanceAs (Decidable (_ ∧ _))

/-- Look-ups find what is listed, each record under its own handle. -/
theorem find?_eq_some_iff {g : Registry} {k : Handle} {r : Record} :
    g.find? k = some r ↔ r ∈ g.toList ∧ r.handle = k := by
  rw [find?, Ascending.find?_eq_some_iff, Handle.toNat_inj]
  rfl

/-- A handle without owner is no other name of any record. -/
theorem owner?_eq_none_iff {g : Registry} {a : Handle} :
    g.owner? a = none ↔ ∀ k r, g.find? k = some r → ¬ a ∈ r.aliases := by
  unfold owner?
  rw [Option.map_eq_none_iff, List.find?_eq_none]
  constructor
  · intro h k r hr ha
    exact h r (find?_eq_some_iff.1 hr).1 ((HandleSet.has_iff _ _).2 ha)
  · intro h r hr ha
    exact h r.handle r (find?_eq_some_iff.2 ⟨hr, rfl⟩) ((HandleSet.has_iff _ _).1 ha)

/-- What leads to an exception is not null. -/
theorem ne_null_of_resolve {g : Registry} {a h : Handle} (hnull : h ≠ Handle.null)
    (ha : g.resolve a = h) : a ≠ Handle.null := by
  rintro rfl
  exact hnull (ha.symm.trans (resolve_null g))

/-- A handle leads to itself where it is an exception's own, and where nobody goes by it. -/
theorem resolve_eq_self_iff {g : Registry} {h : Handle} :
    g.resolve h = h ↔ h = Handle.null ∨ g.contains h = true ∨
      ∀ k r, g.find? k = some r → ¬ h ∈ r.aliases := by
  rw [← owner?_eq_none_iff, contains_iff]
  constructor
  · intro hself
    by_cases hnull : h = Handle.null
    · exact .inl hnull
    cases hfind : g.find? h with
    | some r => exact .inr (.inl ⟨r, rfl⟩)
    | none =>
      cases ho : g.owner? h with
      | none => exact .inr (.inr rfl)
      | some o =>
        -- its owner would be an exception with this very handle
        obtain ⟨r, hr, -⟩ := exists_of_owner? ho
        rw [resolve_of_owner? hnull hfind ho] at hself
        rw [hself, hfind] at hr
        cases hr
  · rintro (rfl | ⟨r, hr⟩ | hnone)
    · exact resolve_null g
    · exact resolve_of_find? hr
    · simp [resolve, hnone]

/-- Where nothing is alive no name is shared. -/
theorem partitioned_empty : Partitioned empty := by
  intro k k' r r' a hr
  cases hr

/-- Every name of an exception leads to it, if no two exceptions share a name. -/
theorem Partitioned.resolve_eq {g : Registry} (hp : Partitioned g) {k a : Handle} {r : Record}
    (hr : g.find? k = some r) (ha : a ∈ r.aliases) (hnull : a ≠ Handle.null) :
    g.resolve a = k := by
  cases hkey : g.find? a with
  | some r' =>
    rw [resolve_of_find? hkey]
    have hmem : a ∈ r'.aliases := by
      have := r'.handle_mem
      rwa [handle_of_find? hkey] at this
    exact hp hkey hr hmem ha
  | none =>
    -- `a` is the handle of no exception, so the first that goes by it counts
    cases ho : g.owner? a with
    | none => exact absurd ha (owner?_eq_none_iff.1 ho k r hr)
    | some o =>
      obtain ⟨r', hr', ha'⟩ := exists_of_owner? ho
      rw [resolve_of_owner? hnull hkey ho]
      exact hp hr' hr ((HandleSet.has_iff _ _).1 ha') ha

/-- Names that go away, and exceptions that do, leave the others to whom they were. -/
theorem Partitioned.of_subset {g g' : Registry} (hp : Partitioned g)
    (h : ∀ k r', g'.find? k = some r' → ∃ r, g.find? k = some r ∧ ∀ a ∈ r'.aliases, a ∈ r.aliases) :
    Partitioned g' := by
  intro k k' r r' a hr hr' ha ha'
  obtain ⟨s, hs, hsub⟩ := h k r hr
  obtain ⟨s', hs', hsub'⟩ := h k' r' hr'
  exact hp hs hs' (hsub a ha) (hsub' a ha')

/-- A change that keeps handle and names keeps names apart. -/
theorem Partitioned.modify {g : Registry} (hp : Partitioned g) {f : Record → Record}
    (hf : ∀ r, (f r).handle = r.handle) (ha : ∀ r, (f r).aliases = r.aliases) (h : Handle) :
    Partitioned (g.modify h f) := by
  apply hp.of_subset
  intro k r' hr'
  rw [find?_modify hf] at hr'
  split at hr'
  · obtain ⟨r, hr, rfl⟩ := Option.map_eq_some_iff.1 hr'
    exact ⟨r, hr, fun a h => ha r ▸ h⟩
  · exact ⟨r', hr', fun _ h => h⟩

/-- A reference more gives no names. -/
theorem Partitioned.retain {g : Registry} (hp : Partitioned g) (h : Handle) :
    Partitioned (g.retain h) := by
  unfold Registry.retain
  split
  · exact hp
  · exact hp.modify (f := Record.retained) (fun _ => rfl) (fun _ => rfl) h

/-- A reference less keeps names apart, or takes a record out with all its names. -/
theorem Partitioned.release {g : Registry} (hp : Partitioned g) (h : Handle) :
    Partitioned (g.release h) := by
  by_cases hnull : h = Handle.null
  · rw [hnull, release_null]
    exact hp
  · apply hp.of_subset
    intro k r' hr'
    rw [find?_release hnull] at hr'
    split at hr'
    · obtain ⟨r, hr, hl⟩ := Option.bind_eq_some_iff.1 hr'
      exact ⟨r, hr, fun a ha => (Record.afterRelease_eq_some hl).2.1 ▸ ha⟩
    · exact ⟨r', hr', fun _ ha => ha⟩

/-- A thrown exception starts with its own handle only, which nobody else may go by. The
exception whose place it takes may. -/
theorem Partitioned.insert_own {g : Registry} (hp : Partitioned g) {h : Handle}
    (hown : ∀ k r, g.find? k = some r → h ∈ r.aliases → k = h) (type : Option TypeTag)
    (d : Option Destructor) : Partitioned (g.insert (.fresh h type d)) := by
  intro k k' r r' a hr hr' ha ha'
  rw [find?_insert] at hr hr'
  -- the new exception shares its one name with nobody, and the others are as before
  split at hr <;> split at hr'
  next hk hk' => exact hk.symm.trans hk'
  next hk hk' =>
    cases hr
    rw [(HandleSet.mem_single a h).1 ha] at ha'
    exact absurd (hown k' r' hr' ha').symm hk'
  next hk hk' =>
    cases hr'
    rw [(HandleSet.mem_single a h).1 ha'] at ha
    exact absurd (hown k r hr ha).symm hk
  · exact hp hr hr' ha ha'

/-- An exception may be thrown under any handle that no record knows. -/
theorem Partitioned.insert_fresh {g : Registry} (hp : Partitioned g) {h : Handle}
    (hfree : g.IsUnknown h) (type : Option TypeTag) (d : Option Destructor) :
    Partitioned (g.insert (.fresh h type d)) :=
  hp.insert_own (fun k r hr ha => absurd ha (owner?_eq_none_iff.1 hfree.2 k r hr)) type d

/-- A name that is not refused was nobody else's. -/
theorem Partitioned.addAlias {g g' : Registry} (hp : Partitioned g) {owner a : Handle}
    (h : g.addAlias owner a = .ok g') : Partitioned g' := by
  rcases addAlias_eq_ok h with rfl | ⟨-, hlead, rfl⟩
  · exact hp
  -- whoever goes by `a` already is the owner, or the name would have been refused
  have honly : ∀ k r, g.find? k = some r → a ∈ r.aliases → k = owner := by
    intro k r hr ha
    unfold leadsTo? at hlead
    split at hlead
    next hkey =>
      obtain rfl : a = owner := by simpa using hlead
      obtain ⟨s, hs⟩ := (contains_iff g a).1 hkey
      have hmem : a ∈ s.aliases := by
        have := s.handle_mem
        rwa [handle_of_find? hs] at this
      exact hp hr hs ha hmem
    · cases ho : g.owner? a with
      | none => exact absurd ha (owner?_eq_none_iff.1 ho k r hr)
      | some o =>
        obtain rfl : o = owner := by simpa [ho] using hlead
        obtain ⟨s, hs, ha'⟩ := exists_of_owner? ho
        exact hp hr hs ha ((HandleSet.has_iff _ _).1 ha')
  -- a name of an exception is an old one, or it is `a` and the exception is its owner
  have hcases : ∀ k r b, (g.named owner a).find? k = some r → b ∈ r.aliases →
      (b = a ∧ k = owner) ∨ ∃ s, g.find? k = some s ∧ b ∈ s.aliases := by
    intro k r b hr hb
    rw [find?_named] at hr
    split at hr
    next hk =>
      obtain ⟨s, hs, rfl⟩ := Option.map_eq_some_iff.1 hr
      rcases (HandleSet.mem_insert s.aliases b a).1 hb with hba | hb
      · exact .inl ⟨hba, hk.symm⟩
      · exact .inr ⟨s, hs, hb⟩
    · exact .inr ⟨r, hr, hb⟩
  intro k k' r r' b hr hr' hb hb'
  rcases hcases k r b hr hb with ⟨rfl, hk⟩ | ⟨s, hs, hb⟩ <;>
    rcases hcases k' r' b hr' hb' with ⟨hba, hk'⟩ | ⟨s', hs', hb'⟩
  · exact hk.trans hk'.symm
  · exact hk.trans (honly k' s' hs' hb').symm
  · subst hba
    exact (honly k s hs hb).trans hk'.symm
  · exact hp hs hs' hb hb'

end Registry

end ExceptionLifetime
