/-
What is done while frames are left.

An exception leaves frames on its way, and code of the client runs in each of them. That
code may throw exceptions of its own and handle them, and it ends the scopes of the frames
that are left. It overwrites what was thrown last, or forgets it. In the end the frame goes
on with the exception under some name of it.

Then the same clause is chosen as would have been chosen before: what was thrown last is the
exception under one of its names, and nothing is alive under another name than before. The
exception itself outlives the scopes that end, also those of its own, since it has one only
while it is marked as rethrown, and the mark keeps it.
-/
import ExceptionLifetime.Proofs.Matched
import ExceptionLifetime.Proofs.Naming
import ExceptionLifetime.Proofs.Restore

set_option autoImplicit false

namespace ExceptionLifetime

/-! ## Cleaning up -/

/-- What is done in the frames that an exception leaves. -/
inductive Cleanup where
  | done
  /-- Exceptions are thrown and handled. -/
  | segment (body : Segment) (rest : Cleanup)
  /-- A scope ends that was open before. -/
  | close (rest : Cleanup)

namespace Cleanup

/-- The calls of a cleanup. -/
def operations : Cleanup → List Operation
  | done => []
  | segment body rest => body.operations ++ rest.operations
  | close rest => .endCatch :: rest.operations

variable {α : Type} [Allocator α]

/-- The programs fit where they are run, and a scope ends only if one is open. -/
def Fits (build : Build) : Cleanup → Context α → Prop
  | done, _ => True
  | segment body rest, c => body.Fits build c ∧ rest.Fits build (c.follow build body.operations)
  | close rest, c => c.scopes ≠ [] ∧ rest.Fits build (c.follow build [.endCatch])

instance decidableFits (build : Build) :
    (u : Cleanup) → (c : Context α) → Decidable (u.Fits build c)
  | done, _ => instDecidableTrue
  | segment _ rest, _ =>
    have := rest.decidableFits build
    inferInstanceAs (Decidable (_ ∧ _))
  | close rest, _ =>
    have := rest.decidableFits build
    inferInstanceAs (Decidable (_ ∧ _))

end Cleanup

/-! ## Fewer exceptions under the same names -/

namespace Registry

/-- What is alive in `g'` is alive in `g` under the same names. -/
def Within (g' g : Registry) : Prop :=
  ∀ k r', g'.find? k = some r' → ∃ r, g.find? k = some r ∧ r'.aliases = r.aliases

variable {g g' g'' : Registry} {a h k : Handle} {r : Record}

theorem Within.refl (g : Registry) : g.Within g := fun _ r hr => ⟨r, hr, rfl⟩

theorem Within.trans (h' : g''.Within g') (h : g'.Within g) : g''.Within g := by
  intro k r'' hr''
  obtain ⟨r', hr', haliases'⟩ := h' k r'' hr''
  obtain ⟨r, hr, haliases⟩ := h k r' hr'
  exact ⟨r, hr, haliases'.trans haliases⟩

/-- What leads to a live exception is a name of it. -/
theorem mem_aliases_of_resolve (hr : g.find? h = some r) (hlead : g.resolve a = h)
    (hnull : h ≠ Handle.null) : a ∈ r.aliases := by
  have ha := ne_null_of_resolve hnull hlead
  rcases (resolve_eq_iff ha ((contains_iff g h).2 ⟨r, hr⟩)).1 hlead with rfl | ⟨-, ho⟩
  · exact handle_of_find? hr ▸ r.handle_mem
  · obtain ⟨s, hs, hmem, -⟩ := owner?_eq_some_iff.1 ho
    obtain rfl := Option.some.inj (hr.symm.trans hs)
    exact hmem

/-- Whoever a name leads to goes by it. -/
theorem exists_of_leadsTo? (hlead : g.leadsTo? a = some h) :
    ∃ r, g.find? h = some r ∧ a ∈ r.aliases := by
  unfold leadsTo? at hlead
  split at hlead
  next hlive =>
    cases hlead
    obtain ⟨r, hr⟩ := (contains_iff g a).1 hlive
    exact ⟨r, hr, handle_of_find? hr ▸ r.handle_mem⟩
  · obtain ⟨r, hr, hmem, -⟩ := owner?_eq_some_iff.1 hlead
    exact ⟨r, hr, hmem⟩

/-- In terms of the members: every name of every exception leads to it. -/
theorem namesResolve_iff_forall :
    g.NamesResolve ↔ ∀ r ∈ g.toList, ∀ a ∈ r.aliases.toList, g.resolve a = r.handle := by
  constructor
  · intro hg r hr a ha
    exact hg r.handle r a (find?_eq_some_iff.2 ⟨hr, rfl⟩) ha
  · intro hg k r a hr ha
    obtain ⟨hmem, rfl⟩ := find?_eq_some_iff.1 hr
    exact hg r hmem a ha

instance (g : Registry) : Decidable g.NamesResolve :=
  decidable_of_iff _ namesResolve_iff_forall.symm

/-- Names go on to lead to whose they are if others end. -/
theorem NamesResolve.within (hg : g.NamesResolve) (hw : g'.Within g) : g'.NamesResolve := by
  intro k r' a hr' ha
  obtain ⟨r, hr, haliases⟩ := hw k r' hr'
  have hlead : g.resolve a = k := hg k r a hr (haliases ▸ ha)
  cases hfind : g'.find? a with
  | some s' =>
    -- the exception `a` was alive before, so it is the one that the name leads to
    obtain ⟨s, hs, -⟩ := hw a s' hfind
    rw [resolve_of_find? hfind, ← hlead, resolve_of_find? hs]
  | none =>
    by_cases hnull : a = Handle.null
    · rw [hnull, resolve_null] at hlead ⊢
      exact hlead
    cases ho : g'.owner? a with
    | none => exact absurd ha (owner?_eq_none_iff.1 ho k r' hr')
    | some o =>
      obtain ⟨s', hs', hmem, -⟩ := owner?_eq_some_iff.1 ho
      obtain ⟨s, hs, haliases'⟩ := hw o s' hs'
      rw [resolve_of_owner? hnull hfind ho, ← hlead]
      exact (hg o s a hs (haliases' ▸ hmem)).symm

/-- A name that is refused if fewer are alive is refused anyway. -/
theorem addAlias_within (hg : g.NamesResolve) (hw : g'.Within g) {v : Violation}
    (hv : g'.addAlias h a = .error v) : ∃ v', g.addAlias h a = .error v' := by
  unfold addAlias at hv
  split at hv
  · cases hv
  next hn =>
  split at hv
  next o ho =>
    split at hv
    · cases hv
    next hne =>
      obtain ⟨r', hr', hmem⟩ := exists_of_leadsTo? ho
      obtain ⟨r, hr, haliases⟩ := hw o r' hr'
      exact ⟨_, addAlias_of_resolve (by simpa using hn) ((contains_iff g o).2 ⟨r, hr⟩)
        (hg o r a hr (haliases ▸ hmem)) (Ne.symm hne)⟩
  · cases hv

end Registry

/-! ## An exception on its way -/

/-- The record `r'` differs from `r` in the number of references at most. -/
structure Record.Stays (r' r : Record) : Prop where
  type : r'.type = r.type
  aliases : r'.aliases = r.aliases
  caught : r'.caught = r.caught
  rethrown : r'.rethrown = r.rethrown

namespace Record.Stays

variable {r r' r'' : Record}

theorem refl (r : Record) : r.Stays r := ⟨rfl, rfl, rfl, rfl⟩

theorem trans (h' : r''.Stays r') (h : r'.Stays r) : r''.Stays r :=
  ⟨h'.type.trans h.type, h'.aliases.trans h.aliases, h'.caught.trans h.caught,
    h'.rethrown.trans h.rethrown⟩

/-- A reference less changes nothing but the count. -/
theorem of_afterRelease (h : r.afterRelease = some r') : r'.Stays r := by
  obtain ⟨-, haliases, htype, -, hcaught, hmark, -⟩ := afterRelease_eq_some h
  exact ⟨htype, haliases, hcaught, hmark⟩

end Record.Stays

/-- What has more than one reference, or is on its way, outlives the release of one. -/
theorem Record.exists_afterRelease {r : Record} (h : r.refcount.toNat ≠ 1 ∨ r.rethrown = true) :
    ∃ r', r.afterRelease = some r' ∧ r'.Stays r ∧
      r'.refcount.toNat = r.refcount.toNat - 1 := by
  cases hr : r.afterRelease with
  | some r' => exact ⟨r', rfl, .of_afterRelease hr, (afterRelease_eq_some hr).2.2.2.2.2.2⟩
  | none =>
    obtain ⟨hone, hmark⟩ := (isLast_iff r).1 ((afterRelease_eq_none_iff r).1 hr)
    rw [hone, hmark] at h
    simp at h

/-- To give back a reference gives no names. -/
theorem Registry.within_release (g : Registry) (t : Handle) : (g.release t).Within g := by
  intro k r' hr'
  rw [find?_release_eq] at hr'
  split at hr'
  · obtain ⟨r, hr, hrel⟩ := Option.bind_eq_some_iff.1 hr'
    exact ⟨r, hr, (Record.fields_relieved hrel).2.1⟩
  · exact ⟨r', hr', rfl⟩

namespace Context

variable {α : Type}

/-- Every open scope is of a live exception, to which there are as many references as it has
scopes, or more. -/
def ScopesHeld (c : Context α) : Prop :=
  ∀ k ∈ c.scopes, k ≠ Handle.null ∧ c.registry.contains k = true ∧
    c.scopes.count k ≤ c.registry.refs k

instance (c : Context α) : Decidable c.ScopesHeld :=
  inferInstanceAs (Decidable (∀ k ∈ c.scopes, _))

/-- The record of an open scope. -/
theorem ScopesHeld.exists_record {c : Context α} (hc : c.ScopesHeld) {k : Handle}
    (hk : k ∈ c.scopes) : k ≠ Handle.null ∧
      ∃ r, c.registry.find? k = some r ∧ c.scopes.count k ≤ r.refcount.toNat := by
  obtain ⟨hnull, hlive, hcount⟩ := hc k hk
  obtain ⟨r, hr⟩ := (Registry.contains_iff _ _).1 hlive
  rw [Registry.refs_of_find? hr] at hcount
  exact ⟨hnull, r, hr, hcount⟩

/-- The exception `g` is alive, and it has open scopes only if it was rethrown. -/
def Carries (c : Context α) (g : Handle) : Prop :=
  ∃ r, c.registry.find? g = some r ∧ (r.rethrown = false → ¬ g ∈ c.scopes)

variable [Allocator α]

/-- The calls `l` do not disturb the exception `g`, and they give no names. -/
structure Keeps (build : Build) (g : Handle) (c : Context α) (l : List Operation) : Prop where
  held : (c.follow build l).ScopesHeld
  carries : (c.follow build l).Carries g
  within : (c.follow build l).registry.Within c.registry
  stays : ∀ r, c.registry.find? g = some r →
    ∃ r', (c.follow build l).registry.find? g = some r' ∧ r'.Stays r
  lastThrown : (c.follow build l).lastThrown = c.lastThrown ∨
    (c.follow build l).lastThrown = Handle.null
  orderly : c.Orderly build l

variable {build : Build} {g : Handle} {c : Context α} {l m : List Operation}

/-- Calls that keep a match, and then more of them in what they leave. -/
theorem Keeps.append (hl : Keeps build g c l) (hm : Keeps build g (c.follow build l) m) :
    Keeps build g c (l ++ m) := by
  refine ⟨?_, ?_, ?_, fun r hr => ?_, ?_, orderly_append hl.orderly hm.orderly⟩
  · rw [follow_append]
    exact hm.held
  · rw [follow_append]
    exact hm.carries
  · rw [follow_append]
    exact hm.within.trans hl.within
  · rw [follow_append]
    obtain ⟨r', hr', hstays⟩ := hl.stays r hr
    obtain ⟨r'', hr'', hstays'⟩ := hm.stays r' hr'
    exact ⟨r'', hr'', hstays'.trans hstays⟩
  · rw [follow_append]
    rcases hm.lastThrown with hsame | hnone
    · exact hl.lastThrown.imp hsame.trans hsame.trans
    · exact .inr hnone

/-- What restores what it found keeps every exception. -/
theorem Restores.keeps (hl : Restores build c l) (hheld : c.ScopesHeld) (hg : c.Carries g) :
    Keeps build g c l := by
  refine ⟨?_, ?_, ?_, fun r hr => ⟨r, ?_, .refl r⟩, hl.lastThrown, hl.orderly⟩
  · rw [ScopesHeld, hl.registry, hl.scopes]
    exact hheld
  · rw [Carries, hl.registry, hl.scopes]
    exact hg
  · rw [hl.registry]
    exact .refl _
  · rw [hl.registry]
    exact hr

/-- A scope ends whose exception is alive. -/
theorem follow_endCatch {t : Handle} {rest : List Handle} {s : Record} (build : Build)
    (hs : c.scopes = t :: rest) (ht : c.registry.find? t = some s) :
    (c.follow build [.endCatch]).registry = c.registry.release t ∧
      (c.follow build [.endCatch]).scopes = rest := by
  have hregistry : (c.follow build [.endCatch]).registry = c.registryAfter .endCatch :=
    registry_perform build .quiet c .endCatch
  have hscopes : (c.follow build [.endCatch]).scopes = c.scopesAfter .endCatch :=
    scopes_perform build .quiet c .endCatch
  constructor
  · rw [hregistry, registryAfter, change, top_of_scopes hs, Registry.resolve_of_find? ht, Change.on]
  · rw [hscopes, scopesAfter, hs, List.tail_cons]

/-- The scopes that are left have references enough, also those of the same exception. -/
theorem ScopesHeld.endCatch (hheld : c.ScopesHeld) (build : Build) (hs : c.scopes ≠ []) :
    (c.follow build [.endCatch]).ScopesHeld := by
  obtain ⟨t, rest, hs⟩ := List.exists_cons_of_ne_nil hs
  obtain ⟨hnull, s, ht, hcount⟩ := hheld.exists_record (hs ▸ List.mem_cons_self)
  rw [hs, List.count_cons_self] at hcount
  obtain ⟨hregistry, hscopes⟩ := follow_endCatch build hs ht
  intro k hk
  rw [hscopes] at hk
  rw [hscopes, hregistry, Registry.contains_iff]
  obtain ⟨hknull, r, hr, hle⟩ := hheld.exists_record (hs ▸ List.mem_cons_of_mem t hk)
  -- a scope of the same exception has its own reference, one is left for each
  have hleft : ∃ r', (c.registry.release t).find? k = some r' ∧
      rest.count k ≤ r'.refcount.toNat := by
    rw [Registry.find?_release hnull]
    split
    next htk =>
      subst htk
      have hpos : 0 < rest.count t := List.count_pos_iff.2 hk
      obtain ⟨r', hr', -, hcount'⟩ := Record.exists_afterRelease (r := s) (.inl (by omega))
      exact ⟨r', by rw [ht, Option.bind_some, hr'], by omega⟩
    next htk =>
      rw [hs, List.count_cons_of_ne htk] at hle
      exact ⟨r, hr, hle⟩
  obtain ⟨r', hr', hle'⟩ := hleft
  exact ⟨hknull, ⟨r', hr'⟩, by rw [Registry.refs_of_find? hr']; exact hle'⟩

omit [Allocator α] in
/-- An exception with a scope that ends is marked, and the mark keeps it. -/
theorem Carries.stays_release {t : Handle} {r : Record} (hg : c.Carries g)
    (ht : t ∈ c.scopes) (hnull : t ≠ Handle.null) (hr : c.registry.find? g = some r) :
    ∃ r', (c.registry.release t).find? g = some r' ∧ r'.Stays r := by
  rw [Registry.find?_release hnull]
  split
  next htg =>
    obtain ⟨r₀, hr₀, hmark⟩ := hg
    obtain rfl := Option.some.inj (hr.symm.trans hr₀)
    have hrethrown : r.rethrown = true := by
      rw [← Bool.not_eq_false]
      exact fun hnot => hmark hnot (htg ▸ ht)
    obtain ⟨r', hr', hstays, -⟩ := Record.exists_afterRelease (.inr hrethrown)
    exact ⟨r', by rw [hr, Option.bind_some, hr'], hstays⟩
  · exact ⟨r, hr, .refl r⟩

/-- A scope ends that was open before. -/
theorem keeps_endCatch (build : Build) (hheld : c.ScopesHeld) (hg : c.Carries g)
    (hs : c.scopes ≠ []) : Keeps build g c [.endCatch] := by
  have hheld' := hheld.endCatch build hs
  obtain ⟨t, rest, hs⟩ := List.exists_cons_of_ne_nil hs
  have hopen : t ∈ c.scopes := hs ▸ List.mem_cons_self
  obtain ⟨hnull, s, ht, hcount⟩ := hheld.exists_record hopen
  -- the scope has a reference of its own, so it can be given back
  have hm : c.misuse? .endCatch = none := by
    have hrefs : 0 < c.registry.refs t := by
      rw [hs, List.count_cons_self] at hcount
      rw [Registry.refs_of_find? ht]
      omega
    simp only [misuse?, hs, Registry.resolve_of_find? ht, underflow?_of_refs_pos hrefs]
  obtain ⟨hregistry, hscopes⟩ := follow_endCatch build hs ht
  refine ⟨hheld', ?_, ?_, fun r hr => ?_, .inr (lastThrown_endCatch build hnull hs hm),
    isOrderly_perform hm rfl, trivial⟩
  · rw [Carries, hscopes, hregistry]
    obtain ⟨r, hr, hmark⟩ := hg
    obtain ⟨r', hr', hstays⟩ := Carries.stays_release ⟨r, hr, hmark⟩ hopen hnull hr
    refine ⟨r', hr', fun hnot hmem => ?_⟩
    exact hmark (hstays.rethrown.symm.trans hnot) (hs ▸ List.mem_cons_of_mem t hmem)
  · rw [hregistry]
    exact c.registry.within_release t
  · rw [hregistry]
    exact hg.stays_release hopen hnull hr

/-- A cleanup keeps the exception that it is done for. -/
theorem keeps_cleanup (build : Build) (u : Cleanup) (hheld : c.ScopesHeld) (hg : c.Carries g)
    (hf : u.Fits build c) : Keeps build g c u.operations := by
  induction u generalizing c with
  | done => exact (Restores.nil build c).keeps hheld hg
  | segment body rest ih =>
    have hbody := (body.tidy α build c hf.1).keeps hheld hg
    exact hbody.append (ih hbody.held hbody.carries hf.2)
  | close rest ih =>
    have hclosed := keeps_endCatch build hheld hg hf.1
    exact hclosed.append (ih hclosed.held hclosed.carries hf.2)

/-! ## Choosing a clause -/

omit [Allocator α] in
/-- The same clause is chosen for the same exception, if names lead to whose they are and nothing
more is alive. -/
theorem returns_matchClause_within {c' : Context α} (htypes : c'.types = c.types)
    (hnames : c.registry.NamesResolve) (hw : c'.registry.Within c.registry)
    (hlead : c.registry.resolve c.lastThrown = g) (hlead' : c'.registry.resolve c'.lastThrown = g)
    (htype : (c'.registry.find? g).bind Record.type = (c.registry.find? g).bind Record.type)
    {clauses : List TypeTag} {m : MatchedClause}
    (hm : (c.matchClause build clauses).outcome = .returned m) :
    (c'.matchClause build clauses).outcome = .returned m := by
  have hchoice : c'.choice? clauses = c.choice? clauses := by
    simp only [choice?, hlead, hlead', htype, htypes]
  have hselection : c'.selection clauses = c.selection clauses := by
    simp only [selection, hlead, hlead', htype, htypes]
  rw [returns_matchClause_iff] at hm ⊢
  rw [hselection]
  refine ⟨hm.1, fun hchecked => ?_⟩
  -- with fewer exceptions alive, nobody new can object to the name
  have hok := hm.2 hchecked
  unfold collision? at hok ⊢
  rw [hchoice]
  cases hc : c.choice? clauses with
  | none => rfl
  | some p =>
    obtain ⟨h, a⟩ := p
    rw [hc] at hok
    cases ha : c'.registry.addAlias h a with
    | ok g' => simp [ha]
    | error v =>
      obtain ⟨v', hv'⟩ := Registry.addAlias_within hnames hw ha
      simp [hv'] at hok

/-- Cleaning up does not change what is matched. Let an exception be on its way, with nothing but
its mark to keep it from the end of its own scopes, and let every open scope hold its exception.
After any cleanup, which throws and handles what it likes and ends any of the open scopes, and
after the frame has gone on with the exception under one of its names, the exception is as it was.
It is still the one that is matched, and whatever the clauses, the choice among them comes out as
it would have before the cleanup. -/
theorem cleanup_keeps_match (build : Build) (c : Context α) (g x : Handle) (r : Record)
    (u : Cleanup) (hheld : c.ScopesHeld) (hnames : c.registry.NamesResolve)
    (hnull : g ≠ Handle.null) (hr : c.registry.find? g = some r)
    (hlead : c.registry.resolve c.lastThrown = g) (hmark : r.rethrown = false → ¬ g ∈ c.scopes)
    (hf : u.Fits build c) (hx : x ∈ r.aliases) :
    let c' := c.follow build (u.operations ++ [.resume x])
    c.Orderly build (u.operations ++ [.resume x]) ∧
      (∃ r', c'.registry.find? g = some r' ∧ r'.type = r.type ∧ r'.aliases = r.aliases ∧
        r'.caught = r.caught ∧ r'.rethrown = r.rethrown) ∧
      c'.registry.resolve c'.lastThrown = g ∧
      ∀ clauses m, (c.matchClause build clauses).outcome = .returned m →
        (c'.matchClause build clauses).outcome = .returned m := by
  intro c'
  have hkept := keeps_cleanup build u hheld ⟨r, hr, hmark⟩ hf
  obtain ⟨r', hr', hstays⟩ := hkept.stays r hr
  have hc' : c' = (c.follow build u.operations).follow build [.resume x] :=
    follow_append build c _ _
  have htypes : c'.types = c.types := types_run build c _
  have hregistry : c'.registry = (c.follow build u.operations).registry := by
    rw [hc']
    rfl
  have hnames' := hnames.within hkept.within
  -- what was thrown last is a name of the exception, in whichever way it came there
  have hname : c'.lastThrown ∈ r'.aliases := by
    rw [hstays.aliases, hc', lastThrown_resume]
    split
    · exact hx
    next hsome =>
      rcases hkept.lastThrown with hsame | hnone
      · rw [hsame]
        exact Registry.mem_aliases_of_resolve hr hlead hnull
      · rw [hnone] at hsome
        exact absurd rfl hsome
  have hlead' : c'.registry.resolve c'.lastThrown = g := by
    rw [hregistry]
    exact hnames' g r' c'.lastThrown hr' hname
  rw [← hregistry] at hr'
  have htype : (c'.registry.find? g).bind Record.type = (c.registry.find? g).bind Record.type := by
    rw [hr', hr, Option.bind_some, Option.bind_some, hstays.type]
  refine ⟨orderly_append hkept.orderly ⟨rfl, trivial⟩,
    ⟨r', hr', hstays.type, hstays.aliases, hstays.caught, hstays.rethrown⟩, hlead',
    fun clauses m hm => ?_⟩
  exact returns_matchClause_within htypes hnames (hregistry ▸ hkept.within) hlead hlead' htype hm

/-- An exception is rethrown out of the inner one of two scopes. While it is on its way another
one is thrown and handled, both scopes end, and it goes on under the name of its base. -/
theorem cleanup_keeps_match_rethrown :
    let base : TypeTag := ⟨1, by decide⟩
    let derived : TypeTag := ⟨2, by decide⟩
    let types : Hierarchy :=
      ⟨#[⟨"Base", .classType []⟩, ⟨"Derived", .classType [⟨base, 8⟩]⟩], []⟩
    let c := (fresh types (Bump.startingAt 4096)).follow .checked
      [.throw ⟨32⟩ none none, .beginCatch ⟨32⟩, .throw ⟨16⟩ (some derived) none,
        .matchClause [base], .beginCatch ⟨24⟩, .rethrow]
    let u : Cleanup := .segment (.handled ⟨64⟩ none none (.scope ⟨none, ⟨64⟩⟩ .empty))
      (.close (.close .done))
    let c' := c.follow .checked (u.operations ++ [.resume ⟨24⟩])
    c.ScopesHeld ∧ c.registry.NamesResolve ∧ c.registry.resolve c.lastThrown = ⟨16⟩ ∧
      u.Fits .checked c ∧ c.scopes = [⟨16⟩, ⟨32⟩] ∧ c'.scopes = [] ∧
      (c.matchClause .checked [base]).outcome = .returned ⟨⟨24⟩, some base⟩ ∧
      (c'.matchClause .checked [base]).outcome = .returned ⟨⟨24⟩, some base⟩ := by
  intro base derived types c u c'
  have hheld : c.ScopesHeld := by decide +kernel
  have hnames : c.registry.NamesResolve := by decide +kernel
  have hlead : c.registry.resolve c.lastThrown = ⟨16⟩ := by decide +kernel
  have hf : u.Fits .checked c := by decide +kernel
  have hrecord : (c.registry.find? ⟨16⟩).any
      (fun r => r.rethrown && r.hasAlias ⟨24⟩) = true := by decide +kernel
  obtain ⟨r, hr, hr'⟩ := (Option.any_eq_true _ _).1 hrecord
  obtain ⟨hmark, hx⟩ := Bool.and_eq_true_iff.1 hr'
  have hm : (c.matchClause .checked [base]).outcome = .returned ⟨⟨24⟩, some base⟩ := by
    decide +kernel
  obtain ⟨-, -, -, hkeeps⟩ := cleanup_keeps_match .checked c ⟨16⟩ ⟨24⟩ r u hheld hnames (by decide)
    hr hlead (fun hnot => by rw [hmark] at hnot; cases hnot) hf ((HandleSet.has_iff _ _).1 hx)
  exact ⟨hheld, hnames, hlead, hf, by decide +kernel, by decide +kernel, hm,
    hkeeps [base] _ hm⟩

end Context

end ExceptionLifetime
