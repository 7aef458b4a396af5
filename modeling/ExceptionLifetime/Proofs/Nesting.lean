/-
Programs that handle what they throw leave nothing behind.

Whatever the depth of such a program, what is alive and which scopes are open is
as before, and every exception that was thrown has ended once. Nothing is asked
of the context the program starts in.

The proof follows the tree. A program settles in every context that it fits, and
a handler settles with any number of references around it: how often an exception
was caught further out is no concern of the handler inside. So a handler is
described by what it leaves of one record, and a program by what has ended in it.
-/
import ExceptionLifetime.Proofs.Program
import ExceptionLifetime.Storage.Bump

set_option autoImplicit false

namespace ExceptionLifetime

/-! ## Where an exception stands -/

/-- The record is of the exception `h` with the destructor `d`, to which there are `n`
references. -/
structure Record.Stands (r : Record) (h : Handle) (d : Option Destructor) (n : Nat)
    (caught rethrown : Bool) : Prop where
  handle : r.handle = h
  destructor : r.destructor = d
  refcount : r.refcount.toNat = n
  caught : r.caught = caught
  rethrown : r.rethrown = rethrown

namespace Record

variable {r : Record} {h : Handle} {d : Option Destructor} {n : Nat} {caught rethrown : Bool}

theorem stands_fresh (h : Handle) (type : Option TypeTag) (d : Option Destructor) :
    (fresh h type d).Stands h d 0 false false := ⟨rfl, rfl, rfl, rfl, rfl⟩

/-- A reference more is counted as long as the count is not full. The depth of a program sees to
that. -/
theorem Stands.retained (hr : r.Stands h d n caught rethrown) (hroom : n + 1 < UInt64.size) :
    r.retained.Stands h d (n + 1) caught rethrown := by
  obtain ⟨hh, hd, hn, hc, hm⟩ := hr
  refine ⟨hh, hd, ?_, hc, hm⟩
  rw [← hn] at hroom ⊢
  exact Count.toNat_up_of_lt hroom

/-- To catch takes the mark of a rethrow off. -/
theorem Stands.nowCaught (hr : r.Stands h d n caught rethrown) :
    r.nowCaught.Stands h d n true false :=
  ⟨hr.handle, hr.destructor, hr.refcount, rfl, rfl⟩

theorem Stands.nowRethrown (hr : r.Stands h d n caught rethrown) :
    r.nowRethrown.Stands h d n caught true :=
  ⟨hr.handle, hr.destructor, hr.refcount, hr.caught, rfl⟩

/-- A reference less of at least one. -/
theorem Stands.released (hr : r.Stands h d (n + 1) caught rethrown) :
    r.released.Stands h d n caught rethrown := by
  refine ⟨hr.handle, hr.destructor, ?_, hr.caught, hr.rethrown⟩
  have hn := hr.refcount
  simp only [Record.released, Count.toNat_down]
  omega

theorem Stands.withAlias (hr : r.Stands h d n caught rethrown) (a : Handle) :
    (r.withAlias a).Stands h d n caught rethrown :=
  ⟨hr.handle, hr.destructor, hr.refcount, hr.caught, hr.rethrown⟩

end Record

/-! ## Leaving nothing behind -/

/-- A full count loses one when it goes up and down, and only the first time. -/
theorem Count.up_down_up_down (n : Count) : n.up.down.up.down = n.up.down := by
  have hlt := n.toNat_lt
  apply ext_toNat
  rw [toNat_down, toNat_up, toNat_down, toNat_up]
  omega

/-- A count that is not full is what it was after going up and down. -/
theorem Count.down_up_of_lt {n : Count} (h : n.toNat < UInt64.size - 1) : n.up.down = n := by
  apply ext_toNat
  rw [toNat_down, toNat_up]
  omega

namespace Context

variable {α : Type} [Allocator α]

/-- The context after all these exceptions were thrown and have ended. What was thrown last is
forgotten, and a count of uncaught exceptions that was full has lost one. -/
def settled (c : Context α) (e : List Ended) : Context α :=
  if e = [] then c
  else
    { c with
      allocator := discardAll c.allocator e
      lastThrown := Handle.null
      threw := false
      uncaught := c.uncaught.up.down }

/-- Two programs one after the other settle as one. -/
theorem settled_append (c : Context α) (e e' : List Ended) :
    (c.settled e).settled e' = c.settled (e ++ e') := by
  unfold settled
  by_cases he : e = []
  · rw [if_pos he, he, List.nil_append]
  · rw [if_neg he]
    by_cases he' : e' = []
    · rw [if_pos he', he', List.append_nil, if_neg he]
    · -- a count that was full has lost one, and loses no more
      simp [he, he', discardAll_append, Count.up_down_up_down]

/-- Inside of a scope what was thrown last does not matter any more. -/
theorem settled_eq {c : Context α} (hu : c.uncaught.up.down = c.uncaught) (e : List Ended) :
    ∃ last threw, c.settled e =
      { c with allocator := discardAll c.allocator e, lastThrown := last, threw := threw } := by
  unfold settled
  by_cases he : e = []
  · exact ⟨c.lastThrown, c.threw, by rw [if_pos he, he]; rfl⟩
  · exact ⟨Handle.null, false, by rw [if_neg he, hu]⟩

/-- Outside of all scopes it does not either, if there is nothing of that kind. -/
theorem settled_of_quiet {c : Context α} (hu : c.uncaught.up.down = c.uncaught)
    (hlast : c.lastThrown = Handle.null) (hthrew : c.threw = false) (e : List Ended) :
    c.settled e = { c with allocator := discardAll c.allocator e } := by
  unfold settled
  by_cases he : e = []
  · rw [if_pos he, he]
    rfl
  · rw [if_neg he, hu, ← hlast, ← hthrew]

variable {build : Build} {c : Context α} {r : Record} {h : Handle} {d : Option Destructor}
  {n : Nat} {caught rethrown : Bool}

theorem Runs.congr {l : List Operation} {c' c'' : Context α} {e e' : List Ended}
    (hl : Runs build c l c' e) (hc : c' = c'') (he : e = e') : Runs build c l c'' e' := by
  rw [← hc, ← he]
  exact hl

/-! ## An exception amid a program -/

/-- The context while the exception with the record `r` is alive. The exceptions `e` have ended
meanwhile; the scopes and what else may change are as given. -/
def amid (c : Context α) (r : Record) (e : List Ended) (scopes : List Handle)
    (lastThrown : Handle) (threw : Bool) (uncaught : Count) : Context α :=
  { c with
    registry := c.registry.insert r
    allocator := discardAll c.allocator e
    scopes
    lastThrown
    threw
    uncaught }

section Amid

variable {r' : Record} {e e' : List Ended} {s s' : List Handle} {last last' : Handle}
  {threw threw' : Bool} {u u' : Count}

theorem find?_amid (hr : r.Stands h d n caught rethrown) :
    (c.amid r e s last threw u).registry.find? h = some r := by
  rw [amid, Registry.find?_insert, if_pos hr.handle]

theorem refs_amid (hr : r.Stands h d n caught rethrown) :
    (c.amid r e s last threw u).registry.refs h = n := by
  rw [Registry.refs_of_find? (find?_amid hr), hr.refcount]

/-- What happens amid a program that is itself amid a program: the record given last counts, and all
that has ended has. -/
theorem amid_amid (hr : r.handle = r'.handle) :
    (c.amid r e s last threw u).amid r' e' s' last' threw' u' =
      c.amid r' (e ++ e') s' last' threw' u' := by
  simp only [amid, Registry.insert_insert hr, discardAll_append]

/-- A reference given back to an exception that others refer to, or that is on its way. -/
theorem released_amid_of_kept (hnull : h ≠ Handle.null)
    (hr : r.Stands h d (n + 1) caught rethrown) (hkept : 0 < n ∨ rethrown = true) :
    (c.amid r e s last threw u).released .quiet h = c.amid r.released e s last threw u ∧
      (c.amid r e s last threw u).registry.dying? h = none := by
  have hlast : r.isLast = false := by
    rw [← Bool.not_eq_true, Record.isLast_iff, hr.refcount, hr.rethrown]
    rintro ⟨hn, hm⟩
    rcases hkept with hpos | hm'
    · omega
    · rw [hm'] at hm
      cases hm
  have hdying : (c.amid r e s last threw u).registry.dying? h = none := by
    rw [← Option.not_isSome_iff_eq_none, Option.isSome_iff_exists]
    rintro ⟨r', hr'⟩
    obtain ⟨-, hr', hl⟩ := Registry.dying?_eq_some_iff.1 hr'
    rw [find?_amid hr] at hr'
    cases hr'
    rw [hlast] at hl
    cases hl
  have hsome : r.afterRelease = some r.released := by
    have hzero : ¬ r.refcount.isZero = true := by
      rw [Record.isZero_refcount, hr.refcount]
      omega
    -- were it dead without this reference, this would have been its last one
    have hdead : ¬ r.released.isDead = true := by
      intro hdead
      rw [Record.isLast, hdead, Bool.and_true, Bool.not_eq_false'] at hlast
      exact hzero hlast
    rw [Record.afterRelease, if_neg hzero, if_neg hdead]
  have hrelease : (c.registry.insert r).release h = c.registry.insert r.released := by
    apply Registry.ext_find?
    intro k
    rw [Registry.find?_release hnull, Registry.find?_insert, Registry.find?_insert,
      hr.released.handle, hr.handle]
    split
    · exact hsome
    · rfl
  refine ⟨?_, hdying⟩
  rw [released, hdying, amid, amid]
  simp only [hrelease]

/-- An exception with one reference, and not on its way, ends with it. -/
theorem dying?_amid (hnull : h ≠ Handle.null) (hr : r.Stands h d 1 caught false) :
    (c.amid r e s last threw u).registry.dying? h = some r := by
  rw [Registry.dying?_eq_some_iff, Record.isLast_iff]
  exact ⟨hnull, find?_amid hr, hr.refcount, hr.rethrown⟩

/-- The last reference given back. -/
theorem released_amid_of_last (hnull : h ≠ Handle.null) (hr : r.Stands h d 1 caught false)
    (hnew : c.registry.find? h = none) :
    (c.amid r e s last threw u).released .quiet h =
      { c with
        allocator := discardAll c.allocator (e ++ [⟨h, d⟩])
        scopes := s
        lastThrown := last
        threw
        uncaught := u } := by
  rw [released, dying?_amid hnull hr]
  simp only [without, amid, hr.handle, Registry.erase_insert hr.handle hnew,
    Conduct.finishes_quiet, if_true, discardAll_append]
  rfl

/-- How many exceptions end when a scope of one of them does. -/
theorem ended_of_stands (hnull : h ≠ Handle.null) (hr : r.Stands h d (n + 1) caught false) :
    ((c.amid r e s last threw u).registry.dying? h).toList.map Record.ended =
      if n = 0 then [⟨h, d⟩] else [] := by
  by_cases hn : n = 0
  · subst hn
    rw [if_pos rfl, dying?_amid hnull hr, Option.toList_some, List.map_cons, Record.ended,
      hr.handle, hr.destructor, List.map_nil]
  · rw [if_neg hn, (released_amid_of_kept hnull hr (.inl (Nat.pos_of_ne_zero hn))).2]
    rfl

/-- On entry of a handler a scope is begun, and a rethrow ends. -/
theorem runs_landing (p : Landing) (hnull : h ≠ Handle.null)
    (hlead : c.registry.resolve c.lastThrown = h) (hr : c.registry.find? h = some r)
    (hst : r.Stands h d n caught rethrown) (hroom : n + 1 < UInt64.size) (hf : p.Fits build c h) :
    ∃ r', r'.Stands h d (n + 1) true false ∧
      Runs build c p.operations
        (c.amid r' [] (h :: c.scopes) c.lastThrown c.threw
          (if caught then c.uncaught else c.uncaught.down)) [] := by
  obtain ⟨hchoice, hvalue⟩ := hf
  -- the choice of a clause leaves a record that stands as before
  have hchosen : ∃ r', r'.Stands h d n caught rethrown ∧
      Runs build c p.choice { c with registry := c.registry.insert r' } [] := by
    cases hp : p.clauses? with
    | none =>
      have hsame : c.registry.insert r = c.registry :=
        Registry.insert_of_find? (by rw [hst.handle, hr])
      refine ⟨r, hst, ?_⟩
      rw [hsame, Landing.choice, hp]
      exact Runs.nil build c
    | some clauses =>
      obtain ⟨r', hr', hrun⟩ := runs_matchClause build hlead hr (hchoice clauses hp)
      refine ⟨r', ?_, ?_⟩
      · rcases hr' with rfl | ⟨a, rfl⟩
        · exact hst
        · exact hst.withAlias a
      · rw [Landing.choice, hp]
        exact hrun
  obtain ⟨r', hst', hrun⟩ := hchosen
  -- the value that is caught leads to the exception after the choice, not before it
  rw [hrun.state] at hvalue
  have hfind : (c.registry.insert r').find? h = some r' := by
    rw [Registry.find?_insert, if_pos hst'.handle]
  have hbegin := runs_beginCatch build hnull hvalue hfind
  have hst₁ := hst'.nowCaught.retained hroom
  have hinsert : (c.registry.insert r').insert r'.nowCaught.retained
      = c.registry.insert r'.nowCaught.retained :=
    Registry.insert_insert (hst'.handle.trans hst₁.handle.symm)
  rw [hinsert, hst'.caught] at hbegin
  exact ⟨r'.nowCaught.retained, hst₁, hrun.append hbegin⟩

/-- A handler rethrows its exception, and the scope stays open. -/
theorem runs_rethrow_amid (hr : r.Stands h d n caught false) :
    Runs build (c.amid r e (h :: s) last threw u) [.rethrow]
      (c.amid r.nowRethrown e (h :: s) h true u) [] := by
  have hrun := runs_rethrow build (c := c.amid r e (h :: s) last threw u) rfl
    (find?_amid hr) hr.rethrown
  refine hrun.congr ?_ rfl
  simp only [amid, Registry.insert_insert (hr.handle.trans hr.nowRethrown.handle.symm)]

/-- The client captures the exception of a scope. -/
theorem runs_capture_amid (hnull : h ≠ Handle.null) (hr : r.Stands h d n caught rethrown) :
    Runs build (c.amid r e (h :: s) last threw u) [.capture]
      (c.amid r.retained e (h :: s) last threw u) [] := by
  have hrun := runs_capture build (c := c.amid r e (h :: s) last threw u) hnull rfl
    (find?_amid hr)
  refine hrun.congr ?_ rfl
  have hinsert : (c.registry.insert r).insert r.retained = c.registry.insert r.retained :=
    Registry.insert_insert rfl
  simp only [amid, hinsert]

/-- A scope of an exception ends. -/
theorem runs_endCatch_amid (hnull : h ≠ Handle.null) (hr : r.Stands h d (n + 1) caught rethrown) :
    Runs build (c.amid r e (h :: s) last threw u) [.endCatch]
      ((c.amid r e s Handle.null false u).released .quiet h)
      (((c.amid r e s Handle.null false u).registry.dying? h).toList.map Record.ended) :=
  runs_endCatch build hnull rfl (by rw [refs_amid hr]; exact Nat.succ_pos n)

/-- A scope ends whose exception goes on to live. -/
theorem runs_endCatch_of_kept (hnull : h ≠ Handle.null)
    (hr : r.Stands h d (n + 1) caught rethrown) (hkept : 0 < n ∨ rethrown = true) :
    Runs build (c.amid r e (h :: s) last threw u) [.endCatch]
      (c.amid r.released e s Handle.null false u) [] := by
  have hrun : Runs build (c.amid r e (h :: s) last threw u) [.endCatch] _ _ :=
    runs_endCatch_amid hnull hr
  rw [(released_amid_of_kept hnull hr hkept).1, (released_amid_of_kept hnull hr hkept).2] at hrun
  exact hrun

end Amid

end Context

/-! ## Handlers -/

section Settles

variable (α : Type) [Allocator α] (build : Build)

/-- A program leaves nothing behind. -/
def Segment.Settles (s : Segment) : Prop :=
  ∀ c : Context α, s.Fits build c → s.depth < UInt64.size - 1 →
    Context.Runs build c s.operations (c.settled s.ended) s.ended

/-- A handler leaves an exception as it is when its last scope has just ended. -/
def Handler.Settles (handler : Handler) : Prop :=
  ∀ (c : Context α) (h : Handle) (d : Option Destructor) (n : Nat) (caught rethrown : Bool)
    (r : Record) (u : Count),
    h ≠ Handle.null → c.registry.resolve c.lastThrown = h → c.registry.find? h = some r →
    r.Stands h d n caught rethrown → n + handler.depth < UInt64.size →
    u = (if caught then c.uncaught else c.uncaught.down) → u.up.down = u →
    handler.Fits build c h →
    ∃ r', r'.Stands h d (n + 1) true false ∧
      Context.Runs build c handler.operations
        ((c.amid r' handler.ended c.scopes Handle.null false u).released .quiet h)
        (handler.ended ++ if n = 0 then [⟨h, d⟩] else [])

/-- Whatever is done with a captured exception, it stays captured. -/
def Aftermath.Settles (later : Aftermath) : Prop :=
  ∀ (c : Context α) (h : Handle) (d : Option Destructor) (r : Record),
    h ≠ Handle.null → c.registry.find? h = some r → r.Stands h d 1 true false →
    c.lastThrown = Handle.null → c.threw = false → c.uncaught.up.down = c.uncaught →
    later.depth < UInt64.size - 1 → later.Fits build c h →
    ∃ r', r'.Stands h d 1 true false ∧
      Context.Runs build c later.operations
        (c.amid r' later.ended c.scopes Handle.null false c.uncaught) later.ended

end Settles

variable {α : Type} [Allocator α] {build : Build}

open Context

/-- A program inside of a scope. -/
theorem Segment.Settles.amid {body : Segment} (hbody : body.Settles α build) {c : Context α}
    {r : Record} {e : List Ended} {s : List Handle} {last : Handle} {threw : Bool} {u : Count}
    (hf : body.Fits build (c.amid r e s last threw u)) (hdepth : body.depth < UInt64.size - 1)
    (hu : u.up.down = u) :
    ∃ last' threw', Runs build (c.amid r e s last threw u) body.operations
      (c.amid r (e ++ body.ended) s last' threw' u) body.ended := by
  obtain ⟨last', threw', heq⟩ := settled_eq (c := c.amid r e s last threw u) hu body.ended
  refine ⟨last', threw', (hbody _ hf hdepth).congr ?_ rfl⟩
  rw [heq]
  simp only [Context.amid, discardAll_append]

namespace Handler

variable {landing : Landing} {body : Segment} {again : Handler}

/-- A handler of one scope: a reference on entry, the body, and a reference less. -/
theorem settles_scope (hbody : body.Settles α build) :
    (scope landing body).Settles α build := by
  intro c h d n caught rethrown r u hnull hlead hr hst hdepth hu hfull hf
  obtain ⟨hfl, hfb⟩ := hf
  simp only [depth] at hdepth
  obtain ⟨r₁, hst₁, hentered⟩ := runs_landing landing hnull hlead hr hst (by omega) hfl
  rw [← hu] at hentered
  rw [hentered.state] at hfb
  -- what the body throws has ended when it is over, and the record is as it was entered
  obtain ⟨last, threw, hran⟩ := hbody.amid hfb (by omega) hfull
  have hleft := hran.append (runs_endCatch_amid hnull hst₁)
  refine ⟨r₁, hst₁, (hentered.append hleft).congr rfl ?_⟩
  rw [ended_of_stands hnull hst₁]
  rfl

/-- A handler that rethrows to one within its own scope. -/
theorem settles_nested (hbody : body.Settles α build) (hagain : again.Settles α build) :
    (nested landing body again).Settles α build := by
  intro c h d n caught rethrown r u hnull hlead hr hst hdepth hu hfull hf
  obtain ⟨hfl, hfb, hfa⟩ := hf
  simp only [depth] at hdepth
  obtain ⟨r₁, hst₁, hentered⟩ := runs_landing landing hnull hlead hr hst (by omega) hfl
  rw [← hu] at hentered
  rw [hentered.state] at hfb hfa
  obtain ⟨last, threw, hran⟩ := hbody.amid hfb (by omega) hfull
  have hrethrown := hran.append (runs_rethrow_amid hst₁)
  rw [hrethrown.state] at hfa
  have hst₂ := hst₁.nowRethrown
  -- the handler inside finds one reference more, that of the scope around it
  obtain ⟨r₃, hst₃, hinside⟩ := hagain _ h d (n + 1) true true r₁.nowRethrown u hnull
    (Registry.resolve_of_find? (find?_amid hst₂)) (find?_amid hst₂) hst₂ (by omega) rfl hfull hfa
  rw [amid_amid (hst₂.handle.trans hst₃.handle.symm),
    (released_amid_of_kept hnull hst₃ (.inl (Nat.succ_pos n))).1,
    if_neg (Nat.succ_ne_zero n)] at hinside
  have hleft := hinside.append (runs_endCatch_amid hnull hst₃.released)
  have hops : (nested landing body again).operations = landing.operations ++
      ((body.operations ++ [.rethrow]) ++ (again.operations ++ [.endCatch])) := by
    simp [operations]
  refine ⟨r₃.released, hst₃.released, ?_⟩
  rw [hops]
  refine (hentered.append (hrethrown.append hleft)).congr rfl ?_
  rw [ended_of_stands hnull hst₃.released]
  simp [ended]

/-- A handler that rethrows, ends its scope on the way out and lands in the next one. -/
theorem settles_outward {x : Handle} (hbody : body.Settles α build)
    (hagain : again.Settles α build) : (outward landing body x again).Settles α build := by
  intro c h d n caught rethrown r u hnull hlead hr hst hdepth hu hfull hf
  obtain ⟨hfl, hfb, hx, hfa⟩ := hf
  simp only [depth] at hdepth
  obtain ⟨r₁, hst₁, hentered⟩ := runs_landing landing hnull hlead hr hst (by omega) hfl
  rw [← hu] at hentered
  rw [hentered.state] at hfb hfa hx
  obtain ⟨last, threw, hran⟩ := hbody.amid hfb (by omega) hfull
  have hst₂ := hst₁.nowRethrown
  -- the scope ends while the exception is on its way, which keeps it
  have hclosed := hran.append ((runs_rethrow_amid hst₁).cons
    (runs_endCatch_of_kept hnull hst₂ (.inr rfl)))
  rw [hclosed.state] at hfa hx
  have hst₃ := hst₂.released
  have hresumed := runs_resume build (x := x)
    (c := c.amid r₁.nowRethrown.released ([] ++ body.ended) c.scopes Handle.null false u) rfl
  rw [hresumed.state] at hfa
  obtain ⟨r₄, hst₄, hfurther⟩ := hagain _ h d n true true r₁.nowRethrown.released u hnull hx
    (find?_amid hst₃) hst₃ (by omega) rfl hfull hfa
  have hops : (outward landing body x again).operations = landing.operations ++
      ((body.operations ++ [.rethrow, .endCatch]) ++ .resume x :: again.operations) := by
    simp [operations]
  refine ⟨r₄, hst₄, ?_⟩
  rw [hops]
  refine (hentered.append (hclosed.append (hresumed.cons hfurther))).congr ?_ ?_
  · exact congrArg (Context.released .quiet · h) (amid_amid (hst₃.handle.trans hst₄.handle.symm))
  · simp [ended]

end Handler

namespace Aftermath

variable {body : Segment} {handler : Handler} {later : Aftermath}

theorem settles_done : done.Settles α build := by
  intro c h d r hnull hr hst hlast hthrew hfull _ _
  -- a context is amid what is alive in it
  have hsame : c.amid r [] c.scopes Handle.null false c.uncaught = c := by
    have hinsert : c.registry.insert r = c.registry :=
      Registry.insert_of_find? (by rw [hst.handle, hr])
    rw [Context.amid, hinsert, ← hlast, ← hthrew]
    rfl
  exact ⟨r, hst, (Runs.nil build c).congr hsame.symm rfl⟩

/-- A program runs while the exception is captured. -/
theorem settles_segment (hbody : body.Settles α build) (hlater : later.Settles α build) :
    (segment body later).Settles α build := by
  intro c h d r hnull hr hst hlast hthrew hfull hdepth hf
  obtain ⟨hfb, hfl⟩ := hf
  simp only [depth] at hdepth
  have hran := hbody c hfb (by omega)
  have hstate : c.settled body.ended =
      c.amid r body.ended c.scopes Handle.null false c.uncaught := by
    have hinsert : c.registry.insert r = c.registry :=
      Registry.insert_of_find? (by rw [hst.handle, hr])
    rw [settled_of_quiet hfull hlast hthrew, Context.amid, hinsert, ← hlast, ← hthrew]
  rw [hstate] at hran
  rw [hran.state] at hfl
  obtain ⟨r', hst', hrest⟩ := hlater _ h d r hnull (find?_amid hst) hst rfl rfl hfull
    (by omega) hfl
  exact ⟨r', hst', (hran.append hrest).congr (amid_amid (hst.handle.trans hst'.handle.symm)) rfl⟩

/-- The captured exception is thrown again and handled. -/
theorem settles_rethrow {x : Handle} (hhandler : handler.Settles α build)
    (hlater : later.Settles α build) : (rethrow x handler later).Settles α build := by
  intro c h d r hnull hr hst hlast hthrew hfull hdepth hf
  obtain ⟨hx, hfh, hfl⟩ := hf
  simp only [depth] at hdepth
  have hst₁ := hst.nowRethrown
  have hthrown : Runs build c [.rethrowCaptured x]
      (c.amid r.nowRethrown [] c.scopes h true c.uncaught) [] :=
    runs_rethrowCaptured build hnull hx hr
  rw [hthrown.state] at hfh hfl
  -- the reference of the client keeps the exception when the scope of the handler ends
  obtain ⟨r₂, hst₂, hhandled⟩ := hhandler _ h d 1 true true r.nowRethrown c.uncaught hnull
    (Registry.resolve_of_find? (find?_amid hst₁)) (find?_amid hst₁) hst₁ (by omega) rfl hfull hfh
  rw [amid_amid (hst₁.handle.trans hst₂.handle.symm),
    (released_amid_of_kept hnull hst₂ (.inl Nat.one_pos)).1, if_neg Nat.one_ne_zero,
    List.nil_append, List.append_nil] at hhandled
  rw [hhandled.state] at hfl
  have hst₃ := hst₂.released
  obtain ⟨r', hst', hrest⟩ := hlater _ h d r₂.released hnull (find?_amid hst₃) hst₃ rfl rfl hfull
    (by omega) hfl
  exact ⟨r', hst', (hthrown.cons (hhandled.append hrest)).congr
    (amid_amid (hst₃.handle.trans hst'.handle.symm)) rfl⟩

end Aftermath

namespace Segment

variable {first second before after : Segment} {handler : Handler} {landing : Landing}
  {later : Aftermath} {h : Handle} {type : Option TypeTag} {d : Option Destructor}

theorem settles_empty : empty.Settles α build := fun c _ _ => Runs.nil build c

/-- Of two programs the second begins in what the first has settled. -/
theorem settles_seq (hfirst : first.Settles α build) (hsecond : second.Settles α build) :
    (seq first second).Settles α build := by
  intro c hf hdepth
  obtain ⟨hff, hfs⟩ := hf
  simp only [depth] at hdepth
  have hran := hfirst c hff (by omega)
  rw [hran.state] at hfs
  exact (hran.append (hsecond _ hfs (by omega))).congr (settled_append c _ _) rfl

/-- A thrown exception, as its handler finds it. -/
theorem runs_thrown (build : Build) {c : Context α} (hfree : c.registry.IsUnknown h)
    (type : Option TypeTag) (d : Option Destructor) :
    Runs build c [.throw h type d]
      (c.amid (.fresh h type d) [] c.scopes h true c.uncaught.up) [] :=
  runs_throw build hfree.1 type d

/-- What is settled when an exception has ended after others. -/
theorem settled_append_single (c : Context α) (e : List Ended) (e' : Ended) :
    c.settled (e ++ [e']) =
      { c with
        allocator := discardAll c.allocator (e ++ [e'])
        lastThrown := Handle.null
        threw := false
        uncaught := c.uncaught.up.down } := by
  rw [settled, if_neg (List.append_ne_nil_of_right_ne_nil e (List.cons_ne_nil e' []))]

/-- An exception is thrown and handled. The last reference to it is that of its scope. -/
theorem settles_handled (hhandler : handler.Settles α build) :
    (handled h type d handler).Settles α build := by
  intro c hf hdepth
  obtain ⟨hnull, hfree, hfh⟩ := hf
  simp only [depth] at hdepth
  have hthrown := runs_thrown build hfree type d
  rw [hthrown.state] at hfh
  have hst := Record.stands_fresh h type d
  -- nobody else refers to it, so it ends with the handler
  obtain ⟨r, hst', hhandled⟩ := hhandler _ h d 0 false false _ c.uncaught.up.down hnull
    (Registry.resolve_of_find? (find?_amid hst)) (find?_amid hst) hst (by omega) rfl
    (Count.up_down_up_down _) hfh
  rw [amid_amid (hst.handle.trans hst'.handle.symm), List.nil_append,
    released_amid_of_last hnull hst' hfree.1, if_pos rfl] at hhandled
  exact (hthrown.cons hhandled).congr (settled_append_single c _ _).symm rfl

/-- An exception is thrown, captured in its scope, and given back at last. -/
theorem settles_captured (hbefore : before.Settles α build) (hafter : after.Settles α build)
    (hlater : later.Settles α build) :
    (captured h type d landing before after later).Settles α build := by
  intro c hf hdepth
  obtain ⟨hnull, hfree, hfl, hfb, hfa, hfr⟩ := hf
  simp only [depth] at hdepth
  -- inside of the scope the count of uncaught exceptions is not full any more
  have hfull := Count.up_down_up_down c.uncaught
  have hthrown := runs_thrown build hfree type d
  rw [hthrown.state] at hfl hfb hfa hfr
  have hst := Record.stands_fresh h type d
  obtain ⟨r₁, hst₁, hentered⟩ := runs_landing landing hnull
    (Registry.resolve_of_find? (find?_amid hst)) (find?_amid hst) hst (by omega) hfl
  rw [amid_amid (hst.handle.trans hst₁.handle.symm)] at hentered
  rw [hentered.state] at hfb hfa hfr
  obtain ⟨last, threw, hran⟩ := hbefore.amid hfb (by omega) hfull
  have hcaptured := hran.append (runs_capture_amid hnull hst₁)
  rw [hcaptured.state] at hfa hfr
  have hst₂ := hst₁.retained (by omega)
  obtain ⟨last', threw', hran'⟩ := hafter.amid hfa (by omega) hfull
  -- the reference of the client outlives that of the scope
  have hclosed := hran'.append (runs_endCatch_of_kept hnull hst₂ (.inl Nat.one_pos))
  rw [hclosed.state] at hfr
  have hst₃ := hst₂.released
  obtain ⟨r₄, hst₄, hrest⟩ := hlater _ h d r₁.retained.released hnull (find?_amid hst₃) hst₃ rfl
    rfl hfull (by omega) hfr
  rw [amid_amid (hst₃.handle.trans hst₄.handle.symm)] at hrest
  have hgiven := runs_releaseAny build
    (c := c.amid r₄ ([] ++ [] ++ before.ended ++ after.ended ++ later.ended) c.scopes Handle.null
      false c.uncaught.up.down)
    (Registry.resolve_of_find? (find?_amid hst₄)) (by rw [refs_amid hst₄]; exact Nat.one_pos)
  rw [released_amid_of_last hnull hst₄ hfree.1, dying?_amid hnull hst₄] at hgiven
  have hops : (captured h type d landing before after later).operations =
      .throw h type d :: (landing.operations ++ ((before.operations ++ [.capture]) ++
        ((after.operations ++ [.endCatch]) ++ (later.operations ++ [.releaseAny h])))) := by
    simp [operations]
  rw [hops]
  refine (hthrown.cons (hentered.append (hcaptured.append (hclosed.append
    (hrest.append hgiven))))).congr ?_ ?_
  · -- what ended in between and the exception itself settle together
    rw [ended, ← List.append_assoc, ← List.append_assoc, settled_append_single]
    simp
  · simp [ended, Record.ended, hst₄.handle, hst₄.destructor]

end Segment

/-! ## Programs -/

mutual

/-- Every program leaves nothing behind. The three kinds of tree are one inside of the other, so
this is one induction. -/
theorem Segment.settles (α : Type) [Allocator α] (build : Build) :
    (s : Segment) → s.Settles α build
  | .empty => Segment.settles_empty
  | .seq first second => Segment.settles_seq (first.settles α build) (second.settles α build)
  | .handled _ _ _ handler => Segment.settles_handled (handler.settles α build)
  | .captured _ _ _ _ before after later =>
    Segment.settles_captured (before.settles α build) (after.settles α build)
      (later.settles α build)

theorem Handler.settles (α : Type) [Allocator α] (build : Build) :
    (handler : Handler) → handler.Settles α build
  | .scope _ body => Handler.settles_scope (body.settles α build)
  | .nested _ body again => Handler.settles_nested (body.settles α build) (again.settles α build)
  | .outward _ body _ again =>
    Handler.settles_outward (body.settles α build) (again.settles α build)

theorem Aftermath.settles (α : Type) [Allocator α] (build : Build) :
    (later : Aftermath) → later.Settles α build
  | .done => Aftermath.settles_done
  | .segment body later =>
    Aftermath.settles_segment (body.settles α build) (later.settles α build)
  | .rethrow _ handler later =>
    Aftermath.settles_rethrow (handler.settles α build) (later.settles α build)

end

/-- A program that handles what it throws leaves nothing behind. What is alive and which scopes
are open is as before, and so is the number of uncaught exceptions, unless it was at its limit.
No call panics or ends the process. Everything that was thrown has ended: its destructor was
called once, with its own handle, and its storage was handed back once. Nothing else was
destroyed or handed back. -/
theorem segment_leaves_nothing_behind (build : Build) (c : Context α) (s : Segment)
    (hf : s.Fits build c) (hdepth : s.depth < UInt64.size - 1) :
    let c' := c.follow build s.operations
    c' = c.settled s.ended ∧ c'.registry = c.registry ∧ c'.scopes = c.scopes ∧
      (c.uncaught.toNat < UInt64.size - 1 → c'.uncaught = c.uncaught) ∧
      c.Orderly build s.operations ∧ (thrownBy s.operations).Perm s.ended ∧
      destructions (c.observed build (quietly s.operations)) = s.ended.flatMap Ended.calls ∧
      handedBack (c.observed build (quietly s.operations)) = s.ended.map Ended.handle := by
  intro c'
  obtain ⟨hstate, horderly, hdes, hback⟩ := s.settles α build c hf hdepth
  -- what has ended leaves a trace in the context only where something was thrown at all
  have hc' : c' = c.settled s.ended := hstate
  refine ⟨hc', ?_, ?_, fun hroom => ?_, horderly, s.thrownBy_perm, hdes, hback⟩
  · rw [hc', settled]
    split <;> rfl
  · rw [hc', settled]
    split <;> rfl
  · rw [hc', settled]
    split
    · rfl
    · exact Count.down_up_of_lt hroom

/-- An exception that is rethrown to a handler inside of the scope, where another one is
captured, rethrown out of the scope of its second handler and let go of. -/
theorem segment_leaves_nothing_behind_nested :
    let inner := Segment.captured ⟨32⟩ none (some ⟨2⟩) ⟨none, ⟨32⟩⟩ .empty .empty
      (.rethrow ⟨32⟩ (.outward ⟨none, ⟨32⟩⟩ .empty ⟨32⟩ (.scope ⟨none, ⟨32⟩⟩ .empty)) .done)
    let s := Segment.handled ⟨16⟩ none (some ⟨1⟩)
      (.nested ⟨some [], ⟨16⟩⟩ .empty (.scope ⟨none, ⟨16⟩⟩ inner))
    let c := Context.fresh Hierarchy.empty (Bump.startingAt 4096)
    s.Fits .checked c ∧ s.depth < UInt64.size - 1 ∧
      (c.follow .checked s.operations).registry = c.registry ∧
      destructions (c.observed .checked (quietly s.operations)) = [(2, ⟨32⟩), (1, ⟨16⟩)] := by
  intro inner s c
  have hf : s.Fits .checked c := by decide +kernel
  have hdepth : s.depth < UInt64.size - 1 := by decide
  obtain ⟨-, hregistry, -, -, -, -, hdes, -⟩ :=
    segment_leaves_nothing_behind .checked c s hf hdepth
  exact ⟨hf, hdepth, hregistry, hdes⟩

end ExceptionLifetime
