/-
Programs that handle what they throw, however deep.

A count of references stops at the largest word. A program with more scopes inside of each
other than that loses count, and an exception of it ends too early, while scopes of it are
still open. Even so the program restores what it found: the live exceptions, the open scopes
and, unless it forgets it, what was thrown last. None of its calls panics or ends the
process.

What carries the proof is that the exceptions of a program belong to it. Nobody else goes by
their handles, so a handle leads to the exception or, when it has ended too early, to
nothing. A handler is described by a bound on the references it leaves, and without any no
exception is left behind.
-/
import ExceptionLifetime.Proofs.Program

set_option autoImplicit false

namespace ExceptionLifetime

/-! ## An exception of a program -/

/-- There are references, at most `n`, and the exception is on its way or it is not. -/
structure Record.Held (n : Nat) (rethrown : Bool) (r : Record) : Prop where
  pos : 0 < r.refcount.toNat
  le : r.refcount.toNat ≤ n
  rethrown : r.rethrown = rethrown

/-- One more reference to an exception: now there is one at least, and the count does not grow by
more. -/
theorem Record.count_held {r : Record} {n : Nat} (hnull : r.handle ≠ Handle.null)
    (hle : r.refcount.toNat ≤ n) :
    0 < r.held.refcount.toNat ∧ r.held.refcount.toNat ≤ n + 1 := by
  have hword : 1 < UInt64.size := by decide
  have hup : r.retained.refcount.toNat = min (r.refcount.toNat + 1) (UInt64.size - 1) :=
    r.refcount.toNat_up
  rw [held_of_ne_null hnull, hup]
  omega

namespace Registry

variable {g : Registry} {h : Handle}

/-- The exception `h` is such, if it is alive. -/
def At (g : Registry) (h : Handle) (P : Record → Prop) : Prop := ∀ r, g.find? h = some r → P r

/-- No other exception goes by `h`. -/
def Owns (g : Registry) (h : Handle) : Prop := (g.erase h).owner? h = none

theorem erase_of_find?_none (hnone : g.find? h = none) : g.erase h = g := by
  apply ext_find?
  intro k
  rw [find?_erase]
  by_cases hk : h = k
  · rw [if_pos hk, ← hk, hnone]
  · rw [if_neg hk]

/-- An exception that is thrown under a handle that nobody knows has it for itself. -/
theorem IsUnknown.owns (hu : g.IsUnknown h) : g.Owns h := by
  rw [Owns, erase_of_find?_none hu.1]
  exact hu.2

/-- What belongs to an exception leads to it, also after its end. -/
theorem Owns.resolve_eq (ho : g.Owns h) : g.resolve h = h := by
  cases hr : g.find? h with
  | some r => exact resolve_of_find? hr
  | none =>
    rw [Owns, erase_of_find?_none hr] at ho
    exact resolve_eq_self_iff.2 (.inr (.inr (owner?_eq_none_iff.1 ho)))

/-- There is no exception to which there are between one and no references. -/
theorem At.find?_eq_none {m : Bool} (hg : g.At h (Record.Held 0 m)) : g.find? h = none := by
  refine Option.eq_none_iff_forall_ne_some.2 fun r hr => ?_
  have hpos := (hg r hr).pos
  have hle := (hg r hr).le
  omega

end Registry

namespace Change

variable {g : Registry} {h : Handle} {n : Nat}

/-- What becomes of an exception is such if it is in each of the ways in which it can. -/
theorem at_on {ch : Change} {P Q : Record → Prop} (hold : ∀ s, ch ≠ .thrown s) (hg : g.At h P)
    (hstep : ∀ r r', r.handle = h → P r → r.Becomes ch (some r') → Q r') : (ch.on g).At h Q := by
  intro r' hr'
  rcases becomes_of_find?_on hr' with hnew | ⟨r, hr, hb⟩
  · exact absurd hnew (hold r')
  · exact hstep r r' (Registry.handle_of_find? hr) (hg r hr) hb

/-- A choice of clauses does not count. -/
theorem at_named (hg : g.At h (·.refcount.toNat ≤ n)) (a : Handle) :
    ((named h a).on g).At h (·.refcount.toNat ≤ n) := by
  refine at_on nofun hg ?_
  rintro r r' rfl hr hb
  cases hb with
  | apart hne => exact absurd rfl hne
  | named _ | refused => exact hr

/-- Whoever catches an exception holds a reference to it, and it is not on its way any more. -/
theorem at_caught (hnull : h ≠ Handle.null) (hg : g.At h (·.refcount.toNat ≤ n)) :
    ((caught h).on g).At h (Record.Held (n + 1) false) := by
  refine at_on nofun hg ?_
  rintro r r' rfl hr hb
  cases hb with
  | apart hne => exact absurd rfl hne
  | caught =>
    obtain ⟨hpos, hle⟩ := Record.count_held (r := r.nowCaught) hnull hr
    exact ⟨hpos, hle, r.nowCaught.rethrown_held⟩

/-- Who captures an exception holds one more reference to it, and it is on its way if it was. -/
theorem at_retained {m : Bool} (hnull : h ≠ Handle.null) (hg : g.At h (Record.Held n m)) :
    ((retained h).on g).At h (Record.Held (n + 1) m) := by
  refine at_on nofun hg ?_
  rintro r r' rfl hr hb
  cases hb with
  | apart hne => exact absurd rfl hne
  | retained =>
    obtain ⟨hpos, hle⟩ := Record.count_held hnull hr.le
    exact ⟨hpos, hle, r.rethrown_held.trans hr.rethrown⟩

/-- A rethrow marks the exception and keeps its references. -/
theorem at_rethrown (hg : g.At h (Record.Held n false)) :
    ((rethrown h).on g).At h (Record.Held n true) := by
  refine at_on nofun hg ?_
  rintro r r' rfl hr hb
  cases hb with
  | apart hne => exact absurd rfl hne
  | rethrown => exact ⟨hr.pos, hr.le, rfl⟩

/-- What is on its way outlives its last reference. -/
theorem at_released_of_rethrown (hnull : h ≠ Handle.null) (hg : g.At h (Record.Held (n + 1) true)) :
    ((released h).on g).At h (·.refcount.toNat ≤ n) := by
  refine at_on nofun hg ?_
  rintro r r' rfl hr hb
  cases hb with
  | apart hne => exact absurd rfl hne
  | released hrel =>
    rw [Record.relieved, if_neg (by simpa using hnull)] at hrel
    obtain ⟨-, -, -, -, -, -, hcount⟩ := Record.afterRelease_eq_some hrel
    have hle := hr.le
    omega

/-- What is not on its way ends with its last reference. -/
theorem at_released (hnull : h ≠ Handle.null) (hg : g.At h (Record.Held (n + 1) false)) :
    ((released h).on g).At h (Record.Held n false) := by
  refine at_on nofun hg ?_
  rintro r r' rfl hr hb
  cases hb with
  | apart hne => exact absurd rfl hne
  | released hrel =>
    rw [Record.relieved, if_neg (by simpa using hnull)] at hrel
    obtain ⟨-, -, -, -, -, hmark, hcount⟩ := Record.afterRelease_eq_some hrel
    -- the record is still there, so this was not the last reference
    have hlast : r.refcount.toNat ≠ 1 := by
      intro hone
      have hnone := (Record.afterRelease_eq_none_iff r).2
        ((Record.isLast_iff r).2 ⟨hone, hr.rethrown⟩)
      rw [hnone] at hrel
      cases hrel
    have hpos := hr.pos
    have hle := hr.le
    exact ⟨by omega, by omega, hmark.trans hr.rethrown⟩

end Change

/-! ## Calls for an exception -/

namespace Context

variable {α : Type} [Allocator α]

/-- The calls `l` concern the exception `h` alone. They leave these scopes open, and what
they leave of the exception is such. -/
structure Concerns (build : Build) (h : Handle) (c : Context α) (l : List Operation)
    (scopes : List Handle) (Q : Record → Prop) : Prop where
  others : (c.follow build l).registry.erase h = c.registry.erase h
  scopes : (c.follow build l).scopes = scopes
  left : (c.follow build l).registry.At h Q
  orderly : c.Orderly build l

namespace Concerns

variable {build : Build} {h : Handle} {c : Context α} {l m : List Operation}
  {s s' : List Handle} {P Q : Record → Prop}

theorem nil (hleft : c.registry.At h Q) : Concerns build h c [] c.scopes Q :=
  ⟨rfl, rfl, hleft, trivial⟩

/-- Calls for one exception, and then more of them, in the context that the first ones leave. -/
theorem append (hl : Concerns build h c l s P)
    (hm : Concerns build h (c.follow build l) m s' Q) : Concerns build h c (l ++ m) s' Q := by
  refine ⟨?_, ?_, ?_, orderly_append hl.orderly hm.orderly⟩
  · rw [follow_append, hm.others, hl.others]
  · rw [follow_append, hm.scopes]
  · rw [follow_append]
    exact hm.left

/-- The handle still belongs to the exception after calls that concern it alone. -/
theorem owns (hl : Concerns build h c l s P) (ho : c.registry.Owns h) :
    (c.follow build l).registry.Owns h := by
  rw [Registry.Owns, hl.others]
  exact ho

/-- One call, which does to the live exceptions what `ch` says. -/
theorem single {op : Operation} {ch : Change} (hch : c.change op = ch)
    (hsubject : ch.subject? = some h ∨ ch = .nothing) (hm : c.misuse? op = none)
    (hasks : op.asks = false) (hs : c.scopesAfter op = s) (hleft : (ch.on c.registry).At h Q) :
    Concerns build h c [op] s Q := by
  have hregistry : (c.follow build [op]).registry = ch.on c.registry := by
    rw [← hch]
    exact registry_perform build .quiet c op
  refine ⟨?_, (scopes_perform build .quiet c op).trans hs, ?_, isOrderly_perform hm hasks, trivial⟩
  · rw [hregistry]
    rcases hsubject with hsubject | rfl
    · exact Change.erase_on hsubject
    · rfl
  · rw [hregistry]
    exact hleft

end Concerns

variable {build : Build} {h x : Handle} {c : Context α} {s : List Handle} {n : Nat}

/-- A new exception has no references. -/
theorem concerns_throw (build : Build) (type : Option TypeTag) (d : Option Destructor) :
    Concerns build h c [.throw h type d] c.scopes (·.refcount.toNat ≤ 0) := by
  have hfresh : ((Change.thrown (.fresh h type d)).on c.registry).At h (·.refcount.toNat ≤ 0) := by
    intro r hr
    rw [Change.on, Registry.find?_insert,
      if_pos (show (Record.fresh h type d).handle = h from rfl)] at hr
    cases hr
    exact Nat.le_refl 0
  exact .single rfl (.inl rfl) rfl rfl rfl hfresh

/-- The landing pad of a handler looks at what is in flight, and enters no more than a name for it.
A handler without clauses makes no call here. -/
theorem concerns_choice (build : Build) {p : Landing} (hlead : c.registry.resolve c.lastThrown = h)
    (hf : ∀ clauses ∈ p.clauses?, c.collision? clauses = none)
    (hleft : c.registry.At h (·.refcount.toNat ≤ n)) :
    Concerns build h c p.choice c.scopes (·.refcount.toNat ≤ n) := by
  cases hp : p.clauses? with
  | none =>
    rw [Landing.choice, hp]
    exact .nil hleft
  | some clauses =>
    rw [Landing.choice, hp]
    cases hchoice : c.choice? clauses with
    | none =>
      exact .single (by rw [change, hchoice]) (.inr rfl) (hf clauses hp) rfl rfl hleft
    | some chosen =>
      obtain ⟨k, a⟩ := chosen
      -- the choice is made for what is in flight
      obtain rfl : k = h := (choice?_eq_some hchoice).1.trans hlead
      exact .single (by rw [change, hchoice]) (.inl rfl) (hf clauses hp) rfl rfl
        (Change.at_named hleft a)

/-- The scope that is begun is the innermost one, and its exception is held. -/
theorem concerns_beginCatch (build : Build) (hnull : h ≠ Handle.null)
    (hx : c.registry.resolve x = h) (hleft : c.registry.At h (·.refcount.toNat ≤ n)) :
    Concerns build h c [.beginCatch x] (h :: c.scopes) (Record.Held (n + 1) false) :=
  .single (by rw [change, hx]) (.inl rfl) rfl rfl (by rw [scopesAfter, hx])
    (Change.at_caught hnull hleft)

/-- On entry of a handler. -/
theorem concerns_landing {p : Landing} (hnull : h ≠ Handle.null)
    (hlead : c.registry.resolve c.lastThrown = h) (hleft : c.registry.At h (·.refcount.toNat ≤ n))
    (hf : p.Fits build c h) :
    Concerns build h c p.operations (h :: c.scopes) (Record.Held (n + 1) false) := by
  have hchosen := concerns_choice build hlead hf.1 hleft
  have hcaught := concerns_beginCatch build hnull hf.2 hchosen.left
  rw [hchosen.scopes] at hcaught
  exact hchosen.append hcaught

/-- A rethrow leaves its scope open, since the exception was caught since the last one. -/
theorem concerns_rethrow (ho : c.registry.Owns h) (hs : c.scopes = h :: s)
    (hleft : c.registry.At h (Record.Held n false)) :
    Concerns build h c [.rethrow] (h :: s) (Record.Held n true) := by
  -- it was caught by the handler that rethrows it, so the scope stays
  have hmark : (c.registry.find? h).any Record.rethrown = false := by
    cases hr : c.registry.find? h with
    | none => rfl
    | some r => exact (hleft r hr).rethrown
  have hscopes : c.scopesAfter .rethrow = h :: s := by
    simp only [scopesAfter, hs, ho.resolve_eq, hmark, Bool.false_eq_true, if_false]
  exact .single (by simp only [change, hs, ho.resolve_eq]) (.inl rfl) (if_neg (by simp [hs])) rfl
    hscopes (Change.at_rethrown hleft)

/-- To throw again what was captured touches no scope. -/
theorem concerns_rethrowCaptured (build : Build) (hnull : h ≠ Handle.null)
    (hx : c.registry.resolve x = h) (hleft : c.registry.At h (Record.Held n false)) :
    Concerns build h c [.rethrowCaptured x] c.scopes (Record.Held n true) := by
  have hxnull := Registry.ne_null_of_resolve hnull hx
  exact .single (by rw [change, if_neg hxnull, hx]) (.inl rfl) rfl rfl rfl
    (Change.at_rethrown hleft)

/-- To capture adds a reference to the exception of the innermost scope. -/
theorem concerns_capture {m : Bool} (hnull : h ≠ Handle.null) (ho : c.registry.Owns h)
    (hs : c.scopes = h :: s) (hleft : c.registry.At h (Record.Held n m)) :
    Concerns build h c [.capture] (h :: s) (Record.Held (n + 1) m) :=
  .single (by rw [change, top_of_scopes hs, ho.resolve_eq]) (.inl rfl) rfl rfl hs
    (Change.at_retained hnull hleft)

/-- To go on with an exception changes nothing of it. -/
theorem concerns_resume {Q : Record → Prop} (build : Build) (x : Handle)
    (hleft : c.registry.At h Q) : Concerns build h c [.resume x] c.scopes Q :=
  .single rfl (.inr rfl) rfl rfl rfl hleft

omit [Allocator α] in
/-- A reference that is held can be given back, and so can one to what has ended. -/
theorem underflow?_of_at {m : Bool} (hleft : c.registry.At h (Record.Held n m)) :
    c.underflow? h = none := by
  rw [underflow?, if_neg]
  rintro ⟨-, hlive, hzero⟩
  obtain ⟨r, hr⟩ := (Registry.contains_iff _ _).1 hlive
  rw [Registry.refs_of_find? hr] at hzero
  have hpos := (hleft r hr).pos
  omega

/-- A captured exception is given back under its own handle. -/
theorem concerns_releaseAny (hnull : h ≠ Handle.null) (ho : c.registry.Owns h)
    (hleft : c.registry.At h (Record.Held (n + 1) false)) :
    Concerns build h c [.releaseAny h] c.scopes (Record.Held n false) :=
  .single (by rw [change, ho.resolve_eq]) (.inl rfl)
    (by rw [misuse?, ho.resolve_eq, underflow?_of_at hleft]) rfl rfl
    (Change.at_released hnull hleft)

omit [Allocator α] in
/-- The end of a scope is no misuse while the exception is held, or after its end. -/
theorem misuse?_endCatch_of_at {m : Bool} (ho : c.registry.Owns h) (hs : c.scopes = h :: s)
    (hheld : c.registry.At h (Record.Held n m)) : c.misuse? .endCatch = none := by
  simp only [misuse?, hs, ho.resolve_eq, underflow?_of_at hheld]

/-- A scope of the exception ends. -/
theorem concerns_endCatch {m : Bool} {Q : Record → Prop} (ho : c.registry.Owns h)
    (hs : c.scopes = h :: s) (hheld : c.registry.At h (Record.Held n m))
    (hleft : ((Change.released h).on c.registry).At h Q) :
    Concerns build h c [.endCatch] s Q :=
  .single (by rw [change, top_of_scopes hs, ho.resolve_eq]) (.inl rfl)
    (misuse?_endCatch_of_at ho hs hheld) rfl (by rw [scopesAfter, hs, List.tail_cons]) hleft

/-! ## What is thrown last -/

/-- What is thrown last after these calls is what the next handler looks at. After a rethrow it is
the exception of the scope. -/
theorem lastThrown_rethrow (build : Build) (ho : c.registry.Owns h) (hs : c.scopes = h :: s) :
    (c.follow build [.rethrow]).lastThrown = h := by
  have hstate : (c.follow build [.rethrow]).lastThrown = (c.rethrow build).state.lastThrown := rfl
  rw [hstate, state_rethrow build c hs, ho.resolve_eq]

theorem lastThrown_rethrowCaptured (build : Build) (hnull : h ≠ Handle.null)
    (hx : c.registry.resolve x = h) : (c.follow build [.rethrowCaptured x]).lastThrown = h := by
  have hxnull := Registry.ne_null_of_resolve hnull hx
  have hstate : (c.follow build [.rethrowCaptured x]).lastThrown =
      (c.rethrowCaptured build x).state.lastThrown := rfl
  rw [hstate, state_rethrowCaptured build c hxnull, hx]

/-- After the end of a scope nothing counts as thrown last. -/
theorem lastThrown_endCatch {t : Handle} (build : Build) (hnull : t ≠ Handle.null)
    (hs : c.scopes = t :: s) (hm : c.misuse? .endCatch = none) :
    (c.follow build [.endCatch]).lastThrown = Handle.null := by
  have hstate : (c.follow build [.endCatch]).lastThrown =
      (c.endCatch build .quiet).state.lastThrown := rfl
  rw [hstate, state_endCatch_quiet build hnull hs hm, released]
  split <;> rfl

/-- A reference that is given back does not touch what was thrown last. -/
theorem lastThrown_releaseAny (build : Build) :
    (c.follow build [.releaseAny x]).lastThrown = c.lastThrown := by
  have hstate : (c.follow build [.releaseAny x]).lastThrown =
      (c.releaseAny build .quiet x).state.lastThrown := rfl
  rw [hstate, releaseAny, resolve_andThen, Step.state_after, state_release, released]
  split <;> rfl

/-- To resume under some name is to throw last what goes by it, if nothing else has been. -/
theorem lastThrown_resume (build : Build) :
    (c.follow build [.resume x]).lastThrown =
      if c.lastThrown.isNull then x else c.lastThrown := rfl

/-! ## Restoring what was found -/

/-- The calls `l` leave alive what was alive and open what was open. What was thrown last stays,
or nothing counts as thrown last. -/
structure Restores (build : Build) (c : Context α) (l : List Operation) : Prop where
  registry : (c.follow build l).registry = c.registry
  scopes : (c.follow build l).scopes = c.scopes
  lastThrown : (c.follow build l).lastThrown = c.lastThrown ∨
    (c.follow build l).lastThrown = Handle.null
  orderly : c.Orderly build l

namespace Restores

variable {l m : List Operation}

theorem nil (build : Build) (c : Context α) : Restores build c [] :=
  ⟨rfl, rfl, .inl rfl, trivial⟩

/-- Two runs of calls that restore what they found do so together. Once nothing counts as thrown
last, this stays. -/
theorem append (hl : Restores build c l) (hm : Restores build (c.follow build l) m) :
    Restores build c (l ++ m) := by
  refine ⟨?_, ?_, ?_, orderly_append hl.orderly hm.orderly⟩
  · rw [follow_append, hm.registry, hl.registry]
  · rw [follow_append, hm.scopes, hl.scopes]
  · rw [follow_append]
    rcases hm.lastThrown with hsame | hnone
    · exact hl.lastThrown.imp hsame.trans hsame.trans
    · exact .inr hnone

end Restores

namespace Concerns

variable {l m : List Operation} {Q : Record → Prop}

/-- What restores what it found concerns nobody. -/
theorem restores (hl : Concerns build h c l s Q) (hm : Restores build (c.follow build l) m) :
    Concerns build h c (l ++ m) s Q := by
  refine hl.append ⟨?_, hm.scopes.trans hl.scopes, ?_, hm.orderly⟩
  · rw [hm.registry]
  · rw [hm.registry]
    exact hl.left

/-- A handler that has come so far rethrows. Its scope stays open and the exception is on its way.
-/
theorem rethrow (hl : Concerns build h c l (h :: s) (Record.Held n false))
    (ho : c.registry.Owns h) :
    Concerns build h c (l ++ [.rethrow]) (h :: s) (Record.Held n true) ∧
      (c.follow build (l ++ [.rethrow])).lastThrown = h := by
  refine ⟨hl.append (concerns_rethrow (hl.owns ho) hl.scopes hl.left), ?_⟩
  rw [follow_append]
  exact lastThrown_rethrow build (hl.owns ho) hl.scopes

/-- A handler that has come so far ends its scope. What becomes of the exception depends on the
references it has, which is the caller's business. -/
theorem endCatch {m : Bool} {Q : Record → Prop}
    (hl : Concerns build h c l (h :: s) (Record.Held n m)) (ho : c.registry.Owns h)
    (hnull : h ≠ Handle.null)
    (hleft : ∀ g : Registry, g.At h (Record.Held n m) → ((Change.released h).on g).At h Q) :
    Concerns build h c (l ++ [.endCatch]) s Q ∧
      (c.follow build (l ++ [.endCatch])).lastThrown = Handle.null := by
  refine ⟨hl.append (concerns_endCatch (hl.owns ho) hl.scopes hl.left (hleft _ hl.left)), ?_⟩
  rw [follow_append]
  exact lastThrown_endCatch build hnull hl.scopes
    (misuse?_endCatch_of_at (hl.owns ho) hl.scopes hl.left)

/-- If no reference to a new exception is left, nothing of it is. -/
theorem restores_of_unknown {m : Bool} (hl : Concerns build h c l c.scopes (Record.Held 0 m))
    (hnew : c.registry.find? h = none)
    (hnone : (c.follow build l).lastThrown = Handle.null) : Restores build c l := by
  refine ⟨?_, hl.scopes, .inr hnone, hl.orderly⟩
  rw [← Registry.erase_of_find?_none hl.left.find?_eq_none, hl.others,
    Registry.erase_of_find?_none hnew]

end Concerns

end Context

open Context

/-! ## Handlers -/

section Tidy

variable (α : Type) [Allocator α] (build : Build)

/-- A program restores what it found. -/
def Segment.Tidy (s : Segment) : Prop :=
  ∀ c : Context α, s.Fits build c → c.Restores build s.operations

/-- A handler gives back the references it takes, or the exception has ended. -/
def Handler.Tidy (handler : Handler) : Prop :=
  ∀ (c : Context α) (h : Handle) (n : Nat), h ≠ Handle.null → c.registry.Owns h →
    c.registry.resolve c.lastThrown = h → c.registry.At h (·.refcount.toNat ≤ n) →
    handler.Fits build c h →
    c.Concerns build h handler.operations c.scopes (Record.Held n false) ∧
      (c.follow build handler.operations).lastThrown = Handle.null

/-- Whatever is done with a captured exception, there are no more references to it than before. -/
def Aftermath.Tidy (later : Aftermath) : Prop :=
  ∀ (c : Context α) (h : Handle) (n : Nat), h ≠ Handle.null → c.registry.Owns h →
    c.registry.At h (Record.Held n false) → later.Fits build c h →
    c.Concerns build h later.operations c.scopes (Record.Held n false) ∧
      ((c.follow build later.operations).lastThrown = c.lastThrown ∨
        (c.follow build later.operations).lastThrown = Handle.null)

end Tidy

variable {α : Type} [Allocator α] {build : Build}

namespace Handler

variable {landing : Landing} {body : Segment} {again : Handler}

/-- A handler of one scope: it lands, runs its body and ends. -/
theorem tidy_scope (hbody : body.Tidy α build) : (scope landing body).Tidy α build := by
  intro c h n hnull ho hlead hleft hf
  obtain ⟨hfl, hfb⟩ := hf
  -- the body restores what it found, so the scope that ends is the one that was begun
  have hran := (concerns_landing hnull hlead hleft hfl).restores (hbody _ hfb)
  have hclosed := hran.endCatch ho hnull fun g => Change.at_released hnull
  rw [List.append_assoc] at hclosed
  exact hclosed

/-- A handler that rethrows to one within its own scope. -/
theorem tidy_nested (hbody : body.Tidy α build) (hagain : again.Tidy α build) :
    (nested landing body again).Tidy α build := by
  intro c h n hnull ho hlead hleft hf
  obtain ⟨hfl, hfb, hfa⟩ := hf
  have hran := (concerns_landing hnull hlead hleft hfl).restores (hbody _ hfb)
  obtain ⟨hthrown, hlast⟩ := hran.rethrow ho
  rw [← follow_append, ← List.append_assoc] at hfa
  -- the handler inside finds one reference more, that of the scope around it
  have howns := hthrown.owns ho
  obtain ⟨hinside, -⟩ := hagain _ h (n + 1) hnull howns (by rw [hlast, howns.resolve_eq])
    (fun r hr => (hthrown.left r hr).le) hfa
  rw [hthrown.scopes] at hinside
  have hclosed := (hthrown.append hinside).endCatch ho hnull fun g => Change.at_released hnull
  have hops : (nested landing body again).operations =
      landing.operations ++ body.operations ++ [.rethrow] ++ again.operations ++ [.endCatch] := by
    simp [operations]
  rw [hops]
  exact hclosed

/-- A handler that rethrows, ends its scope on the way out and lands in the next one. -/
theorem tidy_outward {x : Handle} (hbody : body.Tidy α build) (hagain : again.Tidy α build) :
    (outward landing body x again).Tidy α build := by
  intro c h n hnull ho hlead hleft hf
  obtain ⟨hfl, hfb, hx, hfa⟩ := hf
  have hran := (concerns_landing hnull hlead hleft hfl).restores (hbody _ hfb)
  obtain ⟨hthrown, -⟩ := hran.rethrow ho
  -- the scope ends while the exception is on its way, which keeps it
  obtain ⟨hclosed, hnone⟩ := hthrown.endCatch ho hnull fun g =>
    Change.at_released_of_rethrown hnull
  have hway : (c.follow build landing.operations).follow build
      (body.operations ++ [.rethrow, .endCatch]) = c.follow build
      (landing.operations ++ body.operations ++ [.rethrow] ++ [.endCatch]) := by
    rw [← follow_append]
    simp
  rw [hway] at hx hfa
  have hops : (outward landing body x again).operations =
      landing.operations ++ body.operations ++ [.rethrow] ++ [.endCatch] ++ [.resume x] ++
        again.operations := by
    simp [operations]
  rw [hops]
  -- all that matters of these calls from here on is what they concern
  generalize landing.operations ++ body.operations ++ [.rethrow] ++ [.endCatch] = l at *
  have hresumed := hclosed.append (concerns_resume build x hclosed.left)
  rw [hclosed.scopes] at hresumed
  have hlast : (c.follow build (l ++ [.resume x])).lastThrown = x := by
    rw [follow_append, lastThrown_resume, hnone]
    rfl
  have hregistry : (c.follow build (l ++ [.resume x])).registry = (c.follow build l).registry := by
    rw [follow_append]
    rfl
  rw [← follow_append] at hfa
  obtain ⟨hfurther, hnone'⟩ := hagain _ h n hnull (hresumed.owns ho)
    (by rw [hlast, hregistry, hx]) hresumed.left hfa
  rw [hresumed.scopes] at hfurther
  refine ⟨hresumed.append hfurther, ?_⟩
  rw [follow_append]
  exact hnone'

end Handler

namespace Aftermath

variable {body : Segment} {handler : Handler} {later : Aftermath}

theorem tidy_done : done.Tidy α build := fun _ _ _ _ _ hleft _ => ⟨.nil hleft, .inl rfl⟩

/-- A program runs while the exception is captured. -/
theorem tidy_segment (hbody : body.Tidy α build) (hlater : later.Tidy α build) :
    (segment body later).Tidy α build := by
  intro c h n hnull ho hleft hf
  obtain ⟨hfb, hfl⟩ := hf
  have hrestores := hbody c hfb
  have hran := (Concerns.nil hleft).restores hrestores
  obtain ⟨hrest, hlast⟩ := hlater _ h n hnull (hran.owns ho) hran.left hfl
  rw [hran.scopes] at hrest
  refine ⟨hran.append hrest, ?_⟩
  rw [operations, follow_append]
  rcases hlast with hsame | hnone
  · exact hrestores.lastThrown.imp hsame.trans hsame.trans
  · exact .inr hnone

/-- The captured exception is thrown again and handled. -/
theorem tidy_rethrow {x : Handle} (hhandler : handler.Tidy α build) (hlater : later.Tidy α build) :
    (rethrow x handler later).Tidy α build := by
  intro c h n hnull ho hleft hf
  obtain ⟨hx, hfh, hfl⟩ := hf
  have hthrown := concerns_rethrowCaptured build hnull hx hleft
  have howns := hthrown.owns ho
  have hlead := lastThrown_rethrowCaptured build hnull hx
  obtain ⟨hhandled, hnone⟩ := hhandler _ h n hnull howns (by rw [hlead, howns.resolve_eq])
    (fun r hr => (hthrown.left r hr).le) hfh
  rw [hthrown.scopes] at hhandled
  have hran := hthrown.append hhandled
  rw [← follow_append] at hfl hnone
  obtain ⟨hrest, hlast⟩ := hlater _ h n hnull (hran.owns ho) hran.left hfl
  rw [hran.scopes] at hrest
  have hops : (rethrow x handler later).operations =
      [.rethrowCaptured x] ++ handler.operations ++ later.operations := by
    simp [operations]
  rw [hops]
  -- the handler ended with nothing thrown last, and what follows leaves it so
  refine ⟨hran.append hrest, .inr ?_⟩
  rw [follow_append]
  exact hlast.elim (·.trans hnone) id

end Aftermath

namespace Segment

variable {first second before after : Segment} {handler : Handler} {landing : Landing}
  {later : Aftermath} {h : Handle} {type : Option TypeTag} {d : Option Destructor}

theorem tidy_empty : empty.Tidy α build := fun c _ => .nil build c

/-- Of two programs the second begins in what the first has restored. -/
theorem tidy_seq (hfirst : first.Tidy α build) (hsecond : second.Tidy α build) :
    (seq first second).Tidy α build :=
  fun c hf => (hfirst c hf.1).append (hsecond _ hf.2)

/-- An exception is thrown and handled. It is new to the context, and nothing is left of it. -/
theorem tidy_handled (hhandler : handler.Tidy α build) :
    (handled h type d handler).Tidy α build := by
  intro c hf
  obtain ⟨hnull, hfree, hfh⟩ := hf
  have hthrown := concerns_throw build (c := c) (h := h) type d
  have howns := hthrown.owns hfree.owns
  obtain ⟨hhandled, hnone⟩ := hhandler _ h 0 hnull howns howns.resolve_eq hthrown.left hfh
  rw [hthrown.scopes] at hhandled
  exact (hthrown.append hhandled).restores_of_unknown hfree.1 hnone

/-- An exception is thrown, captured in its scope, and given back at last. Between the end of the
scope and that, the reference of the client is the only one. -/
theorem tidy_captured (hbefore : before.Tidy α build) (hafter : after.Tidy α build)
    (hlater : later.Tidy α build) :
    (captured h type d landing before after later).Tidy α build := by
  intro c hf
  obtain ⟨hnull, hfree, hfl, hfb, hfa, hfr⟩ := hf
  have hthrown := concerns_throw build (c := c) (h := h) type d
  have howns := hthrown.owns hfree.owns
  -- from here on every call is looked at from where the program began
  simp only [← follow_append, ← List.append_assoc] at hfb hfa hfr
  have hentered := hthrown.append
    (concerns_landing hnull howns.resolve_eq hthrown.left hfl)
  have hran := hentered.restores (hbefore _ hfb)
  have hcaptured := hran.append
    (concerns_capture hnull (hran.owns hfree.owns) hran.scopes hran.left)
  have hran' := hcaptured.restores (hafter _ hfa)
  -- the reference of the client outlives that of the scope
  obtain ⟨hclosed, hnone⟩ := hran'.endCatch hfree.owns hnull fun g => Change.at_released hnull
  obtain ⟨hrest, hlast⟩ := hlater _ h 1 hnull (hclosed.owns hfree.owns) hclosed.left hfr
  rw [hclosed.scopes] at hrest
  have hkept := hclosed.append hrest
  have hgiven := hkept.append
    (concerns_releaseAny hnull (hkept.owns hfree.owns) hkept.left)
  have hops : (captured h type d landing before after later).operations =
      [.throw h type d] ++ landing.operations ++ before.operations ++ [.capture] ++
        after.operations ++ [.endCatch] ++ later.operations ++ [.releaseAny h] := by
    simp [operations]
  rw [hops]
  rw [hkept.scopes, hthrown.scopes] at hgiven
  refine hgiven.restores_of_unknown hfree.1 ?_
  rw [follow_append, lastThrown_releaseAny, follow_append]
  exact hlast.elim (·.trans hnone) id

end Segment

/-! ## Programs -/

mutual

/-- Every program restores what it found. The three kinds of tree are one inside of the other, so
this is one induction. -/
theorem Segment.tidy (α : Type) [Allocator α] (build : Build) : (s : Segment) → s.Tidy α build
  | .empty => Segment.tidy_empty
  | .seq first second => Segment.tidy_seq (first.tidy α build) (second.tidy α build)
  | .handled _ _ _ handler => Segment.tidy_handled (handler.tidy α build)
  | .captured _ _ _ _ before after later =>
    Segment.tidy_captured (before.tidy α build) (after.tidy α build) (later.tidy α build)

theorem Handler.tidy (α : Type) [Allocator α] (build : Build) :
    (handler : Handler) → handler.Tidy α build
  | .scope _ body => Handler.tidy_scope (body.tidy α build)
  | .nested _ body again => Handler.tidy_nested (body.tidy α build) (again.tidy α build)
  | .outward _ body _ again => Handler.tidy_outward (body.tidy α build) (again.tidy α build)

theorem Aftermath.tidy (α : Type) [Allocator α] (build : Build) :
    (later : Aftermath) → later.Tidy α build
  | .done => Aftermath.tidy_done
  | .segment body later => Aftermath.tidy_segment (body.tidy α build) (later.tidy α build)
  | .rethrow _ handler later => Aftermath.tidy_rethrow (handler.tidy α build) (later.tidy α build)

end

end ExceptionLifetime
