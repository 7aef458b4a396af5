/-
What the operations of a context leave behind, and what they let others see of
storage.

Each operation is described once, from outside: how it ends, the context it
leaves, the destructor it has called, the storage it has handed back. The proofs
further on cite these descriptions and do not open the operations again.
-/
import ExceptionLifetime.Context.Operation
import ExceptionLifetime.Proofs.Registry

set_option autoImplicit false

namespace ExceptionLifetime

/-! ## Chaining a call whose ending is known -/

namespace Step

variable {σ β γ : Type}

@[simp] theorem mk_returned_andThen (b : β) (s : σ) (t : List Observation)
    (next : β → σ → Step σ γ) :
    (⟨.returned b, s, t⟩ : Step σ β).andThen next = (next b s).after t := rfl

@[simp] theorem mk_panicked_andThen (p : Panic) (s : σ) (t : List Observation)
    (next : β → σ → Step σ γ) :
    (⟨.panicked p, s, t⟩ : Step σ β).andThen next = ⟨.panicked p, s, t⟩ := rfl

end Step

/-! ## Destructors and storage -/

/-- How the destructor of an exception ends if it is called now. Where there is none, nothing
can go wrong. -/
def Conduct.outcome (conduct : Conduct) : Option Destructor → Outcome Unit
  | none => .returned ()
  | some d =>
    match conduct d with
    | .returns => .returned ()
    | .panics message => .panicked (.client message)
    | .transfers h => .transferred h

/-- Whether a call comes to its end. -/
def Outcome.isReturned {β : Type} : Outcome β → Bool
  | .returned _ => true
  | _ => false

/-- Nothing keeps the destruction of an exception from coming to its end. -/
def Conduct.finishes (conduct : Conduct) (d : Option Destructor) : Bool :=
  (conduct.outcome d).isReturned

/-- Destructors that all return. -/
def Conduct.quiet : Conduct := fun _ => .returns

@[simp] theorem Conduct.outcome_quiet (d : Option Destructor) :
    Conduct.quiet.outcome d = .returned () := by
  cases d <;> rfl

@[simp] theorem Conduct.finishes_quiet (d : Option Destructor) :
    Conduct.quiet.finishes d = true := by
  simp [Conduct.finishes, Outcome.isReturned]

/-- The allocator after it was asked to take back `h`, which it may refuse. -/
def discard {α : Type} [Allocator α] (a : α) (h : Handle) : α :=
  match Allocator.free a h with
  | .ok a' => a'
  | .error _ => a

/-- The exception that ends when a reference to `h` is given back, if one does. -/
def Registry.dying? (g : Registry) (h : Handle) : Option Record :=
  if h.isNull then none else (g.find? h).filter Record.isLast

/-- An exception ends with a reference if the handle is its own, and not null, and no other
reference is left. -/
theorem Registry.dying?_eq_some_iff {g : Registry} {h : Handle} {r : Record} :
    g.dying? h = some r ↔ h ≠ Handle.null ∧ g.find? h = some r ∧ r.isLast = true := by
  unfold dying?
  split
  next hn => simp [(Handle.isNull_iff h).1 hn]
  next hn =>
    rw [Bool.not_eq_true, Handle.isNull_eq_false_iff] at hn
    rw [Option.filter_eq_some_iff]
    simp [hn]

/-- Where there is no exception, none ends. -/
theorem Registry.dying?_of_find?_none {g : Registry} {h : Handle} (hr : g.find? h = none) :
    g.dying? h = none := by
  rw [dying?, hr]
  exact ite_self none

/-- The exception that ends is taken out. -/
theorem Registry.release_of_dying? {g : Registry} {h : Handle} {r : Record}
    (hd : g.dying? h = some r) : g.release h = g.erase r.handle := by
  obtain ⟨hnull, hr, hl⟩ := dying?_eq_some_iff.1 hd
  have hl' := hl
  rw [Record.isLast, Bool.and_eq_true, Bool.not_eq_true'] at hl'
  simp [release, hnull, hr, hl'.1, hl'.2, handle_of_find? hr]

/-! ## Observations -/

/-- The destructor calls among observations: which destructor, and with what handle. -/
def destructions (t : List Observation) : List (Nat × Handle) :=
  t.filterMap fun
    | .destroyed label h => some (label, h)
    | _ => none

/-- The handles that were handed back to the allocator, whether or not it took them. -/
def handedBack (t : List Observation) : List Handle :=
  t.filterMap fun
    | .freed h _ => some h
    | _ => none

@[simp] theorem destructions_nil : destructions [] = [] := rfl

@[simp] theorem handedBack_nil : handedBack [] = [] := rfl

@[simp] theorem destructions_append (s t : List Observation) :
    destructions (s ++ t) = destructions s ++ destructions t := List.filterMap_append

@[simp] theorem handedBack_append (s t : List Observation) :
    handedBack (s ++ t) = handedBack s ++ handedBack t := List.filterMap_append

@[simp] theorem destructions_logged (e : LogEntry) (t : List Observation) :
    destructions (.logged e :: t) = destructions t := rfl

@[simp] theorem handedBack_logged (e : LogEntry) (t : List Observation) :
    handedBack (.logged e :: t) = handedBack t := rfl

/-- No destructor was called and no storage was handed back. -/
def Silent (t : List Observation) : Prop := destructions t = [] ∧ handedBack t = []

namespace Context

variable {α : Type}

/-- What is shown to the sink calls no destructor. -/
@[simp] theorem destructions_seen (c : Context α) (e : Event) : destructions (c.seen e) = [] := by
  unfold seen
  split <;> rfl

@[simp] theorem handedBack_seen (c : Context α) (e : Event) : handedBack (c.seen e) = [] := by
  unfold seen
  split <;> rfl

/-- To report which exception a name leads to calls no destructor. -/
@[simp] theorem destructions_resolution (c : Context α) (h : Handle) :
    destructions (c.resolution h) = [] := by
  unfold resolution Registry.resolution
  repeat' split
  all_goals rfl

@[simp] theorem handedBack_resolution (c : Context α) (h : Handle) :
    handedBack (c.resolution h) = [] := by
  unfold resolution Registry.resolution
  repeat' split
  all_goals rfl

/-- To resolve a handle is to go on with where it leads. -/
@[simp] theorem resolve_andThen {β : Type} (c : Context α) (h : Handle)
    (next : Handle → Context α → Step (Context α) β) :
    (c.resolve h).andThen next = (next (c.registry.resolve h) c).after (c.resolution h) := rfl

/-- The exception of the innermost catch scope. -/
def top (c : Context α) : Handle := c.scopes.headD Handle.null

/-- Outside of all scopes the exception to handle is null. -/
theorem top_of_scopes_nil {c : Context α} (hs : c.scopes = []) : c.top = Handle.null := by
  rw [top, hs, List.headD_nil]

/-- The exception to handle is that of the innermost scope. -/
theorem top_of_scopes {c : Context α} {t : Handle} {rest : List Handle}
    (hs : c.scopes = t :: rest) : c.top = t := by
  rw [top, hs, List.headD_cons]

/-! ## The contexts that calls leave -/

/-- To take a reference changes the record of its exception, and nothing else. -/
theorem state_retain (c : Context α) (h : Handle) :
    (c.retain h).state = { c with registry := c.registry.retain h } := by
  by_cases hn : h.isNull = true
  · simp [retain, Registry.retain, hn, Step.returning]
  · cases hr : c.registry.find? h with
    | none => simp [retain, Registry.retain, Registry.modify, hn, hr]
    | some r => simp [retain, Registry.retain, Registry.modify, hn, hr]

/-- A reference may be taken by any name of the exception. -/
theorem state_retainAny (c : Context α) (h : Handle) :
    (c.retainAny h).state = { c with registry := c.registry.retain (c.registry.resolve h) } := by
  simp [retainAny, state_retain]

/-- To capture is to refer once more to the exception of the innermost scope. Where there is none,
the null handle makes it nothing. -/
theorem state_capture (c : Context α) :
    c.capture.state = { c with registry := c.registry.retain (c.registry.resolve c.top) } := by
  by_cases hs : c.scopes = []
  · have hcap : c.capture = .returning c Handle.null := by simp [capture, hs]
    rw [hcap, top_of_scopes_nil hs, Registry.resolve_null, Registry.retain_null, Step.returning]
  · obtain ⟨t, rest, hs⟩ := List.exists_cons_of_ne_nil hs
    rw [top_of_scopes hs]
    by_cases hn : t = Handle.null
    · have hcap : c.capture = .returning c Handle.null := by simp [capture, hs, hn]
      rw [hcap, hn, Registry.resolve_null, Registry.retain_null, Step.returning]
    · have hcap : c.capture = (c.resolve t).andThen fun h c => (c.retain h).map fun _ => h := by
        simp [capture, hs, hn]
      rw [hcap, resolve_andThen, Step.state_after, Step.state_map, state_retain]

/-- To catch is to mark the exception as caught, to refer to it once more and to open a scope. What
the uncaught count has to do with it is left to `noteCaught`. -/
theorem state_beginCatch (c : Context α) (h : Handle) :
    (c.beginCatch h).state =
      { c.noteCaught (c.registry.resolve h) with
        registry := (c.registry.modify (c.registry.resolve h) Record.nowCaught).retain
          (c.registry.resolve h)
        scopes := c.registry.resolve h :: c.scopes } := by
  have hscopes : ∀ k, (c.noteCaught k).scopes = c.scopes := by
    intro k
    unfold noteCaught
    split <;> rfl
  have hregistry : ∀ k, (c.noteCaught k).registry = c.registry.modify k Record.nowCaught := by
    intro k
    cases hr : c.registry.find? k with
    | none => simp [noteCaught, Registry.modify, hr]
    | some r => simp [noteCaught, Registry.modify, hr]
  simp [beginCatch, state_retain, hscopes, hregistry]

/-- To mark an exception as rethrown is to change its record, and the scope stays open unless
the mark was there. -/
theorem noteRethrown_eq (c : Context α) (h : Handle) :
    c.noteRethrown h =
      { c with
        registry := c.registry.modify h Record.nowRethrown
        scopes := if (c.registry.find? h).any Record.rethrown then c.scopes
          else h :: c.scopes } := by
  unfold noteRethrown Registry.modify
  split
  next r hr =>
    split
    next hm =>
      -- a mark that is there already is set once more
      have hsame : r.nowRethrown = r := by
        unfold Record.nowRethrown
        rw [← hm]
      have hins : c.registry.insert r.nowRethrown = c.registry := by
        rw [hsame]
        exact Registry.insert_of_find? (by rw [Registry.handle_of_find? hr, hr])
      simp [hr, hm, hins]
    next hm => simp [hr, hm]
  next hr => simp [hr]

/-- A rethrow marks the exception as on its way and leaves the scope open, unless it is on its way
already. -/
theorem state_rethrow {t : Handle} {rest : List Handle} (build : Build) (c : Context α)
    (hs : c.scopes = t :: rest) :
    (c.rethrow build).state =
      { c with
        registry := c.registry.modify (c.registry.resolve t) Record.nowRethrown
        scopes := if (c.registry.find? (c.registry.resolve t)).any Record.rethrown then rest
          else c.registry.resolve t :: rest
        lastThrown := c.registry.resolve t
        threw := true } := by
  simp [rethrow, hs, launch, noteRethrown_eq]

/-- A rethrow without a scope changes nothing, in either build. -/
theorem state_rethrow_nil (build : Build) (c : Context α) (hs : c.scopes = []) :
    (c.rethrow build).state = c := by
  cases build <;> simp [rethrow, hs, reported, Step.panicking, Step.aborting]

/-- A captured exception is rethrown without a trace on the open scopes. -/
theorem state_rethrowCaptured {h : Handle} (build : Build) (c : Context α)
    (hnull : h ≠ Handle.null) :
    (c.rethrowCaptured build h).state =
      { c with
        registry := c.registry.modify (c.registry.resolve h) Record.nowRethrown
        lastThrown := c.registry.resolve h
        threw := true } := by
  have hn : h.isNull = false := (Handle.isNull_eq_false_iff h).2 hnull
  unfold rethrowCaptured
  rw [hn, if_neg Bool.false_ne_true, resolve_andThen, Step.state_after]
  split
  next hr => simp [launch, Registry.modify, hr]
  next r hr =>
    -- the exception is marked before the rethrow, which then closes the scope opened for it
    have hh := Registry.handle_of_find? hr
    have hfind : (c.registry.insert r.nowRethrown).find? (c.registry.resolve h)
        = some r.nowRethrown := by
      rw [Registry.find?_insert, if_pos (show r.nowRethrown.handle = _ from hh)]
    have hres := Registry.resolve_of_find? hfind
    have hagain : (c.registry.insert r.nowRethrown).insert r.nowRethrown.nowRethrown
        = c.registry.insert r.nowRethrown := Registry.insert_insert rfl
    have hany : ((c.registry.insert r.nowRethrown).find? (c.registry.resolve h)).any
        Record.rethrown = true := by
      rw [hfind]
      rfl
    rw [state_rethrow build _ rfl]
    simp only [hres, hany, if_true, Registry.modify_of_find? hfind, hagain,
      Registry.modify_of_find? hr]

/-- The null handle captures nothing, and there is nothing to throw again. -/
theorem state_rethrowCaptured_null (build : Build) (c : Context α) :
    (c.rethrowCaptured build Handle.null).state = c := by
  simp [rethrowCaptured, Step.returning]

/-! ## Choosing a clause -/

/-- The exception in flight, and the value that the first accepting clause receives of it. -/
def choice? (c : Context α) (clauses : List TypeTag) : Option (Handle × Handle) :=
  let h := c.registry.resolve c.lastThrown
  if h.isNull then none
  else
    ((c.registry.find? h).bind Record.type).bind fun type =>
      (c.types.firstClause? clauses type h).map fun m => (h, m.1)

/-- What the landing pad receives, if the choice comes to its end. -/
def selection (c : Context α) (clauses : List TypeTag) : MatchedClause :=
  let h := c.registry.resolve c.lastThrown
  if h.isNull then .nothing
  else
    match (c.registry.find? h).bind Record.type with
    | none => ⟨h, none⟩
    | some type =>
      match c.types.firstClause? clauses type h with
      | some (a, clause) => ⟨a, some clause⟩
      | none => ⟨h, some type⟩

/-- The misuse, if it is one, that the value which the chosen clause receives leads to another
exception already. -/
def collision? (c : Context α) (clauses : List TypeTag) : Option Violation :=
  match c.choice? clauses with
  | none => none
  | some (h, a) =>
    match c.registry.addAlias h a with
    | .ok _ => none
    | .error v => some v

/-- The live exceptions after a clause was chosen. -/
def matched (c : Context α) (clauses : List TypeTag) : Registry :=
  match c.choice? clauses with
  | none => c.registry
  | some (h, a) =>
    match c.registry.addAlias h a with
    | .ok g => g
    | .error _ => c.registry

/-- A choice is made for the exception in flight, which is alive. -/
theorem choice?_eq_some {c : Context α} {clauses : List TypeTag} {h a : Handle}
    (hc : c.choice? clauses = some (h, a)) :
    h = c.registry.resolve c.lastThrown ∧ c.registry.contains h = true := by
  unfold choice? at hc
  simp only at hc
  split at hc
  · cases hc
  · obtain ⟨type, ht, hc⟩ := Option.bind_eq_some_iff.1 hc
    obtain ⟨m, -, hm⟩ := Option.map_eq_some_iff.1 hc
    obtain ⟨r, hr, -⟩ := Option.bind_eq_some_iff.1 ht
    cases hm
    exact ⟨rfl, (Registry.contains_iff _ _).2 ⟨r, hr⟩⟩

/-- What is received is what the chosen clause receives, and the exception itself if no clause is
chosen. -/
theorem exception_selection (c : Context α) (clauses : List TypeTag) :
    (c.selection clauses).exception =
      match c.choice? clauses with
      | some (_, a) => a
      | none => c.registry.resolve c.lastThrown := by
  by_cases hn : c.registry.resolve c.lastThrown = Handle.null
  · simp [selection, choice?, hn, MatchedClause.nothing]
  cases ht : (c.registry.find? (c.registry.resolve c.lastThrown)).bind Record.type with
  | none => simp [selection, choice?, hn, ht]
  | some type =>
    cases hf : c.types.firstClause? clauses type (c.registry.resolve c.lastThrown) <;>
      simp [selection, choice?, hn, ht, hf]

/-- A name is entered if it can be; a refused one leaves the registry as it was, whatever the build
does about it. -/
theorem state_giveAlias (build : Build) (c : Context α) (h a : Handle) :
    (c.giveAlias build h a).state =
      { c with
        registry :=
          match c.registry.addAlias h a with
          | .ok g => g
          | .error _ => c.registry } := by
  cases ha : c.registry.addAlias h a with
  | ok g => simp [giveAlias, ha, Step.returning]
  | error v => cases build <;> simp [giveAlias, ha, Step.returning, Step.panicking]

/-- Two steps that leave the same state alone leave it alone together. So reports may follow a
change without being opened. -/
theorem state_andThen_of_state_eq {σ β γ : Type} {s : σ} (r : Step σ β)
    (next : β → σ → Step σ γ) (hr : r.state = s) (hnext : ∀ b, (next b s).state = s) :
    (r.andThen next).state = s := by
  subst hr
  obtain ⟨o, s, t⟩ := r
  cases o with
  | returned b => exact hnext b
  | transferred _ => rfl
  | panicked _ => rfl
  | aborted _ => rfl

/-- The choice of a clause enters the name that the clause gives to the exception, and nothing else.
-/
theorem state_chooseClause (build : Build) (c : Context α) (h : Handle) (type : TypeTag)
    (clauses : List TypeTag) :
    (c.chooseClause build h type clauses).state =
      { c with
        registry :=
          match c.types.firstClause? clauses type h with
          | some m =>
            match c.registry.addAlias h m.1 with
            | .ok g => g
            | .error _ => c.registry
          | none => c.registry } := by
  unfold chooseClause
  split
  next m clause hm =>
    rw [hm]
    exact state_andThen_of_state_eq _ _ (state_giveAlias build c h m) fun _ => rfl
  next hm => rw [hm]

/-- All that a landing pad changes is the registry, and `matched` says how. -/
theorem state_matchClause (build : Build) (c : Context α) (clauses : List TypeTag) :
    (c.matchClause build clauses).state = { c with registry := c.matched clauses } := by
  by_cases hn : c.registry.resolve c.lastThrown = Handle.null
  · simp [matchClause, matched, choice?, hn, Step.returning]
  · cases ht : (c.registry.find? (c.registry.resolve c.lastThrown)).bind Record.type with
    | none => simp [matchClause, matched, choice?, hn, ht, Step.returning]
    | some type =>
      simp only [matchClause, matched, choice?, resolve_andThen, Handle.isNull_iff, hn, if_false,
        ht, Step.state_after, Option.bind_some]
      refine state_andThen_of_state_eq _ _ ?_ fun _ => rfl
      rw [state_chooseClause]
      cases c.types.firstClause? clauses type (c.registry.resolve c.lastThrown) <;> rfl

/-! ## How calls end that call no destructor -/

/-- To take a reference returns, whether or not there is anything to refer to. -/
theorem outcome_retain (c : Context α) (h : Handle) : (c.retain h).outcome = .returned () := by
  by_cases hn : h = Handle.null
  · simp [retain, hn, Step.returning]
  · cases hr : c.registry.find? h <;> simp [retain, hn, hr]

/-- To capture returns, and if only the null handle. -/
theorem outcome_capture (c : Context α) : ∃ h, c.capture.outcome = .returned h := by
  by_cases hs : c.scopes = []
  · exact ⟨Handle.null, by simp [capture, hs, Step.returning]⟩
  · obtain ⟨t, rest, hs⟩ := List.exists_cons_of_ne_nil hs
    by_cases hn : t = Handle.null
    · exact ⟨Handle.null, by simp [capture, hs, hn, Step.returning]⟩
    · refine ⟨c.registry.resolve t, ?_⟩
      simp [capture, hs, hn, outcome_retain, Outcome.map]

/-- To catch returns the handle of the exception itself, whichever of its names was given. -/
theorem outcome_beginCatch (c : Context α) (h : Handle) :
    (c.beginCatch h).outcome = .returned (c.registry.resolve h) := by
  simp [beginCatch, outcome_retain, Outcome.map]

/-- A rethrow leaves by a transfer of the exception to which the innermost scope leads. -/
theorem outcome_rethrow {t : Handle} {rest : List Handle} (build : Build) (c : Context α)
    (hs : c.scopes = t :: rest) :
    (c.rethrow build).outcome = .transferred (c.registry.resolve t) := by
  simp [rethrow, hs, launch]

/-- A rethrow without a scope is a misuse. The unchecked build cannot go on either: there is no
exception to transfer. -/
theorem outcome_rethrow_nil (build : Build) (c : Context α) (hs : c.scopes = []) :
    (c.rethrow build).outcome =
      match build with
      | .checked => .panicked (.violation .rethrowWithoutException)
      | .unchecked => .aborted .rethrowOutsideCatch := by
  cases build <;> simp [rethrow, hs, Step.panicking, Step.aborting]

/-- To throw again what was captured transfers it, whether it is still alive or not. -/
theorem outcome_rethrowCaptured {h : Handle} (build : Build) (c : Context α)
    (hnull : h ≠ Handle.null) :
    (c.rethrowCaptured build h).outcome = .transferred (c.registry.resolve h) := by
  cases hr : c.registry.find? (c.registry.resolve h) with
  | none => simp [rethrowCaptured, hnull, hr, launch]
  | some r =>
    have hh := Registry.handle_of_find? hr
    have hfind : (c.registry.insert r.nowRethrown).find? (c.registry.resolve h)
        = some r.nowRethrown := by
      rw [Registry.find?_insert, if_pos (show r.nowRethrown.handle = _ from hh)]
    have hout := outcome_rethrow build
      { c with
        registry := c.registry.insert r.nowRethrown
        scopes := c.registry.resolve h :: c.scopes } rfl
    rw [Registry.resolve_of_find? hfind] at hout
    simp [rethrowCaptured, hnull, hr, hout]

/-- The choice returns the first clause that accepts the exception, and the exception as that clause
sees it. A name that is refused is reported before. -/
theorem outcome_chooseClause (build : Build) (c : Context α) (h : Handle) (type : TypeTag)
    (clauses : List TypeTag) :
    (c.chooseClause build h type clauses).outcome =
      match c.types.firstClause? clauses type h with
      | none => .returned ⟨h, some type⟩
      | some (a, clause) =>
        match c.registry.addAlias h a with
        | .ok _ => .returned ⟨a, some clause⟩
        | .error v => (reported build v c (.returning c ⟨a, some clause⟩)).outcome := by
  unfold chooseClause
  cases hm : c.types.firstClause? clauses type h with
  | none => rfl
  | some m =>
    cases ha : c.registry.addAlias h m.1 with
    | ok g => simp [giveAlias, ha, Step.returning]
    | error v => cases build <;> simp [giveAlias, ha, Step.returning, Step.panicking]

/-- A choice of clauses comes to its end unless it is reported as a misuse. -/
theorem outcome_matchClause_eq (build : Build) (c : Context α) (clauses : List TypeTag) :
    (c.matchClause build clauses).outcome =
      match c.collision? clauses with
      | none => .returned (c.selection clauses)
      | some v => (reported build v c (.returning c (c.selection clauses))).outcome := by
  by_cases hn : c.registry.resolve c.lastThrown = Handle.null
  · simp [matchClause, collision?, choice?, selection, hn, Step.returning]
  cases ht : (c.registry.find? (c.registry.resolve c.lastThrown)).bind Record.type with
  | none => simp [matchClause, collision?, choice?, selection, hn, ht, Step.returning]
  | some type =>
    have hchosen := outcome_chooseClause build c (c.registry.resolve c.lastThrown) type clauses
    -- to show the choice to the sink does not change how it ends
    have hshown : ∀ (r : Step (Context α) MatchedClause)
        (f : MatchedClause → Context α → List Observation),
        (r.andThen fun m c => ⟨.returned m, c, f m c⟩).outcome = r.outcome := by
      rintro ⟨o, s, t⟩ f
      cases o <;> rfl
    simp only [matchClause, collision?, choice?, selection, resolve_andThen, Handle.isNull_iff, hn,
      if_false, ht, Step.outcome_after, Option.bind_some, hshown, hchosen]
    cases c.types.firstClause? clauses type (c.registry.resolve c.lastThrown) with
    | none => rfl
    | some m => cases ha : c.registry.addAlias (c.registry.resolve c.lastThrown) m.1 <;> simp [ha]

/-- A landing pad returns, or reports that the name is that of another exception. -/
theorem outcome_matchClause (build : Build) (c : Context α) (clauses : List TypeTag) :
    (∃ m, (c.matchClause build clauses).outcome = .returned m) ∨
      ∃ v, build = .checked ∧ c.collision? clauses = some v ∧
        (c.matchClause build clauses).outcome = .panicked (.violation v) := by
  rw [outcome_matchClause_eq]
  cases c.collision? clauses with
  | none => exact .inl ⟨_, rfl⟩
  | some v =>
    cases build with
    | checked => exact .inr ⟨v, rfl, rfl, rfl⟩
    | unchecked => exact .inl ⟨_, rfl⟩

/-! ## Calls that do not touch storage -/

/-- To take a reference ends nothing and hands nothing back. -/
theorem silent_retain (c : Context α) (h : Handle) : Silent (c.retain h).trace := by
  by_cases hn : h = Handle.null
  · simp [retain, hn, Step.returning, Silent]
  · cases hr : c.registry.find? h with
    | none => simp [retain, hn, hr, Silent]
    | some r => simp [retain, hn, hr, Silent]

/-- To capture an exception ends nothing and hands nothing back. -/
theorem silent_capture (c : Context α) : Silent c.capture.trace := by
  by_cases hs : c.scopes = []
  · simp [capture, hs, Step.returning, Silent]
  · obtain ⟨t, rest, hs⟩ := List.exists_cons_of_ne_nil hs
    by_cases hn : t = Handle.null
    · simp [capture, hs, hn, Step.returning, Silent]
    · have hretain := silent_retain c (c.registry.resolve t)
      simp [capture, hs, hn, Silent, hretain.1, hretain.2]

/-- To catch is no concern of destructors and storage. -/
theorem silent_beginCatch (c : Context α) (h : Handle) : Silent (c.beginCatch h).trace := by
  have hretain := silent_retain
    { c.noteCaught (c.registry.resolve h) with
      scopes := c.registry.resolve h :: (c.noteCaught (c.registry.resolve h)).scopes }
    (c.registry.resolve h)
  simp [beginCatch, Silent, hretain.1, hretain.2]

/-- A rethrow ends nothing and hands nothing back, also when it is of nothing. -/
theorem silent_rethrow (build : Build) (c : Context α) : Silent (c.rethrow build).trace := by
  by_cases hs : c.scopes = []
  · cases build <;> simp [rethrow, hs, Silent, Step.panicking, Step.aborting]
  · obtain ⟨t, rest, hs⟩ := List.exists_cons_of_ne_nil hs
    simp only [rethrow, hs, resolve_andThen, Step.trace_after, launch]
    split <;> simp [Silent]

/-- A rethrow of a captured exception ends nothing and hands nothing back. -/
theorem silent_rethrowCaptured (build : Build) (c : Context α) (h : Handle) :
    Silent (c.rethrowCaptured build h).trace := by
  by_cases hn : h = Handle.null
  · simp [rethrowCaptured, hn, Step.returning, Silent]
  · cases hr : c.registry.find? (c.registry.resolve h) with
    | none => simp [rethrowCaptured, hn, hr, launch, Silent]
    | some r =>
      have hrethrow := silent_rethrow build
        { c with
          registry := c.registry.insert r.nowRethrown
          scopes := c.registry.resolve h :: c.scopes }
      simp [rethrowCaptured, hn, hr, Silent, hrethrow.1, hrethrow.2]

/-- Calls that leave destructors and storage alone do so one after the other. -/
theorem silent_andThen {σ β γ : Type} (r : Step σ β) (next : β → σ → Step σ γ)
    (hr : Silent r.trace) (hnext : ∀ b s, Silent (next b s).trace) :
    Silent (r.andThen next).trace := by
  obtain ⟨o, s, t⟩ := r
  cases o with
  | returned b =>
    obtain ⟨hd, hb⟩ := hnext b s
    simp [Step.andThen, Silent, hd, hb, hr.1, hr.2]
  | transferred _ => exact hr
  | panicked _ => exact hr
  | aborted _ => exact hr

/-- A landing pad leaves destructors and storage alone. -/
theorem silent_matchClause (build : Build) (c : Context α) (clauses : List TypeTag) :
    Silent (c.matchClause build clauses).trace := by
  -- what a pad says is logged or shown, neither of which is looked at here
  have hgive : ∀ (c : Context α) h a, Silent (c.giveAlias build h a).trace := by
    intro c h a
    cases ha : c.registry.addAlias h a with
    | ok g => simp [giveAlias, ha, Step.returning, Silent]
    | error v => cases build <;> simp [giveAlias, ha, Step.returning, Step.panicking, Silent]
  have hchoose : ∀ (c : Context α) h type, Silent (c.chooseClause build h type clauses).trace := by
    intro c h type
    unfold chooseClause
    split
    · exact silent_andThen _ _ (hgive c h _) fun _ _ => by simp [Silent]
    · simp [Silent]
  by_cases hn : c.registry.resolve c.lastThrown = Handle.null
  · simp [matchClause, hn, Step.returning, Silent]
  · cases ht : (c.registry.find? (c.registry.resolve c.lastThrown)).bind Record.type with
    | none => simp [matchClause, hn, ht, Step.returning, Silent]
    | some type =>
      have hpick := silent_andThen _ (fun (m : MatchedClause) (c' : Context α) =>
          (⟨.returned m, c', c'.seen (.matched (c.registry.resolve c.lastThrown) m.exception
            m.selector (c.types.isPointer type))⟩ : Step (Context α) MatchedClause))
        (hchoose c (c.registry.resolve c.lastThrown) type) fun _ _ => by simp [Silent]
      simp [matchClause, hn, ht, Silent, hpick.1, hpick.2]

/-! ## Giving references back -/

/-- A destructor, if there is one, is called once and with the handle of its exception, and the
context has no part in it. -/
theorem destruct_eq (conduct : Conduct) (c : Context α) (h : Handle) (d : Option Destructor) :
    c.destruct conduct h d =
      ⟨conduct.outcome d, c, d.toList.map fun d => .destroyed d.label h⟩ := by
  cases d with
  | none => rfl
  | some d =>
    simp only [destruct, Destructor.call, Conduct.outcome]
    cases conduct d <;> rfl

section Release

variable [Allocator α]

/-- Handing storage back concerns the allocator only. It makes no difference to anything else that
the allocator may refuse. -/
theorem state_handBack (refused : UnknownStorage → LogEntry) (c : Context α) (h : Handle) :
    (handBack refused c h).state = { c with allocator := discard c.allocator h } := by
  cases hf : Allocator.free c.allocator h <;> simp [handBack, discard, hf]

/-- To hand storage back returns, since a refusal is logged and no more. -/
theorem outcome_handBack (refused : UnknownStorage → LogEntry) (c : Context α) (h : Handle) :
    (handBack refused c h).outcome = .returned () := by
  cases hf : Allocator.free c.allocator h <;> simp [handBack, hf]

/-- To hand back storage calls no destructor. -/
theorem destructions_handBack (refused : UnknownStorage → LogEntry) (c : Context α)
    (h : Handle) : destructions (handBack refused c h).trace = [] := by
  cases hf : Allocator.free c.allocator h <;> simp [handBack, hf, destructions]

/-- The handle is handed back once, also when it is refused. -/
theorem handedBack_handBack (refused : UnknownStorage → LogEntry) (c : Context α) (h : Handle) :
    handedBack (handBack refused c h).trace = [h] := by
  cases hf : Allocator.free c.allocator h <;> simp [handBack, hf, handedBack]

/-- The context without the exception `r`, whose storage is handed back if nothing keeps the
destruction from its end. -/
def without (conduct : Conduct) (c : Context α) (r : Record) : Context α :=
  { c with
    registry := c.registry.erase r.handle
    allocator :=
      if conduct.finishes r.destructor then discard c.allocator r.handle else c.allocator }

/-- A destruction is as the destructor ends: the rest of it either happens or does not. -/
theorem destroy_spec (conduct : Conduct) (c : Context α) (r : Record) :
    (c.destroy conduct r).outcome = conduct.outcome r.destructor ∧
      (c.destroy conduct r).state = c.without conduct r ∧
      destructions (c.destroy conduct r).trace
        = r.destructor.toList.map (fun d => (d.label, r.handle)) ∧
      handedBack (c.destroy conduct r).trace
        = if conduct.finishes r.destructor then [r.handle] else [] := by
  -- there is one destructor at most, but nothing depends on that
  have hcalls : ∀ l : List Destructor,
      destructions (l.map fun d => .destroyed d.label r.handle)
        = l.map (fun d => (d.label, r.handle)) ∧
      handedBack (l.map fun d => .destroyed d.label r.handle) = [] := by
    intro l
    induction l with
    | nil => exact ⟨rfl, rfl⟩
    | cons d l ih =>
      exact ⟨congrArg (_ :: ·) ih.1, ih.2⟩
  obtain ⟨hdes, hback⟩ := hcalls r.destructor.toList
  have hfin : conduct.finishes r.destructor = (conduct.outcome r.destructor).isReturned := rfl
  unfold destroy without
  simp only [destruct_eq]
  cases ho : conduct.outcome r.destructor with
  | returned u =>
    have hfree := outcome_handBack .freeRefused { c with registry := c.registry.erase r.handle }
      r.handle
    rw [ho] at hfin
    simp [Step.andThen, Context.free, hfree, state_handBack, destructions_handBack,
      handedBack_handBack, hdes, hback, hfin, Outcome.isReturned]
  | transferred k =>
    rw [ho] at hfin
    simp [Step.andThen, hdes, hback, hfin, Outcome.isReturned]
  | panicked p =>
    rw [ho] at hfin
    simp [Step.andThen, hdes, hback, hfin, Outcome.isReturned]
  | aborted e =>
    rw [ho] at hfin
    simp [Step.andThen, hdes, hback, hfin, Outcome.isReturned]

/-- The context after a reference to `h` was given back. -/
def released (conduct : Conduct) (c : Context α) (h : Handle) : Context α :=
  match c.registry.dying? h with
  | some r => c.without conduct r
  | none => { c with registry := c.registry.release h }

/-- What the registry loses with a reference does not depend on what the destructor does. -/
theorem registry_released (conduct : Conduct) (c : Context α) (h : Handle) :
    (c.released conduct h).registry = c.registry.release h := by
  unfold released
  split
  next r hd => exact (Registry.release_of_dying? hd).symm
  next => rfl

/-- A reference given back closes no scope. -/
theorem scopes_released (conduct : Conduct) (c : Context α) (h : Handle) :
    (c.released conduct h).scopes = c.scopes := by
  unfold released
  split <;> rfl

/-- A reference given back to an exception that goes on to live, or to none. -/
theorem release_of_dying?_none {h : Handle} (build : Build) (conduct : Conduct) (c : Context α)
    (hd : c.registry.dying? h = none) :
    (c.release build conduct h).outcome =
        (if h ≠ Handle.null ∧ c.registry.contains h = true ∧ c.registry.refs h = 0 then
          (reported build (.refcountUnderflow h) c (.returning c ())).outcome
        else .returned ()) ∧
      (c.release build conduct h).state = c.released conduct h ∧
      destructions (c.release build conduct h).trace = [] ∧
      handedBack (c.release build conduct h).trace = [] := by
  rw [released, hd]
  by_cases hn : h = Handle.null
  · simp [release, hn, Step.returning]
  cases hr : c.registry.find? h with
  | none =>
    have hc : c.registry.contains h = false := (Registry.contains_eq_false_iff _ _).2 hr
    simp [release, Registry.release, hn, hr, hc]
  | some r =>
    have hc : c.registry.contains h = true := (Registry.contains_iff _ _).2 ⟨r, hr⟩
    by_cases hz : r.refcount.isZero = true
    · have hrefs : c.registry.refs h = 0 := by
        rw [Registry.refs_of_find? hr]
        exact (Record.isZero_refcount r).1 hz
      cases build <;>
        simp [release, Registry.release, hn, hr, hc, hz, hrefs, Step.returning, Step.panicking]
    · have hrefs : c.registry.refs h ≠ 0 := by
        rw [Registry.refs_of_find? hr]
        exact fun h0 => hz ((Record.isZero_refcount r).2 h0)
      -- it is not the last one, since nothing dies
      have halive : r.released.isDead = false := by
        cases hdead : r.released.isDead with
        | false => rfl
        | true =>
          have hl : r.isLast = true := by simp [Record.isLast, hz, hdead]
          rw [Registry.dying?_eq_some_iff.2 ⟨hn, hr, hl⟩] at hd
          cases hd
      simp [release, Registry.release, hn, hr, hc, hz, hrefs, halive, Step.returning]

/-- The last reference given back. -/
theorem release_of_dying? {h : Handle} {r : Record} (build : Build) (conduct : Conduct)
    (c : Context α) (hd : c.registry.dying? h = some r) :
    (c.release build conduct h).outcome = conduct.outcome r.destructor ∧
      (c.release build conduct h).state = c.released conduct h ∧
      destructions (c.release build conduct h).trace
        = r.destructor.toList.map (fun d => (d.label, r.handle)) ∧
      handedBack (c.release build conduct h).trace
        = if conduct.finishes r.destructor then [r.handle] else [] := by
  obtain ⟨hn, hr, hl⟩ := Registry.dying?_eq_some_iff.1 hd
  have hl' := hl
  rw [Record.isLast, Bool.and_eq_true, Bool.not_eq_true'] at hl'
  obtain ⟨ho, hs, hdes, hback⟩ := destroy_spec conduct
    { c with registry := c.registry.insert r.released } r.released
  -- the new count is entered first, and forgotten with the exception
  have hsame : ({ c with registry := c.registry.insert r.released } : Context α).without conduct
      r.released = c.without conduct r := by
    have herase : (c.registry.insert r.released).erase r.handle = c.registry.erase r.handle :=
      Registry.erase_insert_eq rfl
    unfold without
    rw [show r.released.handle = r.handle from rfl, herase]
    rfl
  rw [released, hd]
  simp only [release, Handle.isNull_iff, hn, if_false, hr, hl'.1, hl'.2, if_true,
    Bool.false_eq_true, Step.outcome_after, Step.state_after, Step.trace_after, ho, hs, hsame,
    List.cons_append, destructions_logged, handedBack_logged, destructions_append,
    handedBack_append, destructions_seen, handedBack_seen, hdes, hback, List.nil_append]
  exact ⟨rfl, trivial, rfl, rfl⟩

/-- In all cases at once: a misuse leaves the context as it is, and that is what `released` says of
it. -/
theorem state_release (build : Build) (conduct : Conduct) (c : Context α) (h : Handle) :
    (c.release build conduct h).state = c.released conduct h := by
  cases hd : c.registry.dying? h with
  | none => exact (release_of_dying?_none build conduct c hd).2.1
  | some r => exact (release_of_dying? build conduct c hd).2.1

/-- What follows a call that may not come to its end happens only if it does. -/
theorem andThen_returning {σ : Type} (r : Step σ Unit) (f : σ → σ) :
    (r.andThen fun _ s => .returning (f s) ()).outcome = r.outcome ∧
      (r.andThen fun _ s => .returning (f s) ()).state
        = (if r.outcome.isReturned then f r.state else r.state) ∧
      (r.andThen fun _ s => .returning (f s) ()).trace = r.trace := by
  obtain ⟨o, s, t⟩ := r
  cases o <;> simp [Step.andThen, Step.returning, Outcome.isReturned]

/-- Outside of all scopes there is none to end. All that happens in either build is that nothing
counts as just thrown. -/
theorem state_endCatch_nil (build : Build) (conduct : Conduct) (c : Context α)
    (hs : c.scopes = []) : (c.endCatch build conduct).state = { c with threw := false } := by
  cases build <;> simp [endCatch, hs, Step.returning, Step.panicking]

/-- To end a scope is to give back its reference, and to forget what was thrown last if that
comes to its end. -/
theorem endCatch_spec {t : Handle} {rest : List Handle} (build : Build) (conduct : Conduct)
    (c : Context α) (hs : c.scopes = t :: rest) :
    let closed : Context α := { c with threw := false, scopes := rest }
    let r := closed.release build conduct (c.registry.resolve t)
    (c.endCatch build conduct).outcome = r.outcome ∧
      (c.endCatch build conduct).state
        = { closed.released conduct (c.registry.resolve t) with
            lastThrown := if t ≠ Handle.null ∧ r.outcome.isReturned = true then Handle.null
              else c.lastThrown } ∧
      destructions (c.endCatch build conduct).trace = destructions r.trace ∧
      handedBack (c.endCatch build conduct).trace = handedBack r.trace := by
  intro closed r
  have hlast : closed.released conduct (c.registry.resolve t)
      = { closed.released conduct (c.registry.resolve t) with lastThrown := c.lastThrown } := by
    unfold released
    split <;> rfl
  -- the scope is closed in any case; the two ways to go on differ in what was thrown last
  by_cases hn : t = Handle.null
  · subst hn
    have hr : r = .returning closed () := by simp [r, release]
    have hrel : closed.released conduct Handle.null = closed := by
      simp [released, Registry.dying?, closed]
    rw [hr]
    simp [endCatch, hs, Step.returning, hrel, closed]
  · have hstate : r.state = closed.released conduct (c.registry.resolve t) :=
      state_release build conduct closed _
    obtain ⟨ho, hst, htr⟩ := andThen_returning r fun c => { c with lastThrown := Handle.null }
    have hend : c.endCatch build conduct =
        ((r.andThen fun _ c => .returning { c with lastThrown := Handle.null } ()).after
          (closed.resolution t)).after (.logged (.catchEnded t closed.lastThrown closed.depth) ::
            closed.seen (.catchEnded t closed.depth)) := by
      simp [endCatch, hs, hn, releaseAny, r, closed, Step.after_andThen]
    rw [hend]
    simp only [Step.outcome_after, Step.state_after, Step.trace_after, ho, hst, htr,
      destructions_append, destructions_logged, destructions_seen, destructions_resolution,
      handedBack_append, handedBack_logged, handedBack_seen, handedBack_resolution,
      List.nil_append, List.cons_append, hstate, and_true, true_and]
    by_cases hret : r.outcome.isReturned = true
    · simp [hret, hn]
    · rw [if_neg hret, if_neg (fun h => hret h.2)]
      exact hlast

end Release

end Context

end ExceptionLifetime
