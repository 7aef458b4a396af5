/-
The record of an evaluation, and what can be read off it.

A record says which frames are open at each of its points: the body of an
interceptor is begun and the interceptor returns or is passed, a guard is entered
and dropped. It says as well which transfers are under way. What a transfer or a
panic owes to the frames that are open when it starts is told by the part of the
record that follows it: one guard after the other is dropped, with drop code that
comes to its end, and a panic passes every interceptor.

Drop code that contains what it throws leaves nothing open, neither a frame nor a
transfer. So the record of a larger evaluation is put together from records that
are orderly themselves, and each of them can be seen from outside as if it had
been empty: that carries the induction over expressions.

What has landed would still be lost if the interceptor returned something else. So
there is a second account, of what an expression comes to. It has rules for each
interceptor, which tie what reaches it to what it records and to what it returns,
and none for drop code: a guard comes to what its body comes to. The evaluation
follows these rules, and wherever an interceptor has written in the record, it is
the end of a part of the expression that did as they say.
-/
import ExceptionLifetime.Control

set_option autoImplicit false

namespace ExceptionLifetime

namespace Control

variable {ν ι : Type}

/-! ## Drop code -/

/-- Where an element of two lists stands, one after the other. -/
theorem append_eq_append_cons {α : Type} {a b before rest : List α} {y : α}
    (h : a ++ b = before ++ y :: rest) :
    (∃ r, a = before ++ y :: r ∧ rest = r ++ b) ∨
      ∃ before', before = a ++ before' ∧ b = before' ++ y :: rest := by
  rcases List.append_eq_append_iff.1 h with ⟨m, hbefore, hb⟩ | ⟨m, ha, hrest⟩
  · exact .inr ⟨m, hbefore, hb⟩
  · cases m with
    | nil => exact .inr ⟨[], by simpa using ha.symm, by simpa using hrest.symm⟩
    | cons z m =>
      obtain ⟨rfl, rfl⟩ := List.cons.inj hrest
      exact .inl ⟨m, ha, rfl⟩

theorem append_eq_append_cons_of_not_mem {α : Type} {a b c before rest : List α} {y : α}
    (ha : y ∉ a) (hc : y ∉ c) (h : a ++ b ++ c = before ++ y :: rest) :
    ∃ before' rest', before = a ++ before' ∧ b = before' ++ y :: rest' ∧ rest = rest' ++ c := by
  rcases append_eq_append_cons h with ⟨r, hab, rfl⟩ | ⟨_, -, rfl⟩
  · rcases append_eq_append_cons hab with ⟨_, rfl, -⟩ | ⟨before', rfl, rfl⟩
    · simp at ha
    · exact ⟨before', r, rfl, rfl, rfl⟩
  · simp at hc

/-! ## What is returned -/

/-- What an interceptor records when it is left. -/
def Effect.Answer : Effect ν ι → Prop
  | .landed _ | .relayed _ | .passed => True
  | _ => False

namespace Expr

/-- An expression is a part of another one, perhaps of drop code in it. -/
inductive Part (p : Expr ν ι) : Expr ν ι → Prop
  | whole : Part p p
  | first {first second : Expr ν ι} (h : Part p first) : Part p (.both first second)
  | second {first second : Expr ν ι} (h : Part p second) : Part p (.both first second)
  | intercept {body : Expr ν ι} (h : Part p body) : Part p (.intercept body)
  | relay {offset : Int64} {body : Expr ν ι} (h : Part p body) : Part p (.relay offset body)
  | catchPanic {body : Expr ν ι} (h : Part p body) : Part p (.catchPanic body)
  | drop {g : ι} {drop body : Expr ν ι} (h : Part p drop) : Part p (.guarded g drop body)
  | body {g : ι} {drop body : Expr ν ι} (h : Part p body) : Part p (.guarded g drop body)

/-- The interceptor `p` around `body`: what reaches it, what it records, and what it comes to. -/
inductive Intercepts : (p body : Expr ν ι) → Outcome (Value ν) → Effect ν ι → Outcome (Value ν) →
    Prop
  | ok {body : Expr ν ι} (v : Value ν) :
      Intercepts (.intercept body) body (.returned v) (.landed (.ok v)) (.returned (.ok v))
  | err {body : Expr ν ι} (h : Handle) :
      Intercepts (.intercept body) body (.transferred h) (.landed (.err h)) (.returned (.err h))
  | passed {body : Expr ν ι} (q : Panic) :
      Intercepts (.intercept body) body (.panicked q) .passed (.panicked q)
  | through {offset : Int64} {body : Expr ν ι} (v : Value ν) :
      Intercepts (.relay offset body) body (.returned v) (.relayed none) (.returned v)
  | sentOn {offset : Int64} {body : Expr ν ι} (h : Handle) :
      Intercepts (.relay offset body) body (.transferred h) (.relayed (some h))
        (.transferred (h.displace offset))
  | passedOn {offset : Int64} {body : Expr ν ι} (q : Panic) :
      Intercepts (.relay offset body) body (.panicked q) .passed (.panicked q)

/-- What an expression comes to. Drop code does not count, and nothing catches panics. -/
inductive ComesTo : Expr ν ι → Outcome (Value ν) → Prop
  | value (v : ν) : ComesTo (.value v) (.returned (.leaf v))
  | nothing : ComesTo .nothing (.returned .nothing)
  | both {first second : Expr ν ι} {v w : Value ν} (hfirst : ComesTo first (.returned v))
      (hsecond : ComesTo second (.returned w)) :
      ComesTo (.both first second) (.returned (.both v w))
  | leftFirst {first second : Expr ν ι} {o : Outcome (Value ν)} (hfirst : ComesTo first o)
      (hleft : ∀ v, o ≠ .returned v) : ComesTo (.both first second) o
  | leftSecond {first second : Expr ν ι} {v : Value ν} {o : Outcome (Value ν)}
      (hfirst : ComesTo first (.returned v)) (hsecond : ComesTo second o)
      (hleft : ∀ w, o ≠ .returned w) : ComesTo (.both first second) o
  | transfer (h : Handle) : ComesTo (.transfer h) (.transferred h)
  | panic (m : String) : ComesTo (.panic m) (.panicked (.client m))
  | intercepted {p body : Expr ν ι} {o o' : Outcome (Value ν)} {x : Effect ν ι}
      (hp : Intercepts p body o x o') (hbody : ComesTo body o) : ComesTo p o'
  | guarded {g : ι} {drop body : Expr ν ι} {o : Outcome (Value ν)} (hbody : ComesTo body o) :
      ComesTo (.guarded g drop body) o

/-- What interceptors have written in the record is what parts of the expression came to. -/
def Answered (e : Expr ν ι) (l : List (Effect ν ι)) : Prop :=
  ∀ before x rest, l = before ++ x :: rest → x.Answer →
    ∃ p body earlier, Part p e ∧ before = earlier ++ .opened :: body.eval.effects ∧
      Intercepts p body body.eval.outcome x p.eval.outcome

/-! ### The evaluation follows the rules -/

/-- No rule ends the process. -/
theorem ComesTo.goes_on {e : Expr ν ι} {o : Outcome (Value ν)} (h : ComesTo e o)
    (fault : Fault) : o ≠ .aborted fault := by
  induction h with
  | value _ | nothing | both _ _ | transfer _ | panic _ => simp
  | leftFirst _ _ ih | leftSecond _ _ _ _ ih | guarded _ ih => exact ih
  | intercepted hp => cases hp <;> simp

/-- An interceptor comes to what the rules say. It records what they say, right after all that its
body has recorded. -/
theorem Intercepts.eval {p body : Expr ν ι} {x : Effect ν ι} {o o' : Outcome (Value ν)}
    (h : Intercepts p body o x o') (ho : body.eval.outcome = o) :
    p.eval.outcome = o' ∧ ∃ more, p.eval.effects = .opened :: body.eval.effects ++ [x] ++ more ∧
      ∀ y ∈ more, ¬ y.Answer := by
  cases h with
  | ok _ | err _ | passed _ | through _ | passedOn _ =>
    exact ⟨by simp [Expr.eval, Run.intercepted, Outcome.intercept, ho], [],
      by simp [Expr.eval, Run.intercepted, Outcome.intercept, ho], by simp⟩
  | @sentOn offset body h =>
    -- a handle that is sent on leaves one more effect behind
    exact ⟨by simp [Expr.eval, Run.intercepted, Outcome.intercept, ho], [.sent (h.displace offset)],
      by simp [Expr.eval, Run.intercepted, Outcome.intercept, ho], by simp [Effect.Answer]⟩

/-- What is a part of the body is one of the interceptor. -/
theorem Intercepts.part {p body q : Expr ν ι} {x : Effect ν ι} {o o' : Outcome (Value ν)}
    (h : Intercepts p body o x o') (hq : Part q body) : Part q p := by
  cases h with
  | ok _ | err _ | passed _ => exact .intercept hq
  | through _ | sentOn _ | passedOn _ => exact .relay hq

theorem answered_of_no_answer {e : Expr ν ι} {l : List (Effect ν ι)} (h : ∀ x ∈ l, ¬ x.Answer) :
    Answered e l := by
  rintro before x rest rfl hx
  exact absurd hx (h x (by simp))

/-- What is recorded one after the other is accounted for together. Each part still ends where it
has written. -/
theorem Answered.append {e : Expr ν ι} {l m : List (Effect ν ι)} (hl : Answered e l)
    (hm : Answered e m) : Answered e (l ++ m) := by
  intro before x rest hlist hx
  rcases append_eq_append_cons hlist with ⟨r, hl', -⟩ | ⟨before', rfl, hm'⟩
  · exact hl before x r hl' hx
  · obtain ⟨p, body, earlier, hpart, rfl, hp⟩ := hm before' x rest hm' hx
    exact ⟨p, body, l ++ earlier, hpart, by simp, hp⟩

theorem Answered.mono {e e' : Expr ν ι} {l : List (Effect ν ι)} (h : Answered e l)
    (hpart : ∀ p, Part p e → Part p e') : Answered e' l := by
  intro before x rest hl hx
  obtain ⟨p, body, earlier, hp, hrest⟩ := h before x rest hl hx
  exact ⟨p, body, earlier, hpart p hp, hrest⟩

/-- What a sequence records is accounted for if what it runs is. -/
theorem Answered.andThen {e : Expr ν ι} {r : Run ν ι} {next : Value ν → Run ν ι}
    (hr : Answered e r.effects) (hnext : ∀ v, Answered e (next v).effects) :
    Answered e (r.andThen next).effects := by
  by_cases hv : ∃ v, r.outcome = .returned v
  · obtain ⟨v, hv⟩ := hv
    rw [Run.andThen_of_returned hv]
    exact hr.append (hnext v)
  · rw [Run.andThen_of_left (not_exists.1 hv)]
    exact hr

/-- An interceptor adds itself to those that its body has run. -/
theorem Intercepts.answered {p body : Expr ν ι} {x : Effect ν ι} {o : Outcome (Value ν)}
    (h : Intercepts p body body.eval.outcome x o) (hbody : Answered body body.eval.effects) :
    Answered p p.eval.effects := by
  obtain ⟨ho, more, heffects, hmore⟩ := h.eval rfl
  rw [heffects]
  refine Answered.append ?_ (answered_of_no_answer hmore)
  intro before y rest hl hy
  rcases append_eq_append_cons hl with ⟨r, hin, -⟩ | ⟨before', rfl, hlast⟩
  · have hopened : Answered p ([.opened] ++ body.eval.effects) :=
      (answered_of_no_answer (by simp [Effect.Answer])).append (hbody.mono fun _ => h.part)
    exact hopened before y r hin hy
  · obtain ⟨rfl, rfl, -⟩ : before' = [] ∧ y = x ∧ rest = [] := by
      simpa [List.singleton_eq_append_iff] using hlast
    exact ⟨p, body, [], .whole, by simp, ho ▸ h⟩

end Expr

/-! ## What is open -/

/-- What has to be left on the way out of an evaluation. -/
inductive Frame (ι : Type) where
  | interceptor
  | guard (name : ι)
  deriving DecidableEq

/-- The handle that lands with an effect. -/
def Effect.delivered? : Effect ν ι → Option Handle
  | .landed (.err h) | .relayed (some h) => some h
  | _ => none

/-- A stack without its top, if that is `a`. -/
def pop {σ : Type} [DecidableEq σ] (a : σ) : List σ → Option (List σ)
  | [] => none
  | b :: l => if b = a then some l else none

/-- The transfers under way after an effect, the latest first. Only the latest can land. -/
def followFlights (hs : List Handle) : Effect ν ι → Option (List Handle)
  | .sent h => some (h :: hs)
  | .landed (.err h) | .relayed (some h) => pop h hs
  | _ => some hs

variable [DecidableEq ι]

/-- The frames open after an effect, the innermost first. Only the innermost can be left. -/
def followFrames (fs : List (Frame ι)) : Effect ν ι → Option (List (Frame ι))
  | .opened => some (.interceptor :: fs)
  | .entered g => some (.guard g :: fs)
  | .sent _ | .panicked _ => some fs
  | .landed _ | .relayed _ | .passed => pop .interceptor fs
  | .dropped g => pop (.guard g) fs

/-- The transfers under way after a record, if what lands is always the latest of them. -/
def openFlights (hs : List Handle) (l : List (Effect ν ι)) : Option (List Handle) :=
  l.foldlM followFlights hs

/-- The frames open after a record, if they are left from the inside outwards. -/
def openFrames (fs : List (Frame ι)) (l : List (Effect ν ι)) : Option (List (Frame ι)) :=
  l.foldlM followFrames fs

/-! ## What is open beneath -/

/-- What lies beneath does not keep the top from being taken off. -/
theorem pop_append {σ : Type} [DecidableEq σ] {a : σ} {l l' : List σ} (h : pop a l = some l')
    (base : List σ) : pop a (l ++ base) = some (l' ++ base) := by
  unfold pop at h
  split at h
  · cases h
  next b l =>
    split at h
    next hb =>
      cases h
      rw [List.cons_append, pop, if_pos hb]
    · cases h

/-- What is open beneath is no concern of what happens above. -/
theorem foldlM_append_base {σ α : Type} {step : List σ → α → Option (List σ)}
    (hstep : ∀ s x s' base, step s x = some s' → step (s ++ base) x = some (s' ++ base))
    {l : List α} {s s' : List σ} (h : l.foldlM step s = some s') (base : List σ) :
    l.foldlM step (s ++ base) = some (s' ++ base) := by
  induction l generalizing s with
  | nil =>
    cases h
    rfl
  | cons x l ih =>
    rw [List.foldlM_cons, Option.bind_eq_bind, Option.bind_eq_some_iff] at h
    obtain ⟨t, ht, h⟩ := h
    rw [List.foldlM_cons, hstep s x t base ht]
    exact ih h

omit [DecidableEq ι] in
/-- The transfers that were under way before stay so, beneath those of the record. -/
theorem openFlights_above {l : List (Effect ν ι)} {hs' : List Handle}
    (h : openFlights [] l = some hs') (hs : List Handle) :
    openFlights hs l = some (hs' ++ hs) := by
  refine foldlM_append_base (fun s x s' base hs => ?_) h hs
  unfold followFlights at hs ⊢
  split at hs
  · cases hs
    rfl
  · exact pop_append hs base
  · exact pop_append hs base
  · cases hs
    rfl

theorem openFrames_above {l : List (Effect ν ι)} {fs' : List (Frame ι)}
    (h : openFrames [] l = some fs') (fs : List (Frame ι)) :
    openFrames fs l = some (fs' ++ fs) := by
  refine foldlM_append_base (fun s x s' base hs => ?_) h fs
  cases x with
  | opened | entered _ | sent _ | panicked _ =>
    cases hs
    rfl
  | landed _ | relayed _ | passed | dropped _ => exact pop_append hs base

omit [DecidableEq ι] in
/-- The transfers under way after two records are those that the second leaves of those that the
first has left. -/
theorem openFlights_append {l m : List (Effect ν ι)} {hs hs' : List Handle}
    (hl : openFlights hs l = some hs') : openFlights hs (l ++ m) = openFlights hs' m := by
  rw [openFlights, List.foldlM_append]
  exact congrArg (· >>= fun hs => openFlights hs m) hl

theorem openFrames_append {l m : List (Effect ν ι)} {fs fs' : List (Frame ι)}
    (hl : openFrames fs l = some fs') : openFrames fs (l ++ m) = openFrames fs' m := by
  rw [openFrames, List.foldlM_append]
  exact congrArg (· >>= fun fs => openFrames fs m) hl

/-! ## How frames are left -/

/-- The frames are left one after the other: a guard is dropped, and its drop code leaves no
frame and no transfer open and does not panic; an interceptor is passed. -/
inductive Unwinds : List (Frame ι) → List (Effect ν ι) → Prop
  | done : Unwinds [] []
  | guard {g : ι} {drop l : List (Effect ν ι)} {fs : List (Frame ι)}
      (frames : openFrames [] drop = some []) (flights : openFlights [] drop = some [])
      (calm : ∀ m, .panicked m ∉ drop) (rest : Unwinds fs l) :
      Unwinds (.guard g :: fs) (.dropped g :: drop ++ l)
  | interceptor {l : List (Effect ν ι)} {fs : List (Frame ι)} (rest : Unwinds fs l) :
      Unwinds (.interceptor :: fs) (.passed :: l)

theorem Unwinds.append {fs fs' : List (Frame ι)} {l l' : List (Effect ν ι)} (h : Unwinds fs l)
    (h' : Unwinds fs' l') : Unwinds (fs ++ fs') (l ++ l') := by
  induction h with
  | done => exact h'
  | guard hframes hflights hcalm _ ih =>
    rw [List.cons_append, List.append_assoc]
    exact .guard hframes hflights hcalm ih
  | interceptor _ ih => exact .interceptor ih

/-- Something starts after `before`, with the frames `fs` open, and leaves all of them. -/
structure Leaves (before : List (Effect ν ι)) (fs : List (Frame ι)) (rest : List (Effect ν ι)) :
    Prop where
  frames : openFrames [] before = some fs
  unwinds : Unwinds fs rest

/-- What is sent after `before` lands at the innermost interceptor that is open, when the guards
within it have been dropped. -/
def Lands (before : List (Effect ν ι)) (h : Handle) (rest : List (Effect ν ι)) : Prop :=
  ∃ (guards : List ι) (outer : List (Frame ι)) (unwinding : List (Effect ν ι)) (x : Effect ν ι)
    (later : List (Effect ν ι)),
    openFrames [] before = some (guards.map .guard ++ .interceptor :: outer) ∧
      rest = unwinding ++ x :: later ∧ Unwinds (guards.map .guard) unwinding ∧
      x.delivered? = some h

/-- What leaves its frames, within others that it leaves as well, leaves all of them. -/
theorem Leaves.within {before rest pre post : List (Effect ν ι)} {fs fs' : List (Frame ι)}
    (h : Leaves before fs rest) (hpre : openFrames [] pre = some fs') (hpost : Unwinds fs' post) :
    Leaves (pre ++ before) (fs ++ fs') (rest ++ post) where
  frames := by
    rw [openFrames_append hpre]
    exact openFrames_above h.frames fs'
  unwinds := h.unwinds.append hpost

/-- What leaves all guards within an interceptor lands there. -/
theorem Leaves.lands {before rest pre later : List (Effect ν ι)} {guards : List ι}
    {outer : List (Frame ι)} {x : Effect ν ι} {h : Handle}
    (hl : Leaves before (guards.map .guard) rest)
    (hpre : openFrames [] pre = some (.interceptor :: outer)) (hx : x.delivered? = some h) :
    Lands (pre ++ before) h (rest ++ x :: later) := by
  refine ⟨guards, outer, rest, x, later, ?_, rfl, hl.unwinds, hx⟩
  rw [openFrames_append hpre]
  exact openFrames_above hl.frames _

/-- What has landed has landed wherever the record stands. -/
theorem Lands.within {before rest pre : List (Effect ν ι)} {h : Handle} {fs : List (Frame ι)}
    (hl : Lands before h rest) (hpre : openFrames [] pre = some fs) (post : List (Effect ν ι)) :
    Lands (pre ++ before) h (rest ++ post) := by
  obtain ⟨guards, outer, unwinding, x, later, hframes, rfl, hunwinds, hx⟩ := hl
  refine ⟨guards, outer ++ fs, unwinding, x, later ++ post, ?_, by simp, hunwinds, hx⟩
  rw [openFrames_append hpre, openFrames_above hframes fs, List.append_assoc, List.cons_append]

/-! ## Orderly evaluations -/

/-- The transfer that escapes from an evaluation. -/
def escaping {α : Type} : Outcome α → List Handle
  | .transferred h => [h]
  | _ => []

/-- An evaluation in which every transfer and every panic goes where it should. -/
structure Run.Orderly (r : Run ν ι) : Prop where
  /-- Every frame is left once, the innermost first. -/
  frames : openFrames [] r.effects = some []
  /-- What is sent last lands first, and what never lands escapes. -/
  flights : openFlights [] r.effects = some (escaping r.outcome)
  /-- A transfer lands at the innermost interceptor, or escapes when there is none. -/
  transfers : ∀ before h rest, r.effects = before ++ .sent h :: rest →
    Lands before h rest ∨
      r.outcome = .transferred h ∧ ∃ guards : List ι, Leaves before (guards.map .guard) rest
  /-- A panic leaves every frame and escapes as it is. -/
  panics : ∀ before m rest, r.effects = before ++ .panicked m :: rest →
    r.outcome = .panicked (.client m) ∧ ∃ fs, Leaves before fs rest
  /-- What escapes as a panic was one. -/
  panicked : ∀ p, r.outcome = .panicked p → ∃ m, p = .client m ∧ .panicked m ∈ r.effects
  /-- The process goes on. -/
  goes_on : ∀ e, r.outcome ≠ .aborted e

namespace Run

variable {a b : List (Effect ν ι)} {v : Value ν} {o : Outcome (Value ν)}

/-- A return leaves nothing for what comes next to deal with. -/
theorem Orderly.seq (ha : (⟨.returned v, a⟩ : Run ν ι).Orderly) (hb : (⟨o, b⟩ : Run ν ι).Orderly) :
    (⟨o, a ++ b⟩ : Run ν ι).Orderly where
  frames := (openFrames_append ha.frames).trans hb.frames
  flights := (openFlights_append ha.flights).trans hb.flights
  transfers before h rest hl := by
    rcases append_eq_append_cons hl with ⟨r, rfl, rfl⟩ | ⟨before, rfl, rfl⟩
    · rcases ha.transfers before h r rfl with hlands | ⟨hout, -⟩
      · have hnone : openFrames [] ([] : List (Effect ν ι)) = some [] := rfl
        exact .inl (hlands.within hnone b)
      · -- a transfer cannot have left the first part, which has returned
        cases hout
    · rcases hb.transfers before h rest rfl with hlands | ⟨hout, guards, hleaves⟩
      · exact .inl (by simpa using hlands.within ha.frames [])
      · exact .inr ⟨hout, guards, by simpa using hleaves.within ha.frames .done⟩
  panics before m rest hl := by
    rcases append_eq_append_cons hl with ⟨r, rfl, rfl⟩ | ⟨before, rfl, rfl⟩
    · cases (ha.panics before m r rfl).1
    · obtain ⟨hout, fs, hleaves⟩ := hb.panics before m rest rfl
      exact ⟨hout, fs, by simpa using hleaves.within ha.frames .done⟩
  panicked p hp := by
    obtain ⟨m, hm, hmem⟩ := hb.panicked p hp
    exact ⟨m, hm, List.mem_append_right a hmem⟩
  goes_on := hb.goes_on

omit [DecidableEq ι] in
/-- How an interceptor is left when an evaluation has come to its end. A handle that is to be sent
on has been taken in before, and what is returned in between is of no concern. -/
inductive Closes : Outcome (Value ν) → Effect ν ι → Outcome (Value ν) → Prop
  | ok (v : Value ν) : Closes (.returned v) (.landed (.ok v)) (.returned (.ok v))
  | err (h : Handle) : Closes (.transferred h) (.landed (.err h)) (.returned (.err h))
  | through (v : Value ν) : Closes (.returned v) (.relayed none) (.returned v)
  | taken (h : Handle) (w : Value ν) : Closes (.transferred h) (.relayed (some h)) (.returned w)
  | passed (p : Panic) : Closes (.panicked p) .passed (.panicked p)

/-- An interceptor is left in order, whatever reaches it. -/
theorem Orderly.intercepted {x : Effect ν ι} {o' : Outcome (Value ν)}
    (ha : (⟨o, a⟩ : Run ν ι).Orderly) (hx : Closes o x o') :
    (⟨o', .opened :: a ++ [x]⟩ : Run ν ι).Orderly where
  frames := by
    have hbody : openFrames [] (.opened :: a) = some [.interceptor] :=
      openFrames_above ha.frames [.interceptor]
    rw [openFrames_append hbody]
    cases hx <;> rfl
  flights := by
    have hbody : openFlights [] (.opened :: a) = some (escaping o) := ha.flights
    rw [openFlights_append hbody]
    cases hx <;> simp [openFlights, followFlights, escaping, pop]
  transfers before h rest hl := by
    -- the last effect is the answer, so what is sent is sent in the body
    have hne : (Effect.sent h : Effect ν ι) ∉ [x] := by cases hx <;> simp
    obtain ⟨before, rest, rfl, rfl, rfl⟩ :=
      append_eq_append_cons_of_not_mem (a := [.opened]) (by simp) hne hl
    rcases ha.transfers before h rest rfl with hlands | ⟨rfl, guards, hleaves⟩
    · exact .inl (hlands.within rfl [x])
    · have hdelivered : x.delivered? = some h := by cases hx <;> rfl
      exact .inl (hleaves.lands rfl hdelivered)
  panics before m rest hl := by
    have hne : (Effect.panicked m : Effect ν ι) ∉ [x] := by cases hx <;> simp
    obtain ⟨before, rest, rfl, rfl, rfl⟩ :=
      append_eq_append_cons_of_not_mem (a := [.opened]) (by simp) hne hl
    obtain ⟨rfl, fs, hleaves⟩ := ha.panics before m rest rfl
    cases hx
    exact ⟨rfl, fs ++ [.interceptor], hleaves.within rfl (.interceptor .done)⟩
  panicked p hp := by
    cases hx with
    | passed q =>
      obtain ⟨m, hm, hmem⟩ := ha.panicked p hp
      exact ⟨m, hm, by simp [hmem]⟩
    | ok _ | err _ | through _ | taken _ _ => cases hp
  goes_on e he := by cases hx <;> cases he

/-- The guard around an evaluation is left when its drop code begins. -/
theorem Orderly.frames_dropped (ha : (⟨o, a⟩ : Run ν ι).Orderly) (g : ι) :
    openFrames [] (.entered g :: a ++ [.dropped g]) = some [] := by
  have hbody : openFrames [] (.entered g :: a) = some [.guard g] :=
    openFrames_above ha.frames [.guard g]
  rw [openFrames_append hbody]
  simp [openFrames, followFrames, pop]

/-- Drop code that comes to its end is fit to be run on the way out. -/
theorem Orderly.unwinds (hb : (⟨.returned v, b⟩ : Run ν ι).Orderly) (g : ι) :
    Unwinds [.guard g] (.dropped g :: b) := by
  have hcalm : ∀ m, .panicked m ∉ b := by
    intro m hm
    obtain ⟨before, rest, rfl⟩ := List.append_of_mem hm
    cases (hb.panics before m rest rfl).1
  have hdrop := Unwinds.guard (g := g) hb.frames hb.flights hcalm .done
  rwa [List.append_nil] at hdrop

omit [DecidableEq ι] in
/-- What starts between the entry and the end of a guard starts in the body or in the drop code. -/
theorem eq_append_cons_of_guarded {g : ι} {y : Effect ν ι} {before rest : List (Effect ν ι)}
    (hentered : y ≠ .entered g) (hdropped : y ≠ .dropped g)
    (h : .entered g :: a ++ .dropped g :: b = before ++ y :: rest) :
    (∃ before' rest', before = [.entered g] ++ before' ∧ a = before' ++ y :: rest' ∧
        rest = rest' ++ .dropped g :: b) ∨
      ∃ before', before = .entered g :: a ++ [.dropped g] ++ before' ∧
        b = before' ++ y :: rest := by
  have hassoc : (.entered g :: a ++ [.dropped g]) ++ b = before ++ y :: rest := by simpa using h
  rcases append_eq_append_cons hassoc with ⟨r, hr, rfl⟩ | hb
  · obtain ⟨before', rest', rfl, rfl, rfl⟩ := append_eq_append_cons_of_not_mem (a := [Effect.entered g])
      (c := [Effect.dropped g]) (by simpa using hentered) (by simpa using hdropped) hr
    exact .inl ⟨before', rest', rfl, rfl, by simp⟩
  · exact .inr hb

/-- A guard is dropped in order, whatever its body is left by. -/
theorem Orderly.dropped (ha : (⟨o, a⟩ : Run ν ι).Orderly)
    (hb : (⟨.returned v, b⟩ : Run ν ι).Orderly) (g : ι) :
    (⟨o, .entered g :: a ++ .dropped g :: b⟩ : Run ν ι).Orderly where
  frames := by
    have hall := (openFrames_append (ha.frames_dropped g)).trans hb.frames
    simpa using hall
  flights := by
    have hbody : openFlights [] (.entered g :: a) = some (escaping o) := ha.flights
    exact (openFlights_append hbody).trans (openFlights_above hb.flights (escaping o))
  transfers before h rest hl := by
    rcases eq_append_cons_of_guarded (by simp) (by simp) hl with ⟨before, rest, rfl, rfl, rfl⟩ |
      ⟨before, rfl, rfl⟩
    · rcases ha.transfers before h rest rfl with hlands | ⟨rfl, guards, hleaves⟩
      · exact .inl (hlands.within rfl _)
      · -- on its way out it passes this guard as well, whose drop code is run
        refine .inr ⟨rfl, guards ++ [g], ?_⟩
        rw [List.map_append]
        exact hleaves.within rfl (hb.unwinds g)
    · rcases hb.transfers before h rest rfl with hlands | ⟨hout, -⟩
      · exact .inl (by simpa using hlands.within (ha.frames_dropped g) [])
      · cases hout
  panics before m rest hl := by
    rcases eq_append_cons_of_guarded (by simp) (by simp) hl with ⟨before, rest, rfl, rfl, rfl⟩ |
      ⟨before, rfl, rfl⟩
    · obtain ⟨rfl, fs, hleaves⟩ := ha.panics before m rest rfl
      exact ⟨rfl, fs ++ [.guard g], hleaves.within rfl (hb.unwinds g)⟩
    · cases (hb.panics before m rest rfl).1
  panicked p hp := by
    obtain ⟨m, hm, hmem⟩ := ha.panicked p hp
    exact ⟨m, hm, by simp [hmem]⟩
  goes_on := ha.goes_on

end Run

/-! ## All expressions -/

/-- A sequence is evaluated in order if its parts are, whatever the first of them returns. -/
theorem Run.Orderly.andThen {r : Run ν ι} {next : Value ν → Run ν ι} (hr : r.Orderly)
    (hnext : ∀ v, (next v).Orderly) : (r.andThen next).Orderly := by
  obtain ⟨o, a⟩ := r
  cases o with
  | returned v => exact hr.seq (hnext v)
  | transferred _ | panicked _ | aborted _ => exact hr

end Control

end ExceptionLifetime
