/-
Whose references there are.

A reference belongs to the catch scope that took it or to the client that asked
for it, and it is given back by whom it belongs to. That is what a disciplined
client sees to. The count of an exception is then the number of its open scopes
and of the references the client still has, with one exception to it.

A scope is closed in two ways. Ending it gives its reference back. A rethrow
closes it if the exception is marked as rethrown already, and that is meant for
the scope that the rethrow of a captured exception has opened for itself, which
holds no reference. But a scope that a handler has begun is closed the same way,
when its exception is rethrown once more before anybody has caught it again. The
reference of that scope is given back by nobody. Such references are counted
here as forfeited, and nothing else keeps the account from being even.
-/
import ExceptionLifetime.Proofs.Run
import ExceptionLifetime.Storage.Bump

set_option autoImplicit false

namespace ExceptionLifetime

/-- The references to exceptions, apart from those of open scopes. -/
structure Account where
  /-- The client asked for them and has not given them back. -/
  owned : Handle → Nat
  /-- The scope they belonged to is closed, and nobody has them. -/
  forfeited : Handle → Nat
  /-- All references taken until now, the ones given back among them. -/
  taken : Nat

namespace Account

/-- Nobody has taken a reference yet. -/
def empty : Account := ⟨fun _ => 0, fun _ => 0, 0⟩

/-- The client took a reference to `h`. -/
def take (a : Account) (h : Handle) : Account :=
  { a with owned := fun k => a.owned k + if k = h then 1 else 0, taken := a.taken + 1 }

/-- The client gave back a reference to `h`. -/
def giveBack (a : Account) (h : Handle) : Account :=
  { a with owned := fun k => a.owned k - if k = h then 1 else 0 }

/-- A scope of `h` was closed without giving its reference back. -/
def forfeit (a : Account) (h : Handle) : Account :=
  { a with forfeited := fun k => a.forfeited k + if k = h then 1 else 0 }

end Account

namespace Context

variable {α : Type}

/-- A rethrow of an exception that is on its way already. -/
def rethrowsAgain (c : Context α) : Operation → Bool
  | .rethrow => (c.registry.find? (c.registry.resolve c.top)).any Record.rethrown
  | _ => false

/-- The account after the client asked for a reference to `h`, which it gets if `h` is alive. -/
def asked (c : Context α) (a : Account) (h : Handle) : Account :=
  if c.registry.contains h then a.take h else a

/-- The account after a call. -/
def account (c : Context α) (a : Account) : Operation → Account
  | .beginCatch _ => { a with taken := a.taken + 1 }
  | .retain h => c.asked a h
  | .retainAny h => c.asked a (c.registry.resolve h)
  | .capture => c.asked a (c.registry.resolve c.top)
  | .release h => a.giveBack h
  | .releaseAny h => a.giveBack (c.registry.resolve h)
  | .rethrow =>
    if c.rethrowsAgain .rethrow then a.forfeit (c.registry.resolve c.top) else a
  | _ => a

/-- The calls of a disciplined client. It throws what nobody goes by, catches what is alive,
ends and rethrows inside of scopes, gives back what it has, and does not match where a name
would be refused. -/
def Allowed (c : Context α) (a : Account) : Operation → Prop
  | .throw h _ _ | .throwIndexed h _ _ _ => h ≠ Handle.null ∧ c.registry.IsUnknown h
  | .beginCatch h => c.registry.contains (c.registry.resolve h) = true
  | .endCatch | .rethrow => c.scopes ≠ []
  | .release h => 0 < a.owned h
  | .releaseAny h => 0 < a.owned (c.registry.resolve h)
  | .matchClause clauses => c.collision? clauses = none
  | _ => True

instance (c : Context α) (a : Account) (op : Operation) : Decidable (c.Allowed a op) := by
  cases op <;> unfold Allowed <;> infer_instance

/-- Every open scope is of a live exception, and an exception has as many references as it has
open scopes and the client has references to it. -/
def Accounted (c : Context α) (a : Account) : Prop :=
  (∀ k ∈ c.scopes, k ≠ Handle.null ∧ c.registry.contains k = true) ∧
    ∀ k r, c.registry.find? k = some r → r.refcount.toNat = c.scopes.count k + a.owned k

/-- Both ways to throw are under the same rule: the handle is not null and nobody knows it. -/
theorem Allowed.of_throws? {c : Context α} {a : Account} {op : Operation} {h : Handle}
    (ha : c.Allowed a op) (ht : op.throws? = some h) :
    h ≠ Handle.null ∧ c.registry.IsUnknown h := by
  cases op with
  | throw k type d =>
    cases ht
    exact ha
  | throwIndexed k type table i =>
    cases ht
    exact ha
  | _ => cases ht

end Context

/-! ## Balance -/

/-- The references to live exceptions are those of open scopes, those of the client, and the
forfeited ones; and names are kept apart. -/
structure Balanced (g : Registry) (scopes : List Handle) (a : Account) : Prop where
  refs_eq : ∀ k, g.refs k = scopes.count k + a.owned k + a.forfeited k
  refs_le : ∀ k, g.refs k ≤ a.taken
  null_unknown : g.contains Handle.null = false
  partitioned : g.Partitioned

theorem balanced_empty : Balanced Registry.empty [] Account.empty :=
  ⟨fun _ => rfl, fun _ => Nat.le_refl 0, rfl, Registry.partitioned_empty⟩

namespace Balanced

variable {g : Registry} {scopes : List Handle} {a : Account}

/-- A scope is of an exception that is alive. -/
theorem contains_of_mem (hb : Balanced g scopes a) {k : Handle} (hk : k ∈ scopes) :
    g.contains k = true := by
  have hpos := List.count_pos_iff.2 hk
  have heq := hb.refs_eq k
  exact Registry.contains_of_refs_pos (by omega)

/-- A reference of the client is to an exception that is alive. -/
theorem contains_of_owned (hb : Balanced g scopes a) {k : Handle} (hk : 0 < a.owned k) :
    g.contains k = true := by
  have heq := hb.refs_eq k
  exact Registry.contains_of_refs_pos (by omega)

/-- The null handle is nobody's. -/
theorem ne_null_of_contains (hb : Balanced g scopes a) {k : Handle}
    (hk : g.contains k = true) : k ≠ Handle.null := by
  rintro rfl
  rw [hb.null_unknown] at hk
  cases hk

theorem resolve_of_contains {k : Handle} (hk : g.contains k = true) : g.resolve k = k := by
  obtain ⟨r, hr⟩ := (Registry.contains_iff g k).1 hk
  exact Registry.resolve_of_find? hr

/-- Taking a reference that there is room for. -/
theorem refs_retain (hb : Balanced g scopes a) {h : Handle} (hlive : g.contains h = true)
    (hroom : a.taken + 1 < UInt64.size - 1) (k : Handle) :
    (g.retain h).refs k = g.refs k + if k = h then 1 else 0 := by
  have hle := hb.refs_le h
  exact Registry.refs_retain (hb.ne_null_of_contains hlive) hlive (by omega) k

/-- What the client gets is what is counted. -/
theorem take (hb : Balanced g scopes a) {h : Handle} (hlive : g.contains h = true)
    (hroom : a.taken + 1 < UInt64.size - 1) : Balanced (g.retain h) scopes (a.take h) := by
  constructor
  case refs_eq =>
    intro k
    have heq := hb.refs_eq k
    rw [hb.refs_retain hlive hroom]
    simp only [Account.take]
    omega
  case refs_le =>
    intro k
    have hle := hb.refs_le k
    rw [hb.refs_retain hlive hroom]
    simp only [Account.take]
    split <;> omega
  case null_unknown =>
    rw [Registry.contains_retain]
    exact hb.null_unknown
  case partitioned => exact hb.partitioned.retain h

/-- What the client gives back is counted no more. -/
theorem giveBack (hb : Balanced g scopes a) {h : Handle} (howned : 0 < a.owned h) :
    Balanced (g.release h) scopes (a.giveBack h) := by
  have hnull := hb.ne_null_of_contains (hb.contains_of_owned howned)
  constructor
  case refs_eq =>
    intro k
    have heq := hb.refs_eq k
    rw [Registry.refs_release hnull]
    simp only [Account.giveBack]
    -- the one that is taken away has to come off what the client has
    by_cases hk : k = h
    · subst hk
      simp only [if_true]
      omega
    · simp only [if_neg hk]
      omega
  case refs_le =>
    intro k
    have hle := hb.refs_le k
    rw [Registry.refs_release hnull]
    simp only [Account.giveBack]
    omega
  case null_unknown =>
    rw [Registry.contains_eq_false_iff, Registry.find?_release hnull, if_neg hnull,
      ← Registry.contains_eq_false_iff]
    exact hb.null_unknown
  case partitioned => exact hb.partitioned.release h

/-- Whoever touches no reference leaves the account as it is. -/
theorem of_refs_eq (hb : Balanced g scopes a) {g' : Registry} (hrefs : ∀ k, g'.refs k = g.refs k)
    (hnull : g'.contains Handle.null = false) (hpart : g'.Partitioned) :
    Balanced g' scopes a := by
  constructor
  case refs_eq =>
    intro k
    rw [hrefs]
    exact hb.refs_eq k
  case refs_le =>
    intro k
    rw [hrefs]
    exact hb.refs_le k
  case null_unknown => exact hnull
  case partitioned => exact hpart

/-- Throwing an exception that nobody knows takes no reference. -/
theorem insert_fresh (hb : Balanced g scopes a) {h : Handle} (hnull : h ≠ Handle.null)
    (hfree : g.IsUnknown h) (type : Option TypeTag) (d : Option Destructor) :
    Balanced (g.insert (.fresh h type d)) scopes a := by
  refine hb.of_refs_eq (Registry.refs_insert_fresh hfree.1 type d) ?_
    (hb.partitioned.insert_fresh hfree type d)
  have hother : (Record.fresh h type d).handle ≠ Handle.null := hnull
  rw [Registry.contains_eq_false_iff, Registry.find?_insert, if_neg hother,
    ← Registry.contains_eq_false_iff]
  exact hb.null_unknown

/-- Changes of records that leave the count alone keep the account even. -/
theorem modify (hb : Balanced g scopes a) {f : Record → Record}
    (hf : ∀ r, (f r).handle = r.handle) (hc : ∀ r, (f r).refcount = r.refcount)
    (ha : ∀ r, (f r).aliases = r.aliases) (h : Handle) :
    Balanced (g.modify h f) scopes a := by
  refine hb.of_refs_eq (Registry.refs_modify hf hc g h) ?_ (hb.partitioned.modify hf ha h)
  rw [Registry.contains_modify hf]
  exact hb.null_unknown

/-- A name is owed nothing. -/
theorem addAlias (hb : Balanced g scopes a) {g' : Registry} {owner b : Handle}
    (h : g.addAlias owner b = .ok g') : Balanced g' scopes a := by
  refine hb.of_refs_eq (Registry.refs_addAlias h) ?_ (hb.partitioned.addAlias h)
  rw [Registry.contains_addAlias h]
  exact hb.null_unknown

/-- A scope that is opened is one more of its exception. -/
theorem count_opened (h : Handle) (scopes : List Handle) (k : Handle) :
    (h :: scopes).count k = scopes.count k + if k = h then 1 else 0 := by
  rw [List.count_cons]
  by_cases hk : k = h
  · simp [hk]
  · simp [hk, Ne.symm hk]

/-- A new scope has the reference that it takes. -/
theorem openScope (hb : Balanced g scopes a) {h : Handle} (hlive : g.contains h = true)
    (hroom : a.taken + 1 < UInt64.size - 1) :
    Balanced (g.retain h) (h :: scopes) { a with taken := a.taken + 1 } := by
  obtain ⟨-, hle, hnull, hpart⟩ := hb.take hlive hroom
  refine ⟨?_, hle, hnull, hpart⟩
  intro k
  have heq := hb.refs_eq k
  rw [hb.refs_retain hlive hroom, count_opened]
  show g.refs k + _ = scopes.count k + _ + a.owned k + a.forfeited k
  omega

/-- A scope that ends gives its reference back. -/
theorem closeScope {t : Handle} {rest : List Handle} (hb : Balanced g (t :: rest) a) :
    Balanced (g.release t) rest a := by
  -- the reference of the scope is one that a client has and gives back
  have hclient : Balanced g rest (a.take t) := by
    refine ⟨fun k => ?_, fun k => ?_, hb.null_unknown, hb.partitioned⟩
    · have heq := hb.refs_eq k
      rw [count_opened] at heq
      simp only [Account.take]
      omega
    · exact Nat.le_succ_of_le (hb.refs_le k)
  have hback := hclient.giveBack (h := t) (by simp [Account.take])
  refine ⟨fun k => ?_, fun k => ?_, hback.null_unknown, hback.partitioned⟩
  · rw [hback.refs_eq k]
    simp [Account.take, Account.giveBack]
  · have hle := hb.refs_le k
    rw [Registry.refs_release (hb.ne_null_of_contains (hb.contains_of_mem List.mem_cons_self))]
    omega

/-- A scope that is closed otherwise leaves its reference to nobody. -/
theorem loseScope {t : Handle} {rest : List Handle} (hb : Balanced g (t :: rest) a) :
    Balanced g rest (a.forfeit t) := by
  refine ⟨?_, hb.refs_le, hb.null_unknown, hb.partitioned⟩
  intro k
  have heq := hb.refs_eq k
  rw [count_opened] at heq
  simp only [Account.forfeit]
  omega

end Balanced

/-! ## Calls -/

namespace Context

variable {α : Type}

/-- The account of a context is even. -/
def IsBalanced (c : Context α) (a : Account) : Prop := Balanced c.registry c.scopes a

/-- The references taken are never fewer: what is given back has been taken all the same. -/
theorem taken_le_account (c : Context α) (a : Account) (op : Operation) :
    a.taken ≤ (c.account a op).taken := by
  have hasked : ∀ h, a.taken ≤ (c.asked a h).taken := by
    intro h
    unfold asked
    split
    · exact Nat.le_succ a.taken
    · exact Nat.le_refl a.taken
  cases op with
  | beginCatch h => exact Nat.le_succ a.taken
  | retain h => exact hasked h
  | retainAny h => exact hasked _
  | capture => exact hasked _
  | rethrow =>
    rw [account]
    split <;> exact Nat.le_refl a.taken
  | _ => exact Nat.le_refl a.taken

/-- A reference that is asked for. -/
theorem IsBalanced.asked {c : Context α} {a : Account} (hb : c.IsBalanced a) {h : Handle}
    (hroom : (c.asked a h).taken < UInt64.size - 1) :
    Balanced (c.registry.retain h) c.scopes (c.asked a h) := by
  unfold Context.asked at hroom ⊢
  split
  next hlive =>
    rw [if_pos hlive] at hroom
    exact hb.take hlive hroom
  next hdead =>
    rw [Bool.not_eq_true, Registry.contains_eq_false_iff] at hdead
    rw [Registry.retain_of_find?_none hdead]
    exact hb

/-- The scope of a disciplined client is of the exception that its handle leads to. -/
theorem IsBalanced.resolve_head {c : Context α} {a : Account} (hb : c.IsBalanced a) {t : Handle}
    {rest : List Handle} (hs : c.scopes = t :: rest) : c.registry.resolve t = t :=
  Balanced.resolve_of_contains (hb.contains_of_mem (by rw [hs]; exact List.mem_cons_self))

/-- A call of a disciplined client keeps the account even. -/
theorem IsBalanced.step {c : Context α} {a : Account} (hb : c.IsBalanced a) {op : Operation}
    (ha : c.Allowed a op) (hroom : (c.account a op).taken < UInt64.size - 1) :
    Balanced (c.registryAfter op) (c.scopesAfter op) (c.account a op) := by
  have hcaught := fun h => Balanced.modify hb (f := Record.nowCaught) (fun _ => rfl)
    (fun _ => rfl) (fun _ => rfl) h
  have hmarked := fun h => Balanced.modify hb (f := Record.nowRethrown) (fun _ => rfl)
    (fun _ => rfl) (fun _ => rfl) h
  cases op with
  | throw h type d => exact Balanced.insert_fresh hb ha.1 ha.2 type d
  | throwIndexed h type table i =>
    rw [registryAfter, change]
    cases ht : (Operation.throwIndexed h type table i).thrown? with
    | none => exact hb
    | some r =>
      obtain ⟨type', d, hr, hh⟩ := Operation.thrown?_eq_some ht
      rw [hr]
      exact Balanced.insert_fresh hb (ha.of_throws? hh).1 (ha.of_throws? hh).2 type' d
  | beginCatch h =>
    refine (hcaught _).openScope ?_ hroom
    rw [Registry.contains_modify (f := Record.nowCaught) fun _ => rfl]
    exact ha
  | endCatch =>
    obtain ⟨t, rest, hs⟩ := List.exists_cons_of_ne_nil ha
    have hb' := hb
    rw [IsBalanced, hs] at hb'
    rw [registryAfter, change, Change.on, top_of_scopes hs, hb.resolve_head hs, scopesAfter, hs]
    exact hb'.closeScope
  | rethrow =>
    obtain ⟨t, rest, hs⟩ := List.exists_cons_of_ne_nil ha
    have hb' := hmarked t
    rw [hs] at hb'
    have ht := hb.resolve_head hs
    simp only [registryAfter, change, scopesAfter, hs, Change.on, account, rethrowsAgain,
      top_of_scopes hs, ht]
    -- a mark that is there already costs the scope, and with it the reference
    split
    · exact hb'.loseScope
    · exact hb'
  | capture => exact hb.asked hroom
  | rethrowCaptured h =>
    rw [registryAfter, change]
    split
    · exact hb
    · exact hmarked _
  | retain h => exact hb.asked hroom
  | release h => exact Balanced.giveBack hb ha
  | retainAny h => exact hb.asked hroom
  | releaseAny h => exact Balanced.giveBack hb ha
  | matchClause clauses =>
    rw [registryAfter, change]
    cases hch : c.choice? clauses with
    | none => exact hb
    | some m =>
      simp only [Change.on]
      split
      next g' hg' => exact Balanced.addAlias hb hg'
      · exact hb
  | allocate | free | resume | exceptionPtr | unexpected | resolve | record? | setThrew | setSink =>
    exact hb

/-- No call of a disciplined client is a misuse. -/
theorem IsBalanced.misuse?_eq_none {c : Context α} {a : Account} (hb : c.IsBalanced a)
    {op : Operation} (ha : c.Allowed a op) : c.misuse? op = none := by
  -- a count above zero can be given back, whatever stands behind it
  have hunder : ∀ h, 0 < c.registry.refs h → c.underflow? h = none := by
    intro h hpos
    rw [underflow?, if_neg]
    rintro ⟨-, -, hzero⟩
    omega
  have howned : ∀ h, 0 < a.owned h → c.underflow? h = none := by
    intro h hpos
    have heq := hb.refs_eq h
    exact hunder h (by omega)
  cases op with
  | endCatch =>
    obtain ⟨t, rest, hs⟩ := List.exists_cons_of_ne_nil ha
    have hpos : 0 < c.scopes.count t := by
      rw [hs]
      exact List.count_pos_iff.2 List.mem_cons_self
    have heq := hb.refs_eq t
    simp only [misuse?, hs, hb.resolve_head hs]
    exact hunder t (by omega)
  | rethrow => exact if_neg ha
  | release h => exact howned h ha
  | releaseAny h => exact howned _ ha
  | matchClause clauses => exact ha
  | _ => rfl

/-- A rethrow once more is what forfeits a reference, and nothing makes up for that. -/
theorem forfeited_account (c : Context α) (a : Account) (op : Operation) :
    (∀ h, (c.account a op).forfeited h = 0) ↔
      (∀ h, a.forfeited h = 0) ∧ c.rethrowsAgain op = false := by
  have hasked : ∀ h, (c.asked a h).forfeited = a.forfeited := by
    intro h
    unfold asked
    split <;> rfl
  cases op with
  | retain h => simp [account, hasked, rethrowsAgain]
  | retainAny h => simp [account, hasked, rethrowsAgain]
  | capture => simp [account, hasked, rethrowsAgain]
  | rethrow =>
    rw [account]
    split
    next hagain =>
      rw [hagain]
      refine ⟨fun h => ?_, fun h => ?_⟩
      · -- this handle has been forfeited just now, so not all are at zero
        have hone := h (c.registry.resolve c.top)
        simp [Account.forfeit] at hone
      · cases h.2
    next hagain =>
      rw [Bool.not_eq_true] at hagain
      simp [hagain]
  | _ => simp [account, Account.giveBack, rethrowsAgain]

/-- Where the account is even, it is forfeited references that make the counts of exceptions
greater than they should be. -/
theorem IsBalanced.accounted_iff {c : Context α} {a : Account} (hb : c.IsBalanced a) :
    c.Accounted a ↔ ∀ h, a.forfeited h = 0 := by
  constructor
  · rintro ⟨-, hcount⟩ h
    -- what is not alive counts as zero, and so do its three summands
    have heq := hb.refs_eq h
    cases hr : c.registry.find? h with
    | none =>
      rw [Registry.refs_of_find?_none hr] at heq
      omega
    | some r =>
      have hrefs := hcount h r hr
      rw [Registry.refs_of_find? hr] at heq
      omega
  · intro hzero
    refine ⟨fun k hk => ?_, fun k r hr => ?_⟩
    · have hlive := hb.contains_of_mem hk
      exact ⟨hb.ne_null_of_contains hlive, hlive⟩
    · have heq := hb.refs_eq k
      rw [Registry.refs_of_find? hr, hzero k] at heq
      exact heq

/-! ## Runs -/

variable [Allocator α]

/-- The account after a run. -/
def audit (build : Build) (c : Context α) (a : Account) : List Call → Account
  | [] => a
  | k :: l => (c.call build k).state.audit build (c.account a k.operation) l

/-- A run of a disciplined client. -/
def Disciplined (build : Build) (c : Context α) (a : Account) : List Call → Prop
  | [] => True
  | k :: l =>
    c.Allowed a k.operation ∧
      (c.call build k).state.Disciplined build (c.account a k.operation) l

instance instDecidableDisciplined (build : Build) :
    (c : Context α) → (a : Account) → (l : List Call) → Decidable (c.Disciplined build a l)
  | _, _, [] => instDecidableTrue
  | c, a, k :: l =>
    have := instDecidableDisciplined build (c.call build k).state (c.account a k.operation) l
    instDecidableAnd

/-- Along a run the references taken are never fewer, so a bound at its end holds all the way. -/
theorem taken_le_audit (build : Build) (c : Context α) (a : Account) (l : List Call) :
    a.taken ≤ (c.audit build a l).taken := by
  induction l generalizing c a with
  | nil => exact Nat.le_refl a.taken
  | cons k l ih => exact Nat.le_trans (taken_le_account c a k.operation) (ih _ _)

/-- The account is even as long as there is room for the references that are taken. -/
theorem IsBalanced.run {build : Build} {c : Context α} {a : Account} {l : List Call}
    (hb : c.IsBalanced a) (hd : c.Disciplined build a l)
    (hroom : (c.audit build a l).taken < UInt64.size - 1) :
    (c.run build l).IsBalanced (c.audit build a l) := by
  -- the count of all references taken only grows, so the room at the end is room all along
  induction l generalizing c a with
  | nil => exact hb
  | cons k l ih =>
    obtain ⟨ha, hd⟩ := hd
    have hroom' : (c.account a k.operation).taken < UInt64.size - 1 :=
      Nat.lt_of_le_of_lt (taken_le_audit build _ _ l) hroom
    have hstep := hb.step ha hroom'
    rw [← registry_call build, ← scopes_call build] at hstep
    exact ih hstep hd hroom

/-- A run forfeits nothing if no call of it rethrows what is on its way already. -/
theorem forfeited_audit (build : Build) (c : Context α) (a : Account) (l : List Call) :
    (∀ h, (c.audit build a l).forfeited h = 0) ↔
      (∀ h, a.forfeited h = 0) ∧ ∀ before k rest, l = before ++ k :: rest →
        (c.run build before).rethrowsAgain k.operation = false := by
  induction l generalizing c a with
  | nil => simp [audit]
  | cons k l ih =>
    rw [forall_split_cons (P := fun before k =>
      (c.run build before).rethrowsAgain k.operation = false), audit, ih, forfeited_account,
      and_assoc]
    rfl

/-- The references of a disciplined client are accounted for. Every open scope is of a live
exception; an exception that the client has a reference to is alive; its count is the number
of its open scopes, of the references of the client, and of the forfeited ones; no name is
shared, and every name leads to whose it is; and no further call that is allowed is a misuse.
There is no forfeited reference, and the counts are what scopes and client have, as long as and
only as long as nothing was rethrown once more before it was caught. -/
theorem references_accounted_for (build : Build) (types : Hierarchy) (allocator : α)
    (l : List Call)
    (hd : (fresh types allocator).Disciplined build Account.empty l)
    (hroom : ((fresh types allocator).audit build Account.empty l).taken < UInt64.size - 1) :
    let c := (fresh types allocator).run build l
    let a := (fresh types allocator).audit build Account.empty l
    (∀ k ∈ c.scopes, k ≠ Handle.null ∧ c.registry.contains k = true) ∧
      (∀ k, 0 < a.owned k → c.registry.contains k = true) ∧
      (∀ k, c.registry.refs k = c.scopes.count k + a.owned k + a.forfeited k) ∧
      c.registry.Partitioned ∧
      (∀ k r x, c.registry.find? k = some r → x ∈ r.aliases → x ≠ Handle.null →
        c.registry.resolve x = k) ∧
      (∀ conduct op v, c.Allowed a op →
        (c.perform build conduct op).outcome ≠ .panicked (.violation v)) ∧
      (c.Accounted a ↔ ∀ before k rest, l = before ++ k :: rest →
        ((fresh types allocator).run build before).rethrowsAgain k.operation = false) := by
  intro c a
  -- all but the last statement can be read off the balance at the end
  have hb : c.IsBalanced a := IsBalanced.run balanced_empty hd hroom
  refine ⟨fun k hk => ?_, fun k hk => hb.contains_of_owned hk, hb.refs_eq, hb.partitioned,
    fun k r x hr hx hnull => hb.partitioned.resolve_eq hr hx hnull,
    fun conduct op v ha hv => ?_, ?_⟩
  · have hlive := hb.contains_of_mem hk
    exact ⟨hb.ne_null_of_contains hlive, hlive⟩
  · have hmis := (misuse?_of_violation hv).2
    rw [hb.misuse?_eq_none ha] at hmis
    cases hmis
  · rw [hb.accounted_iff, forfeited_audit]
    exact and_iff_right fun _ => rfl

/-- An exception that is captured in its handler and let go of outside of it. -/
theorem references_accounted_for_captured :
    let c := fresh Hierarchy.empty (Bump.startingAt 4096)
    let l := [Operation.throw ⟨16⟩ none none, .beginCatch ⟨16⟩, .capture, .endCatch,
      .release ⟨16⟩].map (Call.mk .quiet)
    c.Disciplined .checked Account.empty l ∧
      (c.audit .checked Account.empty l).taken < UInt64.size - 1 ∧
      (c.run .checked l).Accounted (c.audit .checked Account.empty l) := by
  intro c l
  have hd : c.Disciplined .checked Account.empty l := by decide +kernel
  have hroom : (c.audit .checked Account.empty l).taken < UInt64.size - 1 := by decide +kernel
  obtain ⟨-, -, -, -, -, -, hiff⟩ := references_accounted_for .checked _ _ l hd hroom
  refine ⟨hd, hroom, hiff.2 ?_⟩
  intro before k rest hl
  have hk : k ∈ l := by
    rw [hl]
    simp
  simp only [l, List.map_cons, List.map_nil, List.mem_cons, List.not_mem_nil, or_false] at hk
  rcases hk with rfl | rfl | rfl | rfl | rfl <;> rfl

/-- An exception that is rethrown once more before anybody has caught it again: its scope is
closed, and the reference of the scope stays. -/
theorem rethrown_again_not_accounted :
    let c := fresh Hierarchy.empty (Bump.startingAt 4096)
    let l := [Operation.throw ⟨16⟩ none none, .beginCatch ⟨16⟩, .rethrow, .rethrow].map
      (Call.mk .quiet)
    c.Disciplined .checked Account.empty l ∧
      (c.audit .checked Account.empty l).taken < UInt64.size - 1 ∧
      ¬ (c.run .checked l).Accounted (c.audit .checked Account.empty l) := by
  intro c l
  refine ⟨by decide +kernel, by decide +kernel, fun ⟨_, hcount⟩ => ?_⟩
  have hrefs : (c.run .checked l).registry.refs ⟨16⟩ = 1 := by decide +kernel
  have hclosed : (c.run .checked l).scopes = [] := by decide +kernel
  have howned : (c.audit .checked Account.empty l).owned ⟨16⟩ = 0 := by decide +kernel
  obtain ⟨r, hr⟩ := (Registry.contains_iff _ _).1
    (Registry.contains_of_refs_pos (h := ⟨16⟩) (by rw [hrefs]; exact Nat.one_pos))
  have heq := hcount ⟨16⟩ r hr
  rw [← Registry.refs_of_find? hr, hrefs, hclosed, howned] at heq
  cases heq

end Context

end ExceptionLifetime
