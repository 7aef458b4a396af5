/-
The live exceptions.

Matching hands out addresses of base subobjects, and generated code comes back
with those. So any handle that comes from outside is resolved first: it may be
the handle of a live exception, or an alias of one, or something never seen
before. An alias is looked for among all live exceptions in ascending order,
and the first that goes by it is its owner. To keep owners unique, an alias that
already leads to another exception is refused.
-/
import ExceptionLifetime.Registry.Record
import ExceptionLifetime.Trace.LogEntry

set_option autoImplicit false

namespace ExceptionLifetime

/-- The live exceptions, by handle. -/
structure Registry where
  records : Ascending Record (fun r => r.handle.toNat)
  deriving DecidableEq

namespace Registry

/-- No live exceptions. -/
def empty : Registry := ⟨Ascending.empty⟩

/-- The live exceptions in ascending order of handle. -/
def toList (g : Registry) : List Record := g.records.toList

/-- The number of live exceptions. -/
def size (g : Registry) : Nat := g.records.size

/-- The exception with this very handle. -/
def find? (g : Registry) (h : Handle) : Option Record := g.records.find? h.toNat

/-- Whether a live exception has this very handle. -/
def contains (g : Registry) (h : Handle) : Bool := (g.find? h).isSome

/-- Enters a record, in place of the one with the same handle. -/
def insert (g : Registry) (r : Record) : Registry := ⟨g.records.insert r⟩

/-- Forgets an exception. -/
def erase (g : Registry) (h : Handle) : Registry := ⟨g.records.erase h.toNat⟩

/-- The first exception that goes by `h`. -/
def owner? (g : Registry) (h : Handle) : Option Handle :=
  (g.toList.find? (·.hasAlias h)).map Record.handle

/-! ## Resolving handles -/

/-- The handle of the exception that `h` leads to. What leads nowhere stays as it is. -/
def resolve (g : Registry) (h : Handle) : Handle :=
  if h.isNull || g.contains h then h else (g.owner? h).getD h

/-- What resolving `h` writes to the log: nothing for a handle that is an exception's own. -/
def resolution (g : Registry) (h : Handle) : List LogEntry :=
  if h.isNull || g.contains h then []
  else
    match g.owner? h with
    | some owner => [.resolved h owner]
    | none => [.unknownHandle h]

/-- The live exception that `h` would lead to as an alias, if there is one. -/
def leadsTo? (g : Registry) (h : Handle) : Option Handle :=
  if g.contains h then some h else g.owner? h

/-- The registry in which `owner`, if alive, goes by `h`. -/
def named (g : Registry) (owner h : Handle) : Registry :=
  match g.find? owner with
  | some r => g.insert (r.withAlias h)
  | none => g

/-- Lets the exception `owner` go by `h` too. The null handle is no name, and a name that
leads to another exception is refused. -/
def addAlias (g : Registry) (owner h : Handle) : Except Violation Registry :=
  if h.isNull then .ok g
  else
    match g.leadsTo? h with
    | some other =>
      if other = owner then .ok (g.named owner h) else .error (.aliasCollision h owner other)
    | none => .ok (g.named owner h)

/-! ## What each operation leaves to find -/

/-- A record that is entered is seen under its own handle only. -/
theorem find?_insert (g : Registry) (r : Record) (h : Handle) :
    (g.insert r).find? h = if r.handle = h then some r else g.find? h := by
  simp only [find?, insert, Ascending.find?_insert, Handle.toNat_inj]

/-- A record that is taken out is missing under its own handle only. -/
theorem find?_erase (g : Registry) (h k : Handle) :
    (g.erase h).find? k = if h = k then none else g.find? k := by
  simp only [find?, erase, Ascending.find?_erase, Handle.toNat_inj]

@[simp] theorem find?_empty (h : Handle) : empty.find? h = none := rfl

/-- A record is found under its own handle. -/
theorem handle_of_find? {g : Registry} {h : Handle} {r : Record} (hr : g.find? h = some r) :
    r.handle = h :=
  Handle.ext_toNat (Ascending.find?_eq_some_iff.1 hr).2

/-! ## Where a handle leads -/

/-- The null handle leads to itself, whatever names there are. -/
@[simp] theorem resolve_null (g : Registry) : g.resolve Handle.null = Handle.null := by
  simp [resolve]

/-- The handle of a live exception leads to that exception, whatever else goes by it. -/
theorem resolve_of_find? {g : Registry} {h : Handle} {r : Record} (hr : g.find? h = some r) :
    g.resolve h = h := by
  simp [resolve, contains, hr]

/-- A handle that is no exception's own leads to its owner. -/
theorem resolve_of_owner? {g : Registry} {h owner : Handle} (hnull : h ≠ Handle.null)
    (hfind : g.find? h = none) (howner : g.owner? h = some owner) : g.resolve h = owner := by
  simp [resolve, contains, hnull, hfind, howner]

/-- An owner is a live exception that goes by the handle. -/
theorem exists_of_owner? {g : Registry} {h owner : Handle} (howner : g.owner? h = some owner) :
    ∃ r, g.find? owner = some r ∧ r.hasAlias h = true := by
  unfold owner? at howner
  obtain ⟨r, hr, rfl⟩ := Option.map_eq_some_iff.1 howner
  have hmem : r ∈ g.records := List.mem_of_find?_eq_some hr
  exact ⟨r, Ascending.find?_eq_some_iff.2 ⟨hmem, rfl⟩, by simpa using List.find?_some hr⟩

/-! ## Equality of registries -/

/-- Registries in which every look-up finds the same are equal. -/
theorem ext_find? {g g' : Registry} (h : ∀ k, g.find? k = g'.find? k) : g = g' := by
  obtain ⟨s⟩ := g
  obtain ⟨t⟩ := g'
  refine congrArg Registry.mk (Ascending.ext_find? fun k => ?_)
  by_cases hk : k < UInt64.size
  · have hn : Handle.toNat ⟨UInt64.ofNat k⟩ = k := UInt64.toNat_ofNat_of_lt' hk
    have hfind := h ⟨UInt64.ofNat k⟩
    unfold find? at hfind
    rwa [hn] at hfind
  · -- no handle is that large, so neither registry has such a record
    have hnone : ∀ u : Ascending Record (fun r => r.handle.toNat), u.find? k = none := by
      intro u
      refine Ascending.find?_eq_none_iff.2 fun r _ hr => hk ?_
      exact hr ▸ r.handle.addr.toNat_lt
    rw [hnone, hnone]

end Registry

end ExceptionLifetime
