/-
Destructors that are thrown by index.

A table keeps a vector of entries, any of which may be empty. To register is to lengthen
the vector where it is too short and to overwrite one entry. So in whatever order the
indices come, and with whatever gaps, an index resolves to what was registered under it
last, and to nothing if nothing was.

A vector takes more room than it needs, and this is where the order counts: one that has
taken more than half of the greatest possible room cannot grow at all, and refuses indices
that a shorter one would have taken. What is refused leaves no trace, so the table is a
finite map of the registrations that were not refused. An index in the lower half is never
refused, whatever has been registered: a vector that is too short for it can be doubled.

A throw resolves its index once and keeps what it finds. From then on the exception and
the table have nothing to do with each other: the table appears in no other call, and
the destructor is a field of the record that nothing changes. So an exception is
destroyed by what was registered when it was thrown, however much later that is and
whatever the table has become by then.
-/
import ExceptionLifetime.Proofs.Lifetime
import Mathlib.Data.List.Induction

set_option autoImplicit false

namespace ExceptionLifetime

/-! ## What was registered last -/

namespace Registration

/-- Of these registrations the last one under the index `i` is that of `d`. -/
def LastAt (l : List Registration) (i : UInt64) (d : Destructor) : Prop :=
  ∃ before after, l = before ++ ⟨i, d⟩ :: after ∧ ∀ r ∈ after, r.index ≠ i

theorem not_lastAt_nil (i : UInt64) (d : Destructor) : ¬ LastAt [] i d := by
  rintro ⟨before, after, hl, -⟩
  simp at hl

/-- One more registration is the last one under its own index, and no other. -/
theorem lastAt_concat_iff {l : List Registration} {r : Registration} {i : UInt64}
    {d : Destructor} :
    LastAt (l ++ [r]) i d ↔ if r.index = i then r.destructor = d else LastAt l i d := by
  constructor
  · rintro ⟨before, after, hl, hafter⟩
    -- what comes after the last one at `i` is nothing, or ends with the new one
    rcases List.eq_nil_or_concat after with rfl | ⟨after, s, rfl⟩
    · obtain ⟨-, hr⟩ := List.append_inj' hl rfl
      obtain rfl := (List.cons.inj hr).1
      rw [if_pos rfl]
    · have hsplit : l ++ [r] = (before ++ ⟨i, d⟩ :: after) ++ [s] := by simpa using hl
      obtain ⟨hinit, hr⟩ := List.append_inj' hsplit rfl
      obtain rfl := (List.cons.inj hr).1
      rw [if_neg (hafter r (by simp))]
      exact ⟨before, after, hinit, fun s hs => hafter s (by simp [hs])⟩
  · intro h
    split at h
    next hi =>
      refine ⟨l, [], ?_, by simp⟩
      rw [← hi, ← h]
    next hi =>
      obtain ⟨before, after, rfl, hafter⟩ := h
      refine ⟨before, after ++ [r], by simp, fun s hs => ?_⟩
      rcases List.mem_append.1 hs with hs | hs
      · exact hafter s hs
      · obtain rfl := List.mem_singleton.1 hs
        exact hi

end Registration

namespace DestructorTable

/-! ## The registrations that are not refused -/

/-- Whether the table has room for an index, or can make it. -/
def admits (t : DestructorTable) (i : UInt64) : Bool := (roomFor t.room (i.toNat + 1)).isSome

/-- The table after a registration, which is as it was if the registration is refused. -/
def registered (t : DestructorTable) (r : Registration) : DestructorTable :=
  match t.register r.index r.destructor with
  | .ok t' => t'
  | .error _ => t

/-- The table after these registrations, one after the other. -/
def registeredAll (t : DestructorTable) (l : List Registration) : DestructorTable :=
  l.foldl registered t

/-- Of these registrations, made one after the other, those that are not refused. -/
def accepted (t : DestructorTable) : List Registration → List Registration
  | [] => []
  | r :: l =>
    if t.admits r.index then r :: (t.registered r).accepted l else (t.registered r).accepted l

/-- An index is refused where there is no room for it and none to be had. -/
theorem admits_eq_false_iff {t : DestructorTable} {i : UInt64} :
    t.admits i = false ↔ t.room ≤ i.toNat ∧ entryLimit < grown t.room (i.toNat + 1) := by
  rw [admits, Option.isSome_eq_false_iff, Option.isNone_iff_eq_none, roomFor_eq_none_iff,
    Nat.lt_add_one_iff]

/-- An index in the lower half is never refused: a table without room for it has at most half of
the greatest room, and may double it. -/
theorem admits_of_lower_half (t : DestructorTable) {i : UInt64}
    (h : 2 * i.toNat ≤ entryLimit) : t.admits i = true := by
  rw [← Bool.not_eq_false, admits_eq_false_iff]
  rintro ⟨hroom, hgrown⟩
  have hfour : leastRoom ≤ entryLimit := by decide
  have hone : 1 ≤ entryLimit := by decide
  unfold grown at hgrown
  omega

/-- The bound is sharp. The first index of the upper half is refused by a table that has taken
exactly half of the room, and not by the empty one. -/
example :
    let half : UInt64 := 576460752303423488
    let t := empty.registered ⟨half - 1, ⟨0⟩⟩
    2 * half.toNat = entryLimit + 1 ∧ t.admits half = false ∧ empty.admits half = true := by
  decide

/-- To register in the lower half returns. -/
theorem register_of_lower_half (t : DestructorTable) {i : UInt64} (d : Destructor)
    (h : 2 * i.toNat ≤ entryLimit) : ∃ t', t.register i d = .ok t' := by
  cases hregister : t.register i d with
  | ok t' => exact ⟨t', rfl⟩
  | error e =>
    have hrefused := admits_eq_false_iff.2 (register_eq_error_iff.1 hregister).1
    rw [admits_of_lower_half t h] at hrefused
    cases hrefused

/-- A refused registration leaves the table as it was. -/
theorem registered_of_not_admits {t : DestructorTable} {r : Registration}
    (h : t.admits r.index = false) : t.registered r = t := by
  rw [registered, register_eq_error_iff.2 ⟨admits_eq_false_iff.1 h, rfl⟩]

/-- What is admitted is in the table from then on, and nothing else has changed. -/
theorem resolve_registered (t : DestructorTable) (r : Registration) (i : UInt64) :
    (t.registered r).resolve i =
      if t.admits r.index ∧ r.index = i then .ok r.destructor else t.resolve i := by
  cases hadmits : t.admits r.index with
  | false => simp [registered_of_not_admits hadmits]
  | true =>
    unfold registered
    cases h : t.register r.index r.destructor with
    | ok t' => simp [resolve_register h]
    | error e =>
      rw [admits_eq_false_iff.2 (register_eq_error_iff.1 h).1] at hadmits
      cases hadmits

theorem registeredAll_concat (t : DestructorTable) (l : List Registration) (r : Registration) :
    t.registeredAll (l ++ [r]) = (t.registeredAll l).registered r := by
  simp only [registeredAll, List.foldl_append, List.foldl_cons, List.foldl_nil]

/-- Whether one more registration is accepted depends on what those before it have left. -/
theorem accepted_concat (t : DestructorTable) (l : List Registration) (r : Registration) :
    t.accepted (l ++ [r]) =
      t.accepted l ++ if (t.registeredAll l).admits r.index then [r] else [] := by
  induction l generalizing t with
  | nil =>
    simp only [List.nil_append, accepted, registeredAll, List.foldl_nil]
    rfl
  | cons s l ih =>
    rw [List.cons_append, accepted, accepted, ih]
    split <;> rfl

/-- What is refused leaves no trace. -/
theorem registeredAll_accepted (t : DestructorTable) (l : List Registration) :
    t.registeredAll (t.accepted l) = t.registeredAll l := by
  induction l generalizing t with
  | nil => rfl
  | cons r l ih =>
    rw [accepted]
    split
    next => exact ih (t.registered r)
    next h =>
      have hsame : t.registered r = t := registered_of_not_admits (by simpa using h)
      rw [hsame, ih t, registeredAll, registeredAll, List.foldl_cons, hsame]

/-- An index resolves to what was registered under it last, of all that was not refused. -/
theorem resolve_registeredAll_eq_ok_iff {l : List Registration} {i : UInt64} {d : Destructor} :
    (empty.registeredAll l).resolve i = .ok d ↔ Registration.LastAt (empty.accepted l) i d := by
  induction l using List.reverseRecOn with
  | nil =>
    refine iff_of_false ?_ (Registration.not_lastAt_nil i d)
    simp [registeredAll]
  | append_singleton l r ih =>
    rw [registeredAll_concat, resolve_registered, accepted_concat]
    by_cases hr : (empty.registeredAll l).admits r.index
    · rw [if_pos hr, Registration.lastAt_concat_iff]
      by_cases hi : r.index = i
      · subst hi
        simp [hr]
      · simp [hi, ih]
    · simp [hr, ih]

/-- An index is reported if no registration under it was accepted. -/
theorem resolve_registeredAll_eq_error_iff {l : List Registration} {i : UInt64}
    {e : UnregisteredIndex} :
    (empty.registeredAll l).resolve i = .error e ↔
      e = ⟨i⟩ ∧ ∀ r ∈ empty.accepted l, r.index ≠ i := by
  induction l using List.reverseRecOn with
  | nil => simp [registeredAll, accepted, eq_comm]
  | append_singleton l r ih =>
    rw [registeredAll_concat, resolve_registered, accepted_concat]
    by_cases hr : (empty.registeredAll l).admits r.index
    · by_cases hi : r.index = i
      · subst hi
        simp [hr]
      · simp [hi, ih, or_imp, forall_and]
    · simp [hr, ih]

/-- In the lower half it does not matter which other registrations were refused. -/
theorem lastAt_accepted_iff (t : DestructorTable) {l : List Registration} {i : UInt64}
    {d : Destructor} (h : 2 * i.toNat ≤ entryLimit) :
    Registration.LastAt (t.accepted l) i d ↔ Registration.LastAt l i d := by
  induction l using List.reverseRecOn with
  | nil => rfl
  | append_singleton l r ih =>
    rw [accepted_concat, Registration.lastAt_concat_iff]
    by_cases hi : r.index = i
    · rw [if_pos (admits_of_lower_half _ (hi ▸ h)), Registration.lastAt_concat_iff, if_pos hi,
        if_pos hi]
    · rw [if_neg hi, ← ih]
      split
      · rw [Registration.lastAt_concat_iff, if_neg hi]
      · rw [List.append_nil]

/-- In the lower half nothing is refused. -/
theorem mem_accepted_iff (t : DestructorTable) {l : List Registration} {r : Registration}
    (h : 2 * r.index.toNat ≤ entryLimit) : r ∈ t.accepted l ↔ r ∈ l := by
  induction l using List.reverseRecOn with
  | nil => rfl
  | append_singleton l s ih =>
    rw [accepted_concat, List.mem_append, List.mem_append, ih]
    refine or_congr_right ⟨fun hr => ?_, fun hr => ?_⟩
    · split at hr
      · exact hr
      · cases hr
    · obtain rfl := List.mem_singleton.1 hr
      rw [if_pos (admits_of_lower_half _ h)]
      exact hr

end DestructorTable

/-! ## The vector of entries -/

/-- A vector whose entries may be empty, and what it has room for. -/
structure Entries where
  slots : List (Option Destructor)
  room : Nat

namespace Entries

/-- The vector that has taken no room yet. -/
def empty : Entries := ⟨[], 0⟩

/-- Lengthens the vector by empty entries, if there is room for them or room can be made. -/
def resize (v : Entries) (length : Nat) : Option Entries :=
  (DestructorTable.roomFor v.room length).map fun room =>
    ⟨v.slots ++ List.replicate (length - v.slots.length) none, room⟩

/-- Overwrites the entry at an index. A vector that is too short is lengthened before, up to the
index or, if that is the greatest word, as far as a word can say. -/
def register (v : Entries) (r : Registration) : Option Entries :=
  let wide := if v.slots.length ≤ r.index.toNat
    then v.resize (min (r.index.toNat + 1) (UInt64.size - 1)) else some v
  wide.map fun w => { w with slots := w.slots.set r.index.toNat (some r.destructor) }

/-- The vector after a registration, which is as it was if there is no room. -/
def registered (v : Entries) (r : Registration) : Entries := (v.register r).getD v

/-- The entries after one of them is overwritten, where too few are lengthened before. -/
def overwrite (slots : List (Option Destructor)) (r : Registration) : List (Option Destructor) :=
  (slots ++ List.replicate (r.index.toNat + 1 - slots.length) none).set r.index.toNat
    (some r.destructor)

/-- The number of entries may be cut down to a word: a vector cannot have as many anyway. -/
theorem roomFor_saturated {room : Nat} (hroom : room ≤ DestructorTable.entryLimit) (i : UInt64) :
    DestructorTable.roomFor room (min (i.toNat + 1) (UInt64.size - 1)) =
      DestructorTable.roomFor room (i.toNat + 1) := by
  by_cases hi : i.toNat + 1 ≤ UInt64.size - 1
  · rw [Nat.min_eq_left hi]
  · have hlimit : DestructorTable.entryLimit < UInt64.size - 1 := by decide
    have hnone : ∀ needed, UInt64.size - 1 ≤ needed →
        DestructorTable.roomFor room needed = none := by
      intro needed hneeded
      refine DestructorTable.roomFor_eq_none_iff.2 ⟨by omega, ?_⟩
      unfold DestructorTable.grown
      omega
    rw [hnone _ (by omega), hnone _ (by omega)]

/-- A vector finds room for an index as a table does, and then one entry is overwritten. -/
theorem register_eq {v : Entries} (hlength : v.slots.length ≤ v.room)
    (hroom : v.room ≤ DestructorTable.entryLimit) (r : Registration) :
    v.register r = (DestructorTable.roomFor v.room (r.index.toNat + 1)).map fun room =>
      ⟨overwrite v.slots r, room⟩ := by
  unfold register
  by_cases hshort : v.slots.length ≤ r.index.toNat
  · rw [if_pos hshort, resize, roomFor_saturated hroom, Option.map_map]
    cases hfound : DestructorTable.roomFor v.room (r.index.toNat + 1) with
    | none => rfl
    | some room =>
      -- where there is room, the number of entries is a word
      have hmin : min (r.index.toNat + 1) (UInt64.size - 1) = r.index.toNat + 1 := by
        obtain ⟨hneeded, -, hle⟩ := DestructorTable.roomFor_spec hfound
        have hlimit : DestructorTable.entryLimit < UInt64.size - 1 := by decide
        have := hle hroom
        omega
      simp only [Option.map_some, Function.comp, hmin, overwrite]
  · have hlong : r.index.toNat + 1 ≤ v.room := by omega
    have hnone : r.index.toNat + 1 - v.slots.length = 0 := by omega
    rw [if_neg hshort, DestructorTable.roomFor, if_pos hlong, Option.map_some, Option.map_some,
      overwrite, hnone, List.replicate_zero, List.append_nil]

/-- The entry that is overwritten has the new destructor, and the others are what they were. -/
theorem getElem?_overwrite (slots : List (Option Destructor)) (r : Registration) (i : UInt64) :
    (overwrite slots r)[i.toNat]?.join =
      if r.index = i then some r.destructor else slots[i.toNat]?.join := by
  unfold overwrite
  by_cases hi : r.index = i
  · subst hi
    have hlength : r.index.toNat <
        (slots ++ List.replicate (r.index.toNat + 1 - slots.length) none).length := by
      rw [List.length_append, List.length_replicate]
      omega
    rw [List.getElem?_set_self hlength, if_pos rfl]
    rfl
  · have hne : r.index.toNat ≠ i.toNat := fun h => hi (UInt64.toNat_inj.1 h)
    rw [List.getElem?_set_ne hne, if_neg hi]
    -- an entry that was added is as empty as one that is not there
    by_cases hold : i.toNat < slots.length
    · rw [List.getElem?_append_left hold]
    · have hshort : slots.length ≤ i.toNat := Nat.le_of_not_lt hold
      rw [List.getElem?_append_right hshort, List.getElem?_eq_none hshort,
        List.getElem?_replicate]
      split <;> rfl

/-- The vector is lengthened up to the index, if it was shorter. -/
theorem length_overwrite (slots : List (Option Destructor)) (r : Registration) :
    (overwrite slots r).length = max slots.length (r.index.toNat + 1) := by
  rw [overwrite, List.length_set, List.length_append, List.length_replicate]
  omega

end Entries

namespace DestructorTable

/-- A table answers what is in a vector of entries, and both have the same room. -/
structure Answers (t : DestructorTable) (v : Entries) : Prop where
  resolve : ∀ i : UInt64, t.resolve i = v.slots[i.toNat]?.join.elim (.error ⟨i⟩) .ok
  room : t.room = v.room
  length : v.slots.length ≤ v.room

theorem Answers.empty : DestructorTable.empty.Answers Entries.empty :=
  ⟨fun _ => rfl, rfl, Nat.le_refl _⟩

/-- Table and vector refuse the same registrations, and are changed alike by the others. -/
theorem Answers.registered {t : DestructorTable} {v : Entries} (h : t.Answers v)
    (r : Registration) : (t.registered r).Answers (v.registered r) := by
  -- table and vector ask the same question about room, so they cannot decide differently
  have hv := Entries.register_eq h.length (h.room ▸ t.room_le) r
  rw [← h.room] at hv
  cases ht : t.register r.index r.destructor with
  | error e =>
    have hnone : roomFor t.room (r.index.toNat + 1) = none := by
      obtain ⟨⟨hroom, hgrown⟩, -⟩ := register_eq_error_iff.1 ht
      exact roomFor_eq_none_iff.2 ⟨Nat.lt_add_one_of_le hroom, hgrown⟩
    rw [hnone] at hv
    rw [DestructorTable.registered, ht, Entries.registered, hv]
    exact h
  | ok t' =>
    obtain ⟨hfound, -⟩ := register_eq_ok_iff.1 ht
    rw [hfound] at hv
    rw [DestructorTable.registered, ht, Entries.registered, hv]
    refine ⟨fun i => ?_, rfl, ?_⟩
    · rw [resolve_register ht, h.resolve i]
      simp only [Option.map_some, Option.getD_some, Entries.getElem?_overwrite]
      split <;> rfl
    · obtain ⟨hneeded, hroom, -⟩ := roomFor_spec hfound
      have hlength := h.room ▸ h.length
      simp only [Option.map_some, Option.getD_some, Entries.length_overwrite]
      omega

/-- Table and vector agree after any registrations, in whatever order and with whatever gaps. -/
theorem Answers.registeredAll {t : DestructorTable} {v : Entries} (h : t.Answers v)
    (l : List Registration) : (t.registeredAll l).Answers (l.foldl Entries.registered v) := by
  induction l generalizing t v with
  | nil => exact h
  | cons r l ih => exact ih (h.registered r)

end DestructorTable

/-! ## A table and a context -/

/-- What a client does with a table and a context. -/
inductive Act where
  | register (registration : Registration)
  /-- Throws by index in the table as it is at that moment. -/
  | throwIndexed (handle : Handle) (type : Option TypeTag) (index : Option UInt64)
  | call (call : Call)

namespace Act

/-- The table after an act. -/
def tableAfter (t : DestructorTable) : Act → DestructorTable
  | .register r => t.registered r
  | _ => t

/-- The call on the context that an act makes. -/
def call? (t : DestructorTable) : Act → Option Call
  | .register _ => none
  | .throwIndexed h type index => some ⟨.quiet, .throwIndexed h type t index⟩
  | .call k => some k

/-- The calls that acts make, which begin with the table `t`. -/
def calls (t : DestructorTable) : List Act → List Call
  | [] => []
  | a :: l => (a.call? t).toList ++ calls (a.tableAfter t) l

end Act

/-- A table and a context that are used side by side. -/
structure Client (α : Type) where
  table : DestructorTable
  context : Context α

namespace Client

variable {α : Type} [Allocator α]

/-- The client after an act. -/
def after (build : Build) (s : Client α) (a : Act) : Client α :=
  ⟨a.tableAfter s.table, s.context.run build (a.call? s.table).toList⟩

/-- The client after some acts. -/
def run (build : Build) (s : Client α) (l : List Act) : Client α := l.foldl (after build) s

/-- What an act lets others see. -/
def seen (build : Build) (s : Client α) (a : Act) : List Observation :=
  s.context.observed build (a.call? s.table).toList

/-- The exception `r` is alive throughout some acts: it is not thrown again, and no destructor is
called with its handle. -/
def Survives (build : Build) (s : Client α) (r : Record) (l : List Act) : Prop :=
  s.context.Survives build r (Act.calls s.table l)

/-- As far as the context is concerned, acts are calls. -/
theorem context_run (build : Build) (s : Client α) (l : List Act) :
    (s.run build l).context = s.context.run build (Act.calls s.table l) := by
  induction l generalizing s with
  | nil => rfl
  | cons a l ih =>
    rw [Act.calls, Context.run_append]
    exact ih (s.after build a)

end Client

namespace Context

variable {α : Type} [Allocator α] {build : Build} {c : Context α} {r : Record}

/-- What survives calls is alive after them. -/
theorem Survives.alive_run {l : List Call} (hs : c.Survives build r l) :
    (c.run build l).IsAlive r := by
  induction l generalizing c with
  | nil => exact hs
  | cons k l ih => exact ih hs.2.2.2

end Context

namespace Client

variable {α : Type} [Allocator α]

/-- The act that ends an exception calls the destructor that it was thrown with, and no other. -/
theorem destructions_of_end {build : Build} {s : Client α} {r : Record} {l : List Act} {a : Act}
    (hs : s.Survives build r l)
    (hgone : (s.run build (l ++ [a])).context.registry.find? r.handle = none) :
    destructions ((s.run build l).seen build a) = r.ended.calls := by
  have hlive : (s.run build l).context.IsAlive r := by
    rw [context_run]
    exact Context.Survives.alive_run hs
  have hlast : s.run build (l ++ [a]) = (s.run build l).after build a := by
    simp only [run, List.foldl_append, List.foldl_cons, List.foldl_nil]
  rw [hlast, after] at hgone
  obtain ⟨r', hr', hcont⟩ := hlive
  unfold seen
  cases hk : a.call? (s.run build l).table with
  | none =>
    -- who makes no call ends nothing
    rw [hk] at hgone
    exact absurd (hr'.symm.trans hgone) (by simp)
  | some k =>
    rw [hk] at hgone
    have hend : (s.run build l).context.ending? k.operation = some r' := by
      refine Context.ending?_of_find?_none hr' ?_
      rw [← Context.registry_call build]
      exact hgone
    have hturn := Context.turn_eq_ended_iff.2 ⟨hend, hcont.handle⟩
    have hdestroyed : (s.run build l).context.Destroys build r k
        (k.conduct.finishes r'.destructor) := Context.destroys_of_turn ⟨r', hr', hcont⟩ hturn
    rw [Option.toList_some, Context.observed, Context.observed, List.append_nil]
    exact hdestroyed.destructions_eq

/-- Destructors that are thrown by index are bound when they are thrown.

Whatever was registered, an index resolves to what was registered under it last by a call that was
not refused, and is reported if there was none, as in a vector that grows. Refused calls leave no
trace. A call is refused if the vector has too little room and twice of what it has, or as much as
is needed, would be too much for any vector; under an index in the lower half none ever is. To
throw by an index is to throw what it resolves to, and to throw without an index is to throw
without destructor. An index that resolves to nothing ends the process, and nothing but that is
logged. And if the exception has survived any acts, among them registrations under any index, then
the act that ends it calls the destructor that its index had at the throw, and no other. -/
theorem indexed_destructor_bound_at_throw (build : Build) (l : List Registration) (c : Context α)
    (h : Handle) (type : Option TypeTag) (i : UInt64) :
    let t := DestructorTable.empty.registeredAll l
    let accepted := DestructorTable.empty.accepted l
    (∀ d, t.resolve i = .ok d ↔ Registration.LastAt accepted i d) ∧
      (∀ e, t.resolve i = .error e ↔ e = ⟨i⟩ ∧ ∀ r ∈ accepted, r.index ≠ i) ∧
      t = DestructorTable.empty.registeredAll accepted ∧
      t.Answers (l.foldl Entries.registered Entries.empty) ∧
      (∀ d e, t.register i d = .error e ↔
        (t.room ≤ i.toNat ∧
          DestructorTable.entryLimit <
            max (2 * t.room) (max (i.toNat + 1) DestructorTable.leastRoom)) ∧ e = ⟨i⟩) ∧
      (2 * i.toNat ≤ DestructorTable.entryLimit →
        (∀ d, t.resolve i = .ok d ↔ Registration.LastAt l i d) ∧
          (∀ e, t.resolve i = .error e ↔ e = ⟨i⟩ ∧ ∀ r ∈ l, r.index ≠ i) ∧
          ∀ d, ∃ t', t.register i d = .ok t') ∧
      (DestructorTable.entryLimit ≤ i.toNat → t.resolve i = .error ⟨i⟩) ∧
      c.throwIndexed h type t none = c.throw h type none ∧
      (∀ e, t.resolve i = .error e → c.throwIndexed h type t (some i) =
        ⟨.aborted (.unresolvedDestructor h ⟨i⟩), c,
          [.logged (.fault (.unresolvedDestructor h ⟨i⟩))]⟩) ∧
      ∀ d, t.resolve i = .ok d →
        c.throwIndexed h type t (some i) = c.throw h type (some d) ∧
          let s := (Client.mk t c).after build (.throwIndexed h type (some i))
          ∀ later a, s.Survives build (.fresh h type (some d)) later →
            (s.run build (later ++ [a])).context.registry.find? h = none →
            destructions ((s.run build later).seen build a) = [(d.label, h)] := by
  intro t accepted
  have hresolve : ∀ d, t.resolve i = .ok d ↔ Registration.LastAt accepted i d :=
    fun d => DestructorTable.resolve_registeredAll_eq_ok_iff
  have hreport : ∀ e, t.resolve i = .error e ↔ e = ⟨i⟩ ∧ ∀ r ∈ accepted, r.index ≠ i :=
    fun e => DestructorTable.resolve_registeredAll_eq_error_iff
  refine ⟨hresolve, hreport, (DestructorTable.registeredAll_accepted _ l).symm,
    DestructorTable.Answers.empty.registeredAll l,
    fun d e => DestructorTable.register_eq_error_iff, fun hi => ⟨fun d => ?_, fun e => ?_, ?_⟩,
    t.resolve_of_entryLimit_le, rfl, fun e he => ?_, fun d hd => ⟨?_, ?_⟩⟩
  · -- in the lower half what is accepted is all there was
    rw [hresolve]
    exact DestructorTable.lastAt_accepted_iff _ hi
  · rw [hreport]
    refine and_congr_right fun _ => ⟨fun hnone r hr hri => ?_, fun hnone r hr hri => ?_⟩
    · exact hnone r ((DestructorTable.mem_accepted_iff _ (hri ▸ hi)).2 hr) hri
    · exact hnone r ((DestructorTable.mem_accepted_iff _ (hri ▸ hi)).1 hr) hri
  · exact fun d => DestructorTable.register_of_lower_half t d hi
  · obtain ⟨rfl, -⟩ := (hreport e).1 he
    rw [Context.throwIndexed, he]
    rfl
  · rw [Context.throwIndexed, hd]
  · intro s later a hs hgone
    exact destructions_of_end hs hgone

/-- An index that a word holds and no vector: it was registered, and it does not resolve. -/
theorem refused_index_not_resolved :
    let i : UInt64 := 1152921504606846975
    let l : List Registration := [⟨i, ⟨2⟩⟩]
    i.toNat < UInt64.size - 1 ∧ Registration.LastAt l i ⟨2⟩ ∧
      (DestructorTable.empty.registeredAll l).resolve i = .error ⟨i⟩ := by
  intro i l
  exact ⟨by decide, ⟨[], [], rfl, by simp⟩, DestructorTable.resolve_of_entryLimit_le _ (by decide)⟩

/-- An index is registered anew while an exception is alive that was thrown by it. -/
theorem indexed_destructor_bound_at_throw_reregistered :
    let l : List Registration := [⟨3, ⟨0⟩⟩, ⟨7, ⟨2⟩⟩, ⟨3, ⟨1⟩⟩]
    let c := Context.fresh Hierarchy.empty (Bump.startingAt 4096)
    let s := (Client.mk (DestructorTable.empty.registeredAll l) c).after .checked
      (.throwIndexed ⟨16⟩ none (some 3))
    let later : List Act := [.register ⟨3, ⟨2⟩⟩, .call ⟨.quiet, .beginCatch ⟨16⟩⟩,
      .register ⟨3, ⟨0⟩⟩]
    ((s.run .checked later).table.resolve 3).toOption = some ⟨0⟩ ∧
      destructions ((s.run .checked later).seen .checked (.call ⟨.quiet, .endCatch⟩))
        = [(1, ⟨16⟩)] := by
  intro l c s later
  have hfind : s.context.registry.find? ⟨16⟩ = some (.fresh ⟨16⟩ none (some ⟨1⟩)) := by
    decide +kernel
  have hkept : s.context.fate .checked ⟨16⟩ (Act.calls s.table later) = .kept := by
    decide +kernel
  have hlives : s.Survives .checked (.fresh ⟨16⟩ none (some ⟨1⟩)) later := by
    have hmeets : s.context.Meets .checked (.fresh ⟨16⟩ none (some ⟨1⟩)) (Act.calls s.table later)
        (s.context.fate .checked ⟨16⟩ (Act.calls s.table later)) :=
      Context.meets_fate ⟨_, hfind, .refl _⟩ _
    rw [hkept] at hmeets
    exact hmeets
  obtain ⟨-, -, -, -, -, -, -, -, -, hbound⟩ :=
    indexed_destructor_bound_at_throw .checked l c ⟨16⟩ none 3
  exact ⟨by decide +kernel,
    (hbound ⟨1⟩ (by decide +kernel)).2 later _ hlives (by decide +kernel)⟩

end Client

end ExceptionLifetime
