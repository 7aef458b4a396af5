/-
Destructors of thrown objects.

A destructor is code of the client. All that matters here is which one it is,
so that its calls can be told apart, and how a call of it ends: it returns, it
panics, or it transfers an exception out of itself. Which of these it does is
settled by the call and not before: an exception that it transfers may be
younger than the one it was thrown with. So whoever calls destructors is told
how they behave at that moment.

Generated code names destructors by index in a table. An index is looked up when
the exception is thrown, so what is registered later is of no concern to
exceptions that are already alive.

A table keeps its entries in a vector, from index zero up to the greatest one
that was ever in use. A vector does not grow by one entry at a time: when it is
full it takes at least twice the room that it had, and when that is more than
any vector can have, the registration is refused. So whether an index is refused
depends on what the table has room for already, and not on the index alone.
-/
import ExceptionLifetime.Ascending
import ExceptionLifetime.Handle.Basic

set_option autoImplicit false

namespace ExceptionLifetime

/-- A destructor, by a label of its own. -/
structure Destructor where
  label : Nat
  deriving DecidableEq

/-- How a call of a destructor ends. -/
inductive Ending where
  | returns
  | panics (message : String)
  | transfers (handle : Handle)
  deriving DecidableEq

/-- How each destructor ends if it is called now. -/
abbrev Conduct := Destructor → Ending

/-- An index under which no destructor is registered. -/
structure UnregisteredIndex where
  index : UInt64
  deriving DecidableEq

/-- The refusal in words. -/
def UnregisteredIndex.message (e : UnregisteredIndex) : String :=
  s!"destructor index {e.index} is not registered"

/-- An index for which a table cannot make room. -/
structure TableOverflow where
  index : UInt64
  deriving DecidableEq

/-- The refusal in words. -/
def TableOverflow.message (_ : TableOverflow) : String := "capacity overflow"

/-- A destructor and the index it is registered under. -/
structure Registration where
  index : UInt64
  destructor : Destructor
  deriving DecidableEq

namespace DestructorTable

/-- The greatest number of entries a vector can have: an entry takes eight bytes, and all of them
together are smaller than half the address space. -/
def entryLimit : Nat := (UInt64.size / 2 - 1) / 8

/-- The room that a vector takes at the least, once it takes any. -/
def leastRoom : Nat := 4

/-- What a vector grows to when it has too little room for `needed` entries. -/
def grown (room needed : Nat) : Nat := max (2 * room) (max needed leastRoom)

/-- The room for `needed` entries, where there is some room already. -/
def roomFor (room needed : Nat) : Option Nat :=
  if needed ≤ room then some room
  else if grown room needed ≤ entryLimit then some (grown room needed) else none

/-- No room is found if there is too little of it and the vector would outgrow all vectors. -/
theorem roomFor_eq_none_iff {room needed : Nat} :
    roomFor room needed = none ↔ room < needed ∧ entryLimit < grown room needed := by
  unfold roomFor
  split
  next h => simp [Nat.not_lt.2 h]
  next h =>
    split
    next hgrown => simp [Nat.not_lt.2 hgrown]
    next hgrown => simp [Nat.not_le.1 h, Nat.not_le.1 hgrown]

/-- What room is found is enough, it is no less than before, and it can be had. -/
theorem roomFor_spec {room needed found : Nat} (h : roomFor room needed = some found) :
    needed ≤ found ∧ room ≤ found ∧ (room ≤ entryLimit → found ≤ entryLimit) := by
  unfold roomFor at h
  split at h
  next hroom =>
    cases h
    exact ⟨hroom, Nat.le_refl _, id⟩
  next =>
    split at h
    next hgrown =>
      cases h
      have hneeded : needed ≤ grown room needed := by unfold grown; omega
      have hdouble : room ≤ grown room needed := by unfold grown; omega
      exact ⟨hneeded, hdouble, fun _ => hgrown⟩
    next => cases h

end DestructorTable

/-- Destructors by index. -/
structure DestructorTable where
  registrations : Ascending Registration (fun r => r.index.toNat)
  /-- The number of entries there is room for. -/
  room : Nat
  inRoom : ∀ r ∈ registrations, r.index.toNat < room
  room_le : room ≤ DestructorTable.entryLimit
  deriving DecidableEq

namespace DestructorTable

/-- The table without destructors. -/
def empty : DestructorTable where
  registrations := Ascending.empty
  room := 0
  inRoom r hr := absurd hr (Ascending.not_mem_empty r)
  room_le := Nat.zero_le _

/-- Registers a destructor, in place of the one that had the index before. -/
def register (t : DestructorTable) (index : UInt64) (d : Destructor) :
    Except TableOverflow DestructorTable :=
  match h : roomFor t.room (index.toNat + 1) with
  | none => .error ⟨index⟩
  | some room => .ok {
      registrations := t.registrations.insert ⟨index, d⟩
      room
      inRoom := by
        obtain ⟨hneeded, hroom, -⟩ := roomFor_spec h
        intro r hr
        rcases Ascending.mem_insert.1 hr with rfl | ⟨hr, -⟩
        · exact hneeded
        · exact Nat.lt_of_lt_of_le (t.inRoom r hr) hroom
      room_le := (roomFor_spec h).2.2 t.room_le }

/-- The destructor registered under an index. -/
def resolve (t : DestructorTable) (index : UInt64) : Except UnregisteredIndex Destructor :=
  match t.registrations.find? index.toNat with
  | some r => .ok r.destructor
  | none => .error ⟨index⟩

/-! ## The table as a finite map -/

@[simp] theorem resolve_empty (index : UInt64) : empty.resolve index = .error ⟨index⟩ := rfl

/-- A registration that finds room puts one destructor in its place. -/
theorem register_eq_ok_iff {t u : DestructorTable} {i : UInt64} {d : Destructor} :
    t.register i d = .ok u ↔
      roomFor t.room (i.toNat + 1) = some u.room ∧
        u.registrations = t.registrations.insert ⟨i, d⟩ := by
  unfold register
  split
  next h => simp [h]
  next room h =>
    obtain ⟨registrations, room', hin, hle⟩ := u
    simp only [h, Except.ok.injEq, mk.injEq, Option.some.injEq]
    rw [and_comm, eq_comm (a := registrations)]

/-- A registration is refused if there is too little room and no more can be had. -/
theorem register_eq_error_iff {t : DestructorTable} {i : UInt64} {d : Destructor}
    {e : TableOverflow} : t.register i d = .error e ↔
      (t.room ≤ i.toNat ∧ entryLimit < grown t.room (i.toNat + 1)) ∧ e = ⟨i⟩ := by
  rw [← Nat.lt_add_one_iff, ← roomFor_eq_none_iff]
  unfold register
  split
  next h => simp [h, eq_comm]
  next h => simp [h]

/-- To register is to overwrite one entry and no other. -/
theorem resolve_register {t u : DestructorTable} {i : UInt64} {d : Destructor}
    (h : t.register i d = .ok u) (j : UInt64) :
    u.resolve j = if i = j then .ok d else t.resolve j := by
  unfold resolve
  rw [(register_eq_ok_iff.1 h).2, Ascending.find?_insert]
  simp only [UInt64.toNat_inj]
  by_cases hij : i = j <;> simp [hij]

/-- An index beyond all vectors resolves to nothing, whatever the table is. -/
theorem resolve_of_entryLimit_le (t : DestructorTable) {i : UInt64} (h : entryLimit ≤ i.toNat) :
    t.resolve i = .error ⟨i⟩ := by
  unfold resolve
  cases hr : t.registrations.find? i.toNat with
  | none => rfl
  | some r =>
    obtain ⟨hmem, hindex⟩ := Ascending.find?_eq_some_iff.1 hr
    have hroom := t.inRoom r hmem
    have hlimit := t.room_le
    omega

end DestructorTable

end ExceptionLifetime
