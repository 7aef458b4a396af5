/-
Collections in ascending order of a key.

A collection holds at most one member per key and lists its members in
ascending order of key, so two collections that answer every look-up alike are
the same collection. It serves as a set (a member is its own key) and as a
finite map (the key is a part of the member). The registry of live exceptions,
the other names of one exception, the live blocks of storage and the table of
destructors are all kept this way.

The order is part of the type. What is left to say about an operation is which
members it leaves, and what a later look-up finds.
-/

set_option autoImplicit false

namespace ExceptionLifetime

/-- Members listed in strictly ascending order of `key`. -/
structure Ascending (α : Type) (key : α → Nat) where
  toList : List α
  ascending : toList.Pairwise (fun a b => key a < key b)

namespace Ascending

variable {α : Type} {key : α → Nat}

/-- The collection without members. -/
def empty : Ascending α key := ⟨[], .nil⟩

instance : Inhabited (Ascending α key) := ⟨empty⟩

instance [DecidableEq α] : DecidableEq (Ascending α key) := fun s t =>
  decidable_of_iff (s.toList = t.toList) <| by
    cases s
    cases t
    simp

instance : Membership α (Ascending α key) := ⟨fun s a => a ∈ s.toList⟩

/-- The member with key `k`. -/
def find? (s : Ascending α key) (k : Nat) : Option α := s.toList.find? (key · == k)

/-- Whether some member has key `k`. -/
def contains (s : Ascending α key) (k : Nat) : Bool := (s.find? k).isSome

/-- The number of members. -/
def size (s : Ascending α key) : Nat := s.toList.length

/-- Puts a member in its place, where it takes over from a member of the same key. -/
def insert (s : Ascending α key) (a : α) : Ascending α key where
  toList := s.toList.filter (key · < key a) ++ a :: s.toList.filter (key a < key ·)
  ascending := by
    refine List.pairwise_append.2 ⟨s.ascending.filter _, ?_, ?_⟩
    · exact List.pairwise_cons.2 ⟨fun b hb => by simpa using (List.mem_filter.1 hb).2,
        s.ascending.filter _⟩
    · intro b hb c hc
      have hba : key b < key a := by simpa using (List.mem_filter.1 hb).2
      rcases List.mem_cons.1 hc with rfl | hc
      · exact hba
      · exact Nat.lt_trans hba (by simpa using (List.mem_filter.1 hc).2)

/-- Takes out the member with key `k`, if there is one. -/
def erase (s : Ascending α key) (k : Nat) : Ascending α key where
  toList := s.toList.filter (key · != k)
  ascending := s.ascending.filter _

/-! ## Members -/

theorem mem_toList {s : Ascending α key} {a : α} : a ∈ s.toList ↔ a ∈ s := Iff.rfl

@[simp] theorem not_mem_empty (a : α) : ¬ a ∈ (empty : Ascending α key) := List.not_mem_nil

/-- A key belongs to one member only. -/
theorem eq_of_key_eq {s : Ascending α key} {a b : α} (ha : a ∈ s) (hb : b ∈ s)
    (h : key a = key b) : a = b := by
  obtain ⟨l, hs⟩ := s
  change a ∈ l at ha
  change b ∈ l at hb
  induction l with
  | nil => cases ha
  | cons c l ih =>
    obtain ⟨hc, hl⟩ := List.pairwise_cons.1 hs
    rcases List.mem_cons.1 ha with hac | hal <;> rcases List.mem_cons.1 hb with hbc | hbl
    · exact hac.trans hbc.symm
    · exact absurd h (Nat.ne_of_lt (hac ▸ hc b hbl))
    · exact absurd h.symm (Nat.ne_of_lt (hbc ▸ hc a hal))
    · exact ih hl hal hbl

/-- After an insertion there is the new member, and all that have other keys. -/
theorem mem_insert {s : Ascending α key} {a b : α} :
    b ∈ s.insert a ↔ b = a ∨ (b ∈ s ∧ key b ≠ key a) := by
  simp only [← mem_toList, insert, List.mem_append, List.mem_cons, List.mem_filter,
    decide_eq_true_eq]
  constructor
  · rintro (⟨hb, h⟩ | rfl | ⟨hb, h⟩)
    · exact .inr ⟨hb, Nat.ne_of_lt h⟩
    · exact .inl rfl
    · exact .inr ⟨hb, (Nat.ne_of_lt h).symm⟩
  · rintro (rfl | ⟨hb, h⟩)
    · exact .inr (.inl rfl)
    · rcases Nat.lt_or_gt_of_ne h with h | h
      · exact .inl ⟨hb, h⟩
      · exact .inr (.inr ⟨hb, h⟩)

/-- An erasure leaves all that have other keys. -/
theorem mem_erase {s : Ascending α key} {k : Nat} {b : α} :
    b ∈ s.erase k ↔ b ∈ s ∧ key b ≠ k := by
  simp [← mem_toList, erase]

/-! ## Look-up -/

/-- Look-up finds the member with that key and nothing else. -/
theorem find?_eq_some_iff {s : Ascending α key} {k : Nat} {a : α} :
    s.find? k = some a ↔ a ∈ s ∧ key a = k := by
  constructor
  · intro h
    exact ⟨List.mem_of_find?_eq_some h, by simpa using List.find?_some h⟩
  · rintro ⟨ha, hk⟩
    cases h : s.find? k with
    | none => exact absurd (by simpa using hk) (List.find?_eq_none.1 h a ha)
    | some b =>
      have hb : key b = k := by simpa using List.find?_some h
      exact congrArg some (eq_of_key_eq (List.mem_of_find?_eq_some h) ha (hb.trans hk.symm))

/-- Nothing is found where no member has the key. -/
theorem find?_eq_none_iff {s : Ascending α key} {k : Nat} :
    s.find? k = none ↔ ∀ a ∈ s, key a ≠ k := by
  simp [find?, ← mem_toList]

@[simp] theorem find?_empty (k : Nat) : (empty : Ascending α key).find? k = none := rfl

/-- An insertion is seen under the key of the new member only. -/
theorem find?_insert {s : Ascending α key} {a : α} {k : Nat} :
    (s.insert a).find? k = if key a = k then some a else s.find? k := by
  ext b
  rw [find?_eq_some_iff, mem_insert]
  split
  -- whoever else had the key has been put out
  next h =>
    constructor
    · rintro ⟨rfl | ⟨_, hne⟩, hb⟩
      · rfl
      · exact absurd (hb.trans h.symm) hne
    · rintro ⟨⟩
      exact ⟨.inl rfl, h⟩
  next h =>
    rw [find?_eq_some_iff]
    constructor
    · rintro ⟨rfl | ⟨hb, _⟩, hk⟩
      · exact absurd hk h
      · exact ⟨hb, hk⟩
    · rintro ⟨hb, hk⟩
      exact ⟨.inr ⟨hb, fun he => h (he.symm.trans hk)⟩, hk⟩

/-- An erasure is seen under its key only. -/
theorem find?_erase {s : Ascending α key} {j k : Nat} :
    (s.erase j).find? k = if j = k then none else s.find? k := by
  ext b
  rw [find?_eq_some_iff, mem_erase]
  split
  next h =>
    subst h
    simp
  next h =>
    rw [find?_eq_some_iff]
    constructor
    · rintro ⟨⟨hb, _⟩, hk⟩
      exact ⟨hb, hk⟩
    · rintro ⟨hb, hk⟩
      exact ⟨⟨hb, fun he => h (he.symm.trans hk)⟩, hk⟩

/-- No member is listed twice. -/
theorem nodup (s : Ascending α key) : s.toList.Nodup :=
  s.ascending.imp fun hlt heq => Nat.ne_of_lt hlt (congrArg key heq)

/-- Collections with the same members are equal: the order is no choice. -/
theorem ext_mem {s t : Ascending α key} (h : ∀ a, a ∈ s ↔ a ∈ t) : s = t := by
  have hperm : s.toList.Perm t.toList := (List.perm_ext_iff_of_nodup s.nodup t.nodup).2 h
  have hlist : s.toList = t.toList :=
    hperm.eq_of_pairwise (fun _ _ _ _ hab hba => absurd hba (Nat.lt_asymm hab)) s.ascending
      t.ascending
  cases s
  cases t
  cases hlist
  rfl

/-- Collections that answer every look-up alike are equal. -/
theorem ext_find? {s t : Ascending α key} (h : ∀ k, s.find? k = t.find? k) : s = t := by
  refine ext_mem fun a => ?_
  have ha := h (key a)
  constructor
  · intro hs
    exact (find?_eq_some_iff.1 (ha ▸ find?_eq_some_iff.2 ⟨hs, rfl⟩)).1
  · intro ht
    exact (find?_eq_some_iff.1 (ha ▸ find?_eq_some_iff.2 ⟨ht, rfl⟩)).1

/-! ## Counting -/

/-- In an ascending list at most one member has the key `k`, and counts apart from the others. -/
theorem countP_eq_filter_add {l : List α} (hl : l.Pairwise (fun a b => key a < key b)) (k : Nat)
    (p : α → Bool) :
    l.countP p =
      (l.filter (key · != k)).countP p + if (l.find? (key · == k)).any p then 1 else 0 := by
  induction l with
  | nil => rfl
  | cons a l ih =>
    obtain ⟨ha, hl⟩ := List.pairwise_cons.1 hl
    by_cases hk : key a = k
    · -- all that follow have greater keys
      have hrest : l.filter (key · != k) = l := by
        refine List.filter_eq_self.2 fun b hb => ?_
        have hlt := ha b hb
        exact bne_iff_ne.2 (by omega)
      rw [List.filter_cons_of_neg (by simp [hk]), hrest, List.find?_cons_of_pos (by simp [hk]),
        List.countP_cons]
      rfl
    · rw [List.filter_cons_of_pos (by simp [hk]), List.find?_cons_of_neg (by simp [hk]),
        List.countP_cons, List.countP_cons, ih hl]
      omega

/-- A count of members is that of the others, and of the one with key `k`. -/
theorem countP_eq_erase_add (s : Ascending α key) (k : Nat) (p : α → Bool) :
    s.toList.countP p = (s.erase k).toList.countP p + if (s.find? k).any p then 1 else 0 :=
  countP_eq_filter_add s.ascending k p

end Ascending

end ExceptionLifetime
