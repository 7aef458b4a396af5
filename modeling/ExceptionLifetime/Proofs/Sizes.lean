/-
From the size of an object to the size of its block.

The block of an object is the least that holds it and whose size is a multiple of the
alignment. Said of numbers this is one division. In words there are two places where
it could go wrong: the next multiple of the last fifteen words is not a word, and half
of the others are the sizes of blocks that no memory has. So what is computed in words
is compared here, step by step, with what it is of numbers.

No step wraps. What a size exceeds the last multiple by is less than the alignment,
so what it lacks of the next one is found without borrowing, and their sum is checked.
The largest block is itself a multiple of the alignment. This is why the limit on
blocks is the same limit on objects: an object is above it exactly if its block is.
-/
import ExceptionLifetime.Context.Storage
import ExceptionLifetime.Storage.Heap
import Mathlib.Order.Bounds.Basic

set_option autoImplicit false

namespace ExceptionLifetime

/-! ## The next multiple, as a number -/

/-- The least multiple of the alignment that is not below `n`. -/
def nextMultiple (n : Nat) : Nat := (n + 15) / 16 * 16

/-- Rounding up gives the least multiple that is not below. -/
theorem isLeast_nextMultiple (n : Nat) :
    IsLeast {m : Nat | 16 ∣ m ∧ n ≤ m} (nextMultiple n) := by
  unfold nextMultiple
  constructor
  · exact ⟨Nat.dvd_mul_left _ _, by omega⟩
  · rintro m ⟨⟨k, rfl⟩, hle⟩
    omega

theorem nextMultiple_lt (n : Nat) : nextMultiple n < n + 16 := by
  unfold nextMultiple
  omega

/-- A multiple of the alignment that is not below a number is not below the next one either. -/
theorem nextMultiple_le_iff {n m : Nat} (hdvd : 16 ∣ m) : nextMultiple n ≤ m ↔ n ≤ m := by
  obtain ⟨⟨-, hle⟩, hleast⟩ := isLeast_nextMultiple n
  exact ⟨fun h => hle.trans h, fun h => hleast ⟨hdvd, h⟩⟩

/-- A number that exceeds the last multiple lacks the rest of the alignment. -/
theorem nextMultiple_eq (n : Nat) :
    nextMultiple n = if n % 16 = 0 then n else n + (16 - n % 16) := by
  unfold nextMultiple
  split <;> omega

/-! ## The same in words -/

/-- What a word exceeds the last multiple by, and what it lacks of the next one, are together the
alignment. -/
theorem excess_add_lack (size : UInt64) :
    (size % objectAlign).toNat + (objectAlign - size % objectAlign).toNat = 16 := by
  have hlt : (size % objectAlign).toNat < 16 := by
    rw [UInt64.toNat_mod]
    exact Nat.mod_lt _ (by decide)
  have hle : size % objectAlign ≤ objectAlign := UInt64.le_iff_toNat_le.2 hlt.le
  rw [UInt64.toNat_sub_of_le _ _ hle, toNat_objectAlign]
  omega

/-- The next multiple is found if it is a word, and never another one. -/
theorem nextMultiple?_eq_some_iff {size rounded : UInt64} :
    nextMultiple? size = some rounded ↔ rounded.toNat = nextMultiple size.toNat := by
  have hexcess : (size % objectAlign).toNat = size.toNat % 16 := UInt64.toNat_mod _ _
  have htogether := excess_add_lack size
  rw [nextMultiple_eq, ← hexcess]
  unfold nextMultiple?
  dsimp only
  by_cases hzero : size % objectAlign = 0
  · have hzero' : (size % objectAlign).toNat = 0 := congrArg UInt64.toNat hzero
    rw [if_pos hzero, if_pos hzero', Option.some.injEq, eq_comm, UInt64.toNat_inj]
  · have hpos : (size % objectAlign).toNat ≠ 0 := fun h => hzero (UInt64.toNat_inj.1 h)
    rw [if_neg hzero, if_neg hpos, wordSum?_eq_some_iff]
    omega

theorem toNat_max_one (size : UInt64) : (max size 1).toNat = max size.toNat 1 := by
  change (if size ≤ 1 then 1 else size : UInt64).toNat = max size.toNat 1
  split
  next hle =>
    have hle' : size.toNat ≤ 1 := UInt64.le_iff_toNat_le.1 hle
    exact (Nat.max_eq_right hle').symm
  next hlt =>
    have hlt' : ¬ size.toNat ≤ 1 := fun h => hlt (UInt64.le_iff_toNat_le.2 h)
    omega

/-- The size of the block for an object of `size` bytes, if there were no limit. -/
def blockSize (size : UInt64) : Nat := nextMultiple (max size.toNat 1)

/-- The largest block is a multiple of the alignment. -/
theorem blockSize_le_iff {size : UInt64} :
    blockSize size ≤ largestBlock.toNat ↔ size.toNat ≤ largestBlock.toNat := by
  have hdvd : 16 ∣ largestBlock.toNat := by decide
  rw [blockSize, nextMultiple_le_iff hdvd, toNat_largestBlock]
  omega

namespace Layout

/-- A size has the layout of its block, if there is such a block. -/
theorem forObject?_eq_some_iff {size : UInt64} {layout : Layout} :
    forObject? size = some layout ↔
      size.toNat ≤ largestBlock.toNat ∧ layout.size.toNat = blockSize size ∧
        layout.align = objectAlign := by
  have hrounded (rounded : UInt64) :
      nextMultiple? (max size 1) = some rounded ↔ rounded.toNat = blockSize size := by
    rw [nextMultiple?_eq_some_iff, toNat_max_one, blockSize]
  rw [← blockSize_le_iff]
  unfold forObject?
  cases hnext : nextMultiple? (max size 1) with
  | none =>
    -- the next multiple is no word, so it is above the largest block
    refine iff_of_false (by simp) ?_
    rintro ⟨-, hsize, -⟩
    rw [(hrounded layout.size).2 hsize] at hnext
    cases hnext
  | some rounded =>
    have hvalue := (hrounded rounded).1 hnext
    dsimp only
    by_cases hlarge : largestBlock < rounded
    · rw [if_pos hlarge]
      rw [UInt64.lt_iff_toNat_lt] at hlarge
      exact iff_of_false (by simp) fun h => by omega
    · rw [if_neg hlarge]
      rw [UInt64.lt_iff_toNat_lt] at hlarge
      rw [← hvalue, UInt64.toNat_inj, Option.some.injEq]
      constructor
      · rintro rfl
        exact ⟨Nat.not_lt.1 hlarge, rfl, rfl⟩
      · rintro ⟨-, hsize, halign⟩
        cases layout
        cases hsize
        cases halign
        rfl

/-- Up to the limit every size has a layout. -/
theorem exists_forObject? {size : UInt64} (h : size.toNat ≤ largestBlock.toNat) :
    ∃ layout, forObject? size = some layout := by
  have hlt : blockSize size < UInt64.size :=
    Nat.lt_of_le_of_lt (blockSize_le_iff.2 h) (by decide)
  refine ⟨⟨.ofNatLT (blockSize size) hlt, objectAlign⟩, ?_⟩
  exact forObject?_eq_some_iff.2 ⟨h, UInt64.toNat_ofNatLT, rfl⟩

/-- Beyond the limit no size has one. -/
theorem forObject?_eq_none_iff {size : UInt64} :
    forObject? size = none ↔ largestBlock.toNat < size.toNat := by
  constructor
  · intro hnone
    refine Nat.lt_of_not_le fun hle => ?_
    obtain ⟨layout, hlayout⟩ := exists_forObject? hle
    rw [hlayout] at hnone
    cases hnone
  · intro hlt
    refine Option.eq_none_iff_forall_ne_some.2 fun layout hlayout => ?_
    exact absurd (forObject?_eq_some_iff.1 hlayout).1 (Nat.not_le.2 hlt)

end Layout

/-! ## What is done with a size -/

section Allocation

variable {place : Placement} {size : UInt64}

/-- A heap refuses a size that has no layout, -/
theorem Heap.allocate_eq_error_iff {m : Heap place} {e : OversizedRequest} :
    m.allocate size = .error e ↔ largestBlock.toNat < size.toNat ∧ e = ⟨size⟩ := by
  rw [← Layout.forObject?_eq_none_iff]
  unfold allocate
  split
  next hnone => simp [hnone, eq_comm]
  next hlayout => simp [hlayout]

/-- and obtains a block with the layout of any other. -/
theorem Heap.calls_allocate {m m' : Heap place} {h : Handle}
    (hok : m.allocate size = .ok (h, m')) :
    ∃ layout, Layout.forObject? size = some layout ∧
      m'.calls = .obtained ⟨h, layout⟩ :: m.calls := by
  unfold allocate at hok
  split at hok
  · cases hok
  next layout hlayout =>
    cases hok
    exact ⟨layout, hlayout, rfl⟩

/-- What the heap of a context refuses ends the process, and the context is left as it is. -/
theorem Context.allocate_of_refused {c : Context (Heap place)} {e : OversizedRequest}
    (herror : c.allocator.allocate size = .error e) :
    c.allocate size = .aborting c (.oversized e) := by
  have hrefused : Allocator.allocate c.allocator size = .error e := herror
  rw [Context.allocate, hrefused]

/-- A block that is granted is what the allocation returns. -/
theorem Context.outcome_allocate {c : Context (Heap place)} {h : Handle} {m : Heap place}
    (hok : c.allocator.allocate size = .ok (h, m)) :
    (c.allocate size).outcome = .returned h := by
  have hgranted : Allocator.allocate c.allocator size = .ok (h, m) := hok
  rw [Context.allocate, hgranted]

end Allocation

/-- Sizes are rounded exactly, up to the largest block and beyond it.

The block of an object has the least size that is a multiple of sixteen, holds the object and is
not zero. There is a layout, with this size and an alignment of sixteen, exactly if it is not
greater than the last multiple below half the address space, which is to say that the object is not
greater. On the way there no word wraps: each is the number that it stands for, and a next multiple
that is no word is found to be missing. An object that is too large is refused by every heap, and
no other is. If a context asks for it, the process ends, nothing has been obtained and the context
is as it was. -/
theorem sizes_rounded_exactly (place : Placement) (size : UInt64) :
    ∃ r : Nat, IsLeast {n : Nat | 16 ∣ n ∧ max size.toNat 1 ≤ n} r ∧
      (0 < r ∧ size.toNat ≤ r ∧ r < max size.toNat 1 + 16) ∧
      (r ≤ UInt64.size / 2 - 16 ↔ size.toNat ≤ UInt64.size / 2 - 16) ∧
      ((Layout.forObject? size).isSome = true ↔ r ≤ UInt64.size / 2 - 16) ∧
      (∀ layout, Layout.forObject? size = some layout ↔
        r ≤ UInt64.size / 2 - 16 ∧ layout.size.toNat = r ∧ layout.align.toNat = 16) ∧
      (let wanted := max size 1
        let excess := wanted % objectAlign
        wanted.toNat = max size.toNat 1 ∧ excess.toNat = wanted.toNat % 16 ∧
          excess.toNat + (objectAlign - excess).toNat = 16 ∧
          ∀ rounded, nextMultiple? wanted = some rounded ↔ rounded.toNat = r) ∧
      (∀ m : Heap place,
        (∀ e, m.allocate size = .error e ↔ UInt64.size / 2 - 16 < size.toNat ∧ e = ⟨size⟩) ∧
          ∀ h m', m.allocate size = .ok (h, m') → ∃ layout,
            Layout.forObject? size = some layout ∧ m'.calls = .obtained ⟨h, layout⟩ :: m.calls) ∧
      ∀ c : Context (Heap place),
        ((∃ e, (c.allocate size).outcome = .aborted e) ↔ UInt64.size / 2 - 16 < size.toNat) ∧
          (UInt64.size / 2 - 16 < size.toNat → c.allocate size =
            ⟨.aborted (.oversized ⟨size⟩), c, [.logged (.fault (.oversized ⟨size⟩))]⟩) := by
  have hlimit : UInt64.size / 2 - 16 = largestBlock.toNat := rfl
  rw [hlimit]
  -- the block size is the witness; the rest of the statement is about this number
  have hleast : IsLeast {n : Nat | 16 ∣ n ∧ max size.toNat 1 ≤ n} (blockSize size) :=
    isLeast_nextMultiple _
  have hbelow : blockSize size < max size.toNat 1 + 16 := nextMultiple_lt _
  have habove : max size.toNat 1 ≤ blockSize size := hleast.1.2
  have hrefuse (c : Context (Heap place)) (hlarge : largestBlock.toNat < size.toNat) :
      c.allocate size = .aborting c (.oversized ⟨size⟩) :=
    Context.allocate_of_refused (Heap.allocate_eq_error_iff.2 ⟨hlarge, rfl⟩)
  refine ⟨blockSize size, hleast, ⟨by omega, by omega, hbelow⟩, blockSize_le_iff,
    ?_, ?_, ?_, ?_, ?_⟩
  · rw [blockSize_le_iff, ← Option.ne_none_iff_isSome, Ne, Layout.forObject?_eq_none_iff,
      Nat.not_lt]
  · intro layout
    rw [Layout.forObject?_eq_some_iff, blockSize_le_iff, ← toNat_objectAlign, UInt64.toNat_inj]
  · refine ⟨toNat_max_one size, UInt64.toNat_mod _ _, excess_add_lack _, fun rounded => ?_⟩
    rw [nextMultiple?_eq_some_iff, toNat_max_one, blockSize]
  · exact fun m => ⟨fun e => Heap.allocate_eq_error_iff, fun h m' => Heap.calls_allocate⟩
  · refine fun c => ⟨⟨?_, fun hlarge => ?_⟩, hrefuse c⟩
    · rintro ⟨e, haborted⟩
      cases hallocate : c.allocator.allocate size with
      | error e' => exact (Heap.allocate_eq_error_iff.1 hallocate).1
      | ok granted =>
        rw [Context.outcome_allocate hallocate] at haborted
        cases haborted
    · rw [hrefuse c hlarge]
      exact ⟨_, rfl⟩

/-- The greatest object that has a layout, and the next one. -/
example : Layout.forObject? 0x7ffffffffffffff0 = some ⟨0x7ffffffffffffff0, 16⟩ ∧
    Layout.forObject? 0x7ffffffffffffff1 = none := by decide

end ExceptionLifetime
