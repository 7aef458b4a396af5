/-
The blocks of a heap, from where they come and where they go.

A heap gets its blocks from memory and gives them back there. Memory sees nothing
but these calls, so what is outstanding is told by the calls alone. That memory
can be trusted is said of its answers: the blocks it names start at an address that
is not null and is a multiple of the alignment asked for, and they have no address
in common with a block that is outstanding. An address may be used again once its
block has come back.

A heap remembers the blocks in use. Every path on which storage is given back ends
in this memory: what is not in it is refused, and what is in it is given back with
the layout that is found there and then forgotten. So whatever a program does, the
calls for one address are those of one block after the other, each obtained and
then released, with the last one still to be released as long as it is in use.
-/
import ExceptionLifetime.Proofs.Run
import ExceptionLifetime.Proofs.Sizes
import Mathlib.Data.List.Nodup

set_option autoImplicit false

namespace ExceptionLifetime

/-! ## The layout of a block -/

/-- Every block has the alignment of exception objects, and none is empty. -/
theorem Layout.forObject?_eq_some {size : UInt64} {layout : Layout}
    (h : Layout.forObject? size = some layout) :
    layout.align = objectAlign ∧ 0 < layout.size.toNat := by
  obtain ⟨-, hsize, halign⟩ := Layout.forObject?_eq_some_iff.1 h
  obtain ⟨⟨-, hle⟩, -⟩ := isLeast_nextMultiple (max size.toNat 1)
  refine ⟨halign, ?_⟩
  rw [hsize, blockSize]
  omega

/-! ## Memory -/

/-- Two blocks have no address in common. -/
def Block.Apart (a b : Block) : Prop :=
  a.start.toNat + a.layout.size.toNat ≤ b.start.toNat ∨
    b.start.toNat + b.layout.size.toNat ≤ a.start.toNat

instance (a b : Block) : Decidable (a.Apart b) := inferInstanceAs (Decidable (_ ∨ _))

namespace MemoryCall

/-- The block that changes hands. -/
def block : MemoryCall → Block
  | obtained b | released b => b

/-- The blocks that were obtained and have not been released since. -/
def outstanding : List MemoryCall → List Block
  | [] => []
  | obtained b :: earlier => b :: outstanding earlier
  | released b :: earlier => (outstanding earlier).erase b

/-- Every block was named as it should be: not at null, aligned as it was asked for, and apart
from all blocks that were outstanding. -/
inductive Sound : List MemoryCall → Prop
  | start : Sound []
  | obtained {b : Block} {earlier : List MemoryCall} (not_null : b.start ≠ Handle.null)
      (aligned : b.layout.align.toNat ∣ b.start.toNat)
      (apart : ∀ a ∈ outstanding earlier, b.Apart a) (sound : Sound earlier) :
      Sound (.obtained b :: earlier)
  | released {b : Block} {earlier : List MemoryCall} (sound : Sound earlier) :
      Sound (.released b :: earlier)

/-- A block that is obtained may be anywhere but where one is that has not been released. -/
theorem sound_obtained_iff {b : Block} {earlier : List MemoryCall} :
    Sound (.obtained b :: earlier) ↔
      (b.start ≠ Handle.null ∧ b.layout.align.toNat ∣ b.start.toNat ∧
        ∀ a ∈ outstanding earlier, b.Apart a) ∧ Sound earlier := by
  constructor
  · rintro (_ | ⟨hnull, hdvd, hapart, hs⟩)
    exact ⟨⟨hnull, hdvd, hapart⟩, hs⟩
  · rintro ⟨⟨hnull, hdvd, hapart⟩, hs⟩
    exact .obtained hnull hdvd hapart hs

theorem sound_released_iff {b : Block} {earlier : List MemoryCall} :
    Sound (.released b :: earlier) ↔ Sound earlier :=
  ⟨fun | .released hs => hs, .released⟩

instance decidableSound : DecidablePred Sound
  | [] => .isTrue .start
  | .obtained _ :: earlier =>
    have := decidableSound earlier
    decidable_of_iff' _ sound_obtained_iff
  | .released _ :: earlier =>
    have := decidableSound earlier
    decidable_of_iff' _ sound_released_iff

/-- The calls for blocks that start at `h`. -/
def startingAt (h : Handle) (calls : List MemoryCall) : List MemoryCall :=
  calls.filter (·.block.start = h)

theorem startingAt_cons_of_eq {h : Handle} {k : MemoryCall} (heq : k.block.start = h)
    (calls : List MemoryCall) : startingAt h (k :: calls) = k :: startingAt h calls := by
  simp [startingAt, heq]

theorem startingAt_cons_of_ne {h : Handle} {k : MemoryCall} (hne : k.block.start ≠ h)
    (calls : List MemoryCall) : startingAt h (k :: calls) = startingAt h calls := by
  simp [startingAt, hne]

/-- If memory has behaved until now, it did so until each earlier moment. -/
theorem sound_of_suffix {calls later : List MemoryCall} (h : calls <:+ later)
    (hs : Sound later) : Sound calls := by
  obtain ⟨l, rfl⟩ := h
  induction l with
  | nil => exact hs
  | cons k l ih =>
    cases hs with
    | obtained _ _ _ hs => exact ih hs
    | released hs => exact ih hs

end MemoryCall

open MemoryCall

namespace Heap

variable {place : Placement} {m m' : Heap place}

/-! ## What a heap remembers -/

/-- The heap remembers what is outstanding, and every block that is not has been released with the
layout it was obtained with. -/
structure Faithful (m : Heap place) : Prop where
  mem_live : ∀ b, b ∈ m.live ↔ b ∈ outstanding m.calls
  nodup : (outstanding m.calls).Nodup
  formed : ∀ b ∈ m.live, 0 < b.layout.size.toNat ∧ b.start ≠ Handle.null ∧
    objectAlign.toNat ∣ b.start.toNat
  paired : ∀ h, ∃ ended : List Block, startingAt h m.calls =
    (m.live.find? h.toNat).toList.map obtained ++ ended.flatMap fun b => [released b, obtained b]

theorem faithful_empty : (empty : Heap place).Faithful where
  mem_live b := by simp [empty, outstanding]
  nodup := List.nodup_nil
  formed b hb := absurd hb (Ascending.not_mem_empty b)
  paired h := ⟨[], rfl⟩

/-- A block that is apart from all others starts where none of them does. -/
theorem Faithful.find?_eq_none (hm : m.Faithful) {b : Block} (hsize : 0 < b.layout.size.toNat)
    (hapart : ∀ a ∈ outstanding m.calls, b.Apart a) : m.live.find? b.start.toNat = none := by
  refine Ascending.find?_eq_none_iff.2 fun a ha heq => ?_
  have hpos := (hm.formed a ha).1
  rcases hapart a ((hm.mem_live a).1 ha) with h | h <;> omega

/-- A block that is obtained is out from then on. No live block starts where it does, so the pairs
of calls at its address are complete and a new one begins. -/
theorem Faithful.obtained (hm : m.Faithful) {b : Block} (hsize : 0 < b.layout.size.toNat)
    (halign : b.layout.align = objectAlign) (hsound : Sound (.obtained b :: m.calls)) :
    (⟨.obtained b :: m.calls, m.live.insert b⟩ : Heap place).Faithful := by
  obtain ⟨⟨hnull, hdvd, hapart⟩, -⟩ := sound_obtained_iff.1 hsound
  have hnone := hm.find?_eq_none hsize hapart
  have hother := Ascending.find?_eq_none_iff.1 hnone
  refine ⟨fun a => ?_, ?_, fun a ha => ?_, fun h => ?_⟩
  · rw [Ascending.mem_insert, outstanding, List.mem_cons, ← hm.mem_live]
    exact or_congr_right (and_iff_left_of_imp fun ha => hother a ha)
  · exact List.nodup_cons.2 ⟨fun hmem => hother b ((hm.mem_live b).2 hmem) rfl, hm.nodup⟩
  · rcases Ascending.mem_insert.1 ha with rfl | ⟨ha, -⟩
    · exact ⟨hsize, hnull, halign ▸ hdvd⟩
    · exact hm.formed a ha
  · -- at another address the calls are those there were
    obtain ⟨ended, hended⟩ := hm.paired h
    refine ⟨ended, ?_⟩
    rw [Ascending.find?_insert]
    by_cases hh : b.start = h
    · rw [← hh, hnone, hh] at hended
      rw [startingAt_cons_of_eq (k := .obtained b) hh, if_pos (congrArg Handle.toNat hh)]
      exact congrArg (.obtained b :: ·) hended
    · rw [startingAt_cons_of_ne (k := .obtained b) hh,
        if_neg (fun heq => hh (Handle.ext_toNat heq))]
      exact hended

/-- Every layout that memory is asked for has the alignment of exception objects. -/
theorem Faithful.allocate (hm : m.Faithful) {size : UInt64} {h : Handle}
    (hok : m.allocate size = .ok (h, m')) (hsound : Sound m'.calls) : m'.Faithful := by
  unfold Heap.allocate at hok
  split at hok
  · cases hok
  next layout hlayout =>
    cases hok
    obtain ⟨halign, hsize⟩ := Layout.forObject?_eq_some hlayout
    exact hm.obtained hsize halign hsound

/-- A release takes out one block, which is that of its address. -/
theorem mem_live_release {a b : Block} (hb : b ∈ m.live) :
    a ∈ (m.release b).live ↔ a ∈ m.live ∧ a ≠ b := by
  rw [Heap.release, Ascending.mem_erase]
  refine and_congr_right fun ha => not_congr ⟨fun heq => ?_, fun heq => heq ▸ rfl⟩
  exact Ascending.eq_of_key_eq ha hb heq

/-- A block in use is given back once, and the address is free for another. -/
theorem Faithful.release (hm : m.Faithful) {b : Block} (hb : b ∈ m.live) :
    (m.release b).Faithful := by
  refine ⟨fun a => ?_, hm.nodup.erase b, fun a ha => ?_, fun h => ?_⟩
  · rw [mem_live_release hb, Heap.release, outstanding, hm.nodup.mem_erase_iff, ← hm.mem_live,
      and_comm]
  · exact hm.formed a (Ascending.mem_erase.1 ha).1
  · obtain ⟨ended, hended⟩ := hm.paired h
    rw [Heap.release, Ascending.find?_erase]
    by_cases hh : b.start = h
    · rw [Ascending.find?_eq_some_iff.2 ⟨hb, congrArg Handle.toNat hh⟩] at hended
      refine ⟨b :: ended, ?_⟩
      rw [startingAt_cons_of_eq (k := .released b) hh, if_pos (congrArg Handle.toNat hh)]
      exact congrArg (.released b :: ·) hended
    · refine ⟨ended, ?_⟩
      rw [startingAt_cons_of_ne (k := .released b) hh,
        if_neg (fun heq => hh (Handle.ext_toNat heq))]
      exact hended

/-- What is handed back is released if it is in use, and refused otherwise. -/
theorem Faithful.discard (hm : m.Faithful) (h : Handle) : (discard m h).Faithful := by
  cases hfind : m.live.find? h.toNat with
  | none =>
    have herror : Allocator.free m h = .error ⟨h⟩ := by simp [Allocator.free, Heap.free, hfind]
    rw [ExceptionLifetime.discard, herror]
    exact hm
  | some b =>
    have hok : Allocator.free m h = .ok (m.release b) := by
      simp [Allocator.free, Heap.free, hfind]
    rw [ExceptionLifetime.discard, hok]
    exact hm.release (Ascending.find?_eq_some_iff.1 hfind).1

/-- To give back some of the blocks in use leaves the others. -/
theorem Faithful.releaseAll (hm : m.Faithful) {l : List Block} (hl : l.Nodup)
    (hlive : ∀ b ∈ l, b ∈ m.live) :
    (l.foldl Heap.release m).Faithful ∧
      ∀ b, b ∈ (l.foldl Heap.release m).live ↔ b ∈ m.live ∧ b ∉ l := by
  induction l generalizing m with
  | nil => exact ⟨hm, fun b => by simp⟩
  | cons a l ih =>
    obtain ⟨ha, hl⟩ := List.nodup_cons.1 hl
    obtain ⟨halive, hrest⟩ := List.forall_mem_cons.1 hlive
    obtain ⟨hfaithful, hmem⟩ := ih (hm.release halive) hl fun b hb =>
      (mem_live_release halive).2 ⟨hrest b hb, fun heq => ha (heq ▸ hb)⟩
    refine ⟨hfaithful, fun b => ?_⟩
    rw [List.foldl_cons, hmem, mem_live_release halive, List.mem_cons, not_or, and_assoc]

/-- A heap that is dropped releases each block that is still out, and nothing is left. -/
theorem Faithful.close (hm : m.Faithful) : m.close.Faithful ∧ ∀ b, b ∉ m.close.live := by
  obtain ⟨hfaithful, hmem⟩ := hm.releaseAll m.live.nodup fun b => id
  exact ⟨hfaithful, fun b hb => ((hmem b).1 hb).2 ((hmem b).1 hb).1⟩

/-- What a heap that is faithful to memory does and says. It counts what is outstanding, no two
blocks of which start at the same address, and it takes back what starts one of them, and nothing
else. -/
structure Exact (m : Heap place) : Prop where
  count_eq : m.count = (outstanding m.calls).length
  distinct : (outstanding m.calls).Pairwise fun a b => a.start ≠ b.start
  start : ∀ b ∈ outstanding m.calls, b.start ≠ Handle.null ∧ objectAlign.toNat ∣ b.start.toNat
  free_outstanding : ∀ b ∈ outstanding m.calls, m.free b.start = .ok (m.release b)
  free_other : ∀ h, (∀ b ∈ outstanding m.calls, b.start ≠ h) → m.free h = .error ⟨h⟩

/-- What the heap keeps is what is out: so it counts right, and a handle is taken back exactly if a
block is out there. -/
theorem Faithful.exact (hm : m.Faithful) : m.Exact where
  count_eq := by
    have hperm : m.live.toList.Perm (outstanding m.calls) :=
      (List.perm_ext_iff_of_nodup m.live.nodup hm.nodup).2 hm.mem_live
    exact hperm.length_eq
  distinct := by
    refine hm.nodup.imp_of_mem fun {a b} ha hb hne heq => hne ?_
    exact Ascending.eq_of_key_eq ((hm.mem_live a).2 ha) ((hm.mem_live b).2 hb)
      (congrArg Handle.toNat heq)
  start b hb := (hm.formed b ((hm.mem_live b).2 hb)).2
  free_outstanding b hb := by
    have hfind := Ascending.find?_eq_some_iff.2 ⟨(hm.mem_live b).2 hb, rfl⟩
    simp [Heap.free, hfind]
  free_other h hother := by
    have hfind : m.live.find? h.toNat = none := Ascending.find?_eq_none_iff.2 fun b hb heq =>
      hother b ((hm.mem_live b).1 hb) (Handle.ext_toNat heq)
    simp [Heap.free, hfind]

/-! ## The calls of memory over time -/

/-- An allocation adds to the calls that were made and takes none back. -/
theorem calls_suffix_allocate {size : UInt64} {h : Handle} (hok : m.allocate size = .ok (h, m')) :
    m.calls <:+ m'.calls := by
  unfold Heap.allocate at hok
  split at hok
  · cases hok
  · cases hok
    exact List.suffix_cons _ _

/-- Storage that is handed back, whether it is taken or not, takes no call back. -/
theorem calls_suffix_discard (m : Heap place) (h : Handle) :
    m.calls <:+ (discard m h).calls := by
  unfold discard
  split
  next m' hok =>
    obtain ⟨b, -, rfl⟩ : ∃ b, m.live.find? h.toNat = some b ∧ m.release b = m' := by
      change Heap.free m h = .ok m' at hok
      unfold Heap.free at hok
      split at hok
      · cases hok
      next b hfind => exact ⟨b, hfind, Except.ok.inj hok⟩
    exact List.suffix_cons _ _
  · exact List.suffix_refl _

/-- The end of a heap adds the releases of what is out. -/
theorem calls_suffix_close (m : Heap place) : m.calls <:+ m.close.calls := by
  have hall : ∀ (l : List Block) (m : Heap place), m.calls <:+ (l.foldl Heap.release m).calls := by
    intro l
    induction l with
    | nil => exact fun m => List.suffix_refl _
    | cons b l ih => exact fun m => (List.suffix_cons _ _).trans (ih (m.release b))
  exact hall m.live.toList m

end Heap

/-! ## Runs -/

namespace Context

/-- What holds of an allocator and is kept when it provides storage and when it is handed some
back holds throughout a run. -/
theorem allocator_run {α : Type} [Allocator α] {P : α → Prop}
    (hallocate : ∀ a size h a', P a → Allocator.allocate a size = .ok (h, a') → P a')
    (hdiscard : ∀ a h, P a → P (discard a h)) (build : Build) {c : Context α}
    (hc : P c.allocator) (l : List Call) : P (c.run build l).allocator := by
  induction l generalizing c with
  | nil => exact hc
  | cons k l ih =>
    apply ih
    rw [call, allocator_perform]
    unfold allocatorAfter
    split
    next size _ =>
      split
      next h a hok => exact hallocate _ size h a hc hok
      · exact hc
    · exact List.foldlRecOn _ _ hc fun a ha h _ => hdiscard a h ha

/-- To free several exceptions is to hand their storage back, one after the other. -/
theorem allocator_freeAll {α : Type} [Allocator α] (c : Context α) (l : List Handle) :
    (c.freeAll l).state.allocator = l.foldl discard c.allocator := by
  induction l generalizing c with
  | nil => rfl
  | cons h l ih =>
    have hret := outcome_handBack .teardownRefused c h
    rw [freeAll, Step.andThen, hret]
    refine (ih _).trans ?_
    rw [state_handBack]
    rfl

variable {place : Placement}

/-- The heap of a context that ends, when the storage of `n` live exceptions has been handed
back. -/
def closing (c : Context (Heap place)) (n : Nat) : Heap place :=
  (freeAll { c with registry := Registry.empty }
    ((c.registry.toList.map Record.handle).take n)).state.allocator

/-- A teardown frees all exceptions that are still there. -/
theorem allocator_teardown (c : Context (Heap place)) :
    c.teardown.state.allocator = c.closing c.registry.toList.length := by
  have hall : (c.registry.toList.map Record.handle).take c.registry.toList.length =
      c.registry.toList.map Record.handle := List.take_of_length_le (by simp)
  unfold teardown closing
  rw [hall]
  dsimp only
  split <;> rfl

theorem calls_suffix_run (build : Build) (c : Context (Heap place)) (l : List Call) :
    c.allocator.calls <:+ (c.run build l).allocator.calls :=
  allocator_run (P := fun m : Heap place => c.allocator.calls <:+ m.calls)
    (fun _ _ _ _ hm hok => hm.trans (Heap.calls_suffix_allocate hok))
    (fun m h hm => hm.trans (m.calls_suffix_discard h)) build (List.suffix_refl _) l

/-- The calls up to the middle of a teardown are among those of the whole. -/
theorem calls_suffix_closing (c : Context (Heap place)) (n : Nat) :
    (c.closing n).calls <:+ c.teardown.state.allocator.calls := by
  -- the first exceptions are freed first, so the whole goes on where the part ends
  have hfold : ∀ (l : List Handle) (m : Heap place), m.calls <:+ (l.foldl discard m).calls :=
    fun l m => List.foldlRecOn (motive := fun a : Heap place => m.calls <:+ a.calls) l discard
      (List.suffix_refl _) fun a ha h _ => ha.trans (a.calls_suffix_discard h)
  rw [allocator_teardown, closing, closing, allocator_freeAll, allocator_freeAll]
  obtain ⟨rest, hrest⟩ : (c.registry.toList.map Record.handle).take n <+:
      (c.registry.toList.map Record.handle).take c.registry.toList.length := by
    rw [List.take_of_length_le (i := c.registry.toList.length) (by simp)]
    exact List.take_prefix n _
  rw [← hrest, List.foldl_append]
  exact hfold rest _

/-- As long as memory can be trusted, a run keeps the heap faithful to it. -/
theorem faithful_run (build : Build) (types : Hierarchy) (l : List Call)
    (hsound : Sound ((fresh types (Heap.empty : Heap place)).run build l).allocator.calls) :
    ((fresh types (Heap.empty : Heap place)).run build l).allocator.Faithful :=
  allocator_run (P := fun m : Heap place => Sound m.calls → m.Faithful)
    (fun _ _ _ _ hm hok hs =>
      (hm (sound_of_suffix (Heap.calls_suffix_allocate hok) hs)).allocate hok hs)
    (fun m h hm hs => (hm (sound_of_suffix (m.calls_suffix_discard h) hs)).discard h) build
    (fun _ => Heap.faithful_empty) l hsound

/-- A heap is faithful in the middle of a teardown too. -/
theorem Faithful.closing {c : Context (Heap place)} (hc : c.allocator.Faithful) (n : Nat) :
    (c.closing n).Faithful := by
  rw [Context.closing, allocator_freeAll]
  exact List.foldlRecOn _ _ hc fun m hm h _ => hm.discard h

/-- Storage that the heap refuses to take back leaves a context as it was. -/
theorem state_free_of_refused {c : Context (Heap place)} {h : Handle} {e : UnknownStorage}
    (hfree : c.allocator.free h = .error e) : (c.free h).state = c := by
  have herror : Allocator.free c.allocator h = .error e := hfree
  rw [Context.free, state_handBack, discard, herror]

/-- The calls of memory in the course of a run, with the end of its context and of the heap. -/
def memoryCalls (build : Build) (place : Placement) (types : Hierarchy) (l : List Call) :
    List MemoryCall :=
  ((fresh types (Heap.empty : Heap place)).run build l).teardown.state.allocator.close.calls

/-- Every block of a heap is released exactly once, provided that memory can be trusted. At every
moment of a run, and while its context ends, the heap counts the blocks that are outstanding, no
two of which start at the same address, none at null and each at a multiple of the alignment; it
takes back what starts one of them, and refuses everything else. When the heap is gone as well,
the calls for any address are those of one block after the other, each obtained and then released
with the layout that it was obtained with. -/
theorem blocks_released_once (build : Build) (place : Placement) (types : Hierarchy)
    (l : List Call) (hsound : Sound (memoryCalls build place types l)) :
    let c := fresh types (Heap.empty : Heap place)
    (∀ before rest, l = before ++ rest →
      (c.run build before).allocator.Exact ∧
        ∀ h, (∀ b ∈ outstanding (c.run build before).allocator.calls, b.start ≠ h) →
          ((c.run build before).free h).state = c.run build before) ∧
      (∀ n, ((c.run build l).closing n).Exact) ∧
      ∀ h, ∃ blocks : List Block, (startingAt h (memoryCalls build place types l)).reverse =
        blocks.flatMap fun b => [.obtained b, .released b] := by
  intro c
  -- memory that can be trusted in the end could be trusted at each moment before
  have hteardown : Sound (c.run build l).teardown.state.allocator.calls :=
    sound_of_suffix (Heap.calls_suffix_close _) hsound
  have hrun : Sound (c.run build l).allocator.calls := by
    have hclosing := calls_suffix_closing (c.run build l) 0
    exact sound_of_suffix hclosing hteardown
  have hfaithful := faithful_run build types l hrun
  refine ⟨?_, fun n => (Faithful.closing hfaithful n).exact, fun h => ?_⟩
  · rintro before rest rfl
    rw [run_append] at hrun
    have hexact := (faithful_run build types before
      (sound_of_suffix (calls_suffix_run build _ rest) hrun)).exact
    exact ⟨hexact, fun h hother => state_free_of_refused (hexact.free_other h hother)⟩
  · obtain ⟨hclosed, hnone⟩ := (Faithful.closing hfaithful _).close
    rw [← allocator_teardown] at hclosed hnone
    obtain ⟨ended, hended⟩ := hclosed.paired h
    rw [Ascending.find?_eq_none_iff.2 fun b hb => absurd hb (hnone b)] at hended
    refine ⟨ended.reverse, ?_⟩
    rw [memoryCalls, hended, Option.toList_none, List.map_nil, List.nil_append,
      List.reverse_flatMap]
    rfl

/-- Memory gives an address out again. The client hands back the storage of an exception that is
alive, at which another block comes to lie. A destructor panics, so that its block stays until
the heap is gone, and what was never obtained is thrown and destroyed. -/
theorem blocks_released_once_reused :
    let place : Placement := fun calls _ => ⟨4096 * (1 + (outstanding calls).length.toUInt64)⟩
    let l : List Call := [⟨.quiet, .allocate 8⟩, ⟨.quiet, .throw ⟨4096⟩ none none⟩,
      ⟨.quiet, .free ⟨4096⟩⟩, ⟨.quiet, .free ⟨4096⟩⟩, ⟨.quiet, .allocate 24⟩, ⟨.quiet, .allocate 8⟩,
      ⟨.quiet, .throw ⟨8192⟩ none (some ⟨1⟩)⟩, ⟨.quiet, .beginCatch ⟨8192⟩⟩,
      ⟨fun _ => .panics "", .endCatch⟩, ⟨.quiet, .throw ⟨32⟩ none none⟩,
      ⟨.quiet, .beginCatch ⟨32⟩⟩, ⟨.quiet, .endCatch⟩]
    let calls := memoryCalls .checked place Hierarchy.empty l
    Sound calls ∧ (startingAt ⟨4096⟩ calls).length = 4 ∧ (startingAt ⟨8192⟩ calls).length = 2 ∧
      ∀ h, ∃ blocks : List Block,
        (startingAt h calls).reverse = blocks.flatMap fun b => [.obtained b, .released b] := by
  intro place l calls
  have hsound : Sound calls := by decide +kernel
  obtain ⟨-, -, hpaired⟩ := blocks_released_once .checked place Hierarchy.empty l hsound
  exact ⟨hsound, by decide +kernel, by decide +kernel, hpaired⟩

end Context

end ExceptionLifetime
