/-
Which subobject a clause receives.

An object of a derived class may contain several objects of one base class, each at
the end of a path of bases. A path is written down by what is chosen at each class:
the number of a base, counted in order of declaration. Paths are compared as lists of
such numbers, by the first choice that is different, and the search comes to the end
of the first one: whatever lies along an earlier base was searched before, and the
class was not there.

The search adds up the offsets of the path from its end backwards, as signed numbers
that wrap around, and the sum is applied to the address in one step. Wrapping forgets
multiples of the size of the address space and nothing else. So the address is the one
that the conversions to one base after the other lead to, however large the offsets
are and in whichever direction they point.
-/
import ExceptionLifetime.Hierarchy.Catching
import ExceptionLifetime.Proofs.Inheritance
import Mathlib.Algebra.Ring.Int.Defs
import Mathlib.Data.List.Lex

set_option autoImplicit false

namespace ExceptionLifetime

open Relation

/-! ## Displacing an address along a path -/

namespace Handle

/-- The conversions to one base after the other are one displacement by the wrapped sum. -/
theorem foldl_displace (h : Handle) (offsets : List Int64) :
    offsets.foldl displace h = h.displace offsets.sum := by
  induction offsets generalizing h with
  | nil => exact (displace_zero h).symm
  | cons offset offsets ih => rw [List.foldl_cons, ih, displace_displace, List.sum_cons]

/-- A displaced handle is the sum of handle and offset, as integers, modulo the number of words. -/
theorem toNat_displace (h : Handle) (offset : Int64) :
    ((h.displace offset).toNat : Int) = (h.toNat + offset.toInt) % UInt64.size := by
  have hadd : (h.displace offset).toNat = (h.toNat + offset.toUInt64.toNat) % UInt64.size :=
    UInt64.toNat_add _ _
  have hsigned : (offset.toUInt64.toNat : Int) % UInt64.size = offset.toInt % UInt64.size := by
    rw [← Int64.toInt_toBitVec, BitVec.toInt_eq_toNat_bmod, Int64.toNat_toBitVec]
    exact Int.bmod_emod.symm
  calc ((h.displace offset).toNat : Int)
      = (h.toNat + offset.toUInt64.toNat) % UInt64.size := congrArg Nat.cast hadd
    _ = (h.toNat + offset.toInt) % UInt64.size := by
      rw [← Int.add_emod_emod, hsigned, Int.add_emod_emod]

/-- In the integers, the offsets count up to multiples of the size of the address space. -/
theorem toNat_foldl_displace (h : Handle) (offsets : List Int64) :
    ((offsets.foldl displace h).toNat : Int) =
      (h.toNat + (offsets.map Int64.toInt).sum) % UInt64.size := by
  induction offsets generalizing h with
  | nil =>
    have hlt : (h.toNat : Int) < UInt64.size := Int.ofNat_lt.2 h.addr.toNat_lt
    rw [List.foldl_nil, List.map_nil, List.sum_nil, Int.add_zero,
      Int.emod_eq_of_lt (Int.natCast_nonneg _) hlt]
  | cons offset offsets ih =>
    rw [List.foldl_cons, ih, toNat_displace, Int.emod_add_emod, List.map_cons, List.sum_cons,
      Int.add_assoc]

end Handle

/-! ## The first answer and what lies before it -/

namespace Search

/-- The answer that is found is that of some base, and no base before it had any. -/
theorem exists_getElem?_of_firstOf_eq_found {answer : Base → Search} {bases : List Base}
    {offset : Int64} (h : firstOf answer bases = found offset) :
    ∃ (i : Nat) (b : Base), bases[i]? = some b ∧ answer b = found offset ∧
      ∀ j < i, ∀ b' : Base, bases[j]? = some b' → answer b' = absent := by
  induction bases with
  | nil => cases h
  | cons b bases ih =>
    unfold firstOf at h
    split at h
    next habsent =>
      -- the first base had no answer, so it goes in front of those that come before
      obtain ⟨i, b', hb', hfound, hbefore⟩ := ih h
      refine ⟨i + 1, b', by simpa using hb', hfound, fun j hj b'' hb'' => ?_⟩
      cases j with
      | zero =>
        obtain rfl : b = b'' := by simpa using hb''
        exact habsent
      | succ j => exact hbefore j (by omega) b'' (by simpa using hb'')
    next hfound =>
      cases h
      exact ⟨0, b, rfl, hfound, fun j hj => absurd hj (Nat.not_lt_zero j)⟩
    · cases h

end Search

namespace Hierarchy

variable {t : Hierarchy} {target : TypeTag}

/-! ## Paths of bases -/

/-- A path of bases leads from a type to `target`. It gives, for each class on the way, the number
of the base that is chosen there, in order of declaration from zero on; beside it stand the offsets
of these bases. -/
inductive Leads (t : Hierarchy) (target : TypeTag) : TypeTag → List Nat → List Int64 → Prop
  | here : Leads t target target [] []
  | base {type : TypeTag} {i : Nat} {b : Base} {path : List Nat} {offsets : List Int64}
      (hb : (t.basesOf type)[i]? = some b) (hrest : Leads t target b.type path offsets) :
      Leads t target type (i :: path) (b.offset :: offsets)

/-- The first path from a type to `target`: it comes before all others in lexicographic order. -/
structure FirstPath (t : Hierarchy) (target type : TypeTag) (path : List Nat)
    (offsets : List Int64) : Prop where
  leads : t.Leads target type path offsets
  first : ∀ path' offsets', t.Leads target type path' offsets' → path' ≠ path →
    List.Lex (· < ·) path path'

theorem Leads.reaches {type : TypeTag} {path : List Nat} {offsets : List Int64}
    (h : t.Leads target type path offsets) : ReflTransGen t.HasBase type target := by
  induction h with
  | here => exact .refl
  | base hb _ ih => exact .head ⟨_, List.mem_of_getElem? hb, rfl⟩ ih

/-- The choices on a path determine its offsets. -/
theorem Leads.offsets_unique {type : TypeTag} {path : List Nat} {offsets offsets' : List Int64}
    (h : t.Leads target type path offsets) (h' : t.Leads target type path offsets') :
    offsets = offsets' := by
  induction h generalizing offsets' with
  | here =>
    cases h'
    rfl
  | base hb _ ih =>
    cases h' with
    | base hb' hrest' =>
      obtain rfl := Option.some.inj (hb.symm.trans hb')
      rw [ih hrest']

/-- There is one first path. -/
theorem FirstPath.unique {type : TypeTag} {path path' : List Nat} {offsets offsets' : List Int64}
    (h : t.FirstPath target type path offsets) (h' : t.FirstPath target type path' offsets') :
    path = path' ∧ offsets = offsets' := by
  obtain rfl : path = path' := by
    by_contra hne
    exact asymm (h.first _ _ h'.leads (Ne.symm hne)) (h'.first _ _ h.leads hne)
  exact ⟨rfl, h.leads.offsets_unique h'.leads⟩

/-- If nothing lies along the bases before `i`, the first path from there on is the first path. -/
theorem FirstPath.base {type : TypeTag} {i : Nat} {b : Base} {path : List Nat}
    {offsets : List Int64} (hne : type ≠ target) (hb : (t.basesOf type)[i]? = some b)
    (hbefore : ∀ j < i, ∀ b', (t.basesOf type)[j]? = some b' →
      ¬ ReflTransGen t.HasBase b'.type target)
    (hrest : t.FirstPath target b.type path offsets) :
    t.FirstPath target type (i :: path) (b.offset :: offsets) := by
  refine ⟨.base hb hrest.leads, fun path' offsets' hleads hother => ?_⟩
  cases hleads with
  | here => exact absurd rfl hne
  | @base _ j b' path' offsets' hb' hrest' =>
    rcases Nat.lt_trichotomy i j with hlt | rfl | hlt
    · exact .rel hlt
    · obtain rfl := Option.some.inj (hb.symm.trans hb')
      exact .cons (hrest.first _ _ hrest' fun heq => hother (heq ▸ rfl))
    · exact absurd hrest'.reaches (hbefore j hlt b' hb')

/-! ## What the search finds -/

/-- The search comes to the end of the first path, and answers with the sum of its offsets. -/
theorem firstPath_of_search {depth : Nat} {type : TypeTag} {offset : Int64}
    (h : t.search target depth type = .found offset) :
    ∃ path offsets, t.FirstPath target type path offsets ∧ offsets.sum = offset := by
  induction depth generalizing type offset with
  | zero => cases h
  | succ depth ih =>
    unfold search at h
    split at h
    next heq =>
      cases h
      refine ⟨[], [], ⟨heq ▸ .here, fun path' _ _ hother => ?_⟩, rfl⟩
      obtain ⟨i, path', rfl⟩ := List.exists_cons_of_ne_nil hother
      exact .nil
    next hne =>
      obtain ⟨i, b, hb, hanswer, hbefore⟩ := Search.exists_getElem?_of_firstOf_eq_found h
      obtain ⟨rest, hrest, rfl⟩ := Search.exists_of_within_eq_found hanswer
      obtain ⟨path, offsets, hpath, rfl⟩ := ih hrest
      -- an earlier base was searched to the end, and does not lead to the class
      refine ⟨i :: path, b.offset :: offsets, hpath.base hne hb fun j hj b' hb' => ?_,
        List.sum_cons⟩
      exact not_reaches_of_search (Search.within_eq_absent_iff.1 (hbefore j hj b' hb'))

/-- Where there is no circle, the search finds the target exactly if there is a first path, and then
at the sum of its offsets. -/
theorem upcast?_eq_some_iff (ht : t.Acyclic) {type : TypeTag} {offset : Int64} :
    t.upcast? type target = some offset ↔
      ∃ path offsets, t.FirstPath target type path offsets ∧ offsets.sum = offset := by
  constructor
  · intro h
    unfold upcast? at h
    cases hs : t.search target (t.entries.size + 1) type with
    | found found =>
      obtain rfl : found = offset := by simpa [hs, Search.offset?] using h
      exact firstPath_of_search hs
    | absent => simp [hs, Search.offset?] at h
    | cutOff => simp [hs, Search.offset?] at h
  · rintro ⟨path, offsets, hpath, rfl⟩
    have hsome := (isSome_upcast?_iff ht).2 hpath.leads.reaches
    obtain ⟨offset, hoffset⟩ := Option.isSome_iff_exists.1 hsome
    unfold upcast? at hoffset ⊢
    cases hs : t.search target (t.entries.size + 1) type with
    | found found =>
      -- the path that was found is this one, since there is one first path
      obtain ⟨path', offsets', hpath', rfl⟩ := firstPath_of_search hs
      rw [(hpath.unique hpath').2]
      rfl
    | absent => simp [hs, Search.offset?] at hoffset
    | cutOff => simp [hs, Search.offset?] at hoffset

/-! ## What a clause receives -/

/-- A tag stands for a type. -/
def IsDeclared (t : Hierarchy) (type : TypeTag) : Prop := ∃ kind, t.kind? type = some kind

/-- A clause accepts an object: both types are declared, and the type of the object leads to that of
the clause, or what the one points to leads to what the other points to. -/
def Accepts (t : Hierarchy) (clause thrown : TypeTag) : Prop :=
  t.IsDeclared clause ∧ t.IsDeclared thrown ∧
    (ReflTransGen t.HasBase thrown clause ∨
      ∃ wanted pointee, t.kind? clause = some (.pointer wanted) ∧
        t.kind? thrown = some (.pointer pointee) ∧ ReflTransGen t.HasBase pointee wanted)

/-- What an accepting clause receives of an object at `h`: a pointer as it is, and of an object of a
class the subobject at the end of the first path. -/
def Receives (t : Hierarchy) (clause thrown : TypeTag) (h a : Handle) : Prop :=
  if t.isPointer thrown = true then a = h
  else ∃ path offsets, t.FirstPath clause thrown path offsets ∧
    a = offsets.foldl Handle.displace h

/-- A pointer has no bases. -/
theorem eq_of_reaches_of_pointer {thrown clause pointee : TypeTag}
    (hkind : t.kind? thrown = some (.pointer pointee))
    (hreach : ReflTransGen t.HasBase thrown clause) : clause = thrown := by
  rcases hreach.cases_head with heq | ⟨base, hbase, -⟩
  · exact heq.symm
  · obtain ⟨bases, hclass⟩ := isClass_of_hasBase hbase
    rw [hkind] at hclass
    cases hclass

/-- Between pointers the types they point to decide, and the pointer is passed on as it is. -/
theorem caughtAs?_of_pointers {clause thrown wanted pointee : TypeTag}
    (hclause : t.kind? clause = some (.pointer wanted))
    (hthrown : t.kind? thrown = some (.pointer pointee)) (h : Handle) :
    t.caughtAs? clause thrown h = (t.upcast? pointee wanted).map fun _ => h := by
  simp only [caughtAs?, hclause, hthrown]

/-- Otherwise the search decides, and the handle is displaced by what it finds. -/
theorem caughtAs?_of_not_pointers {clause thrown : TypeTag} (hclause : t.IsDeclared clause)
    (hthrown : t.IsDeclared thrown)
    (hnot : ¬ (t.isPointer clause = true ∧ t.isPointer thrown = true)) (h : Handle) :
    t.caughtAs? clause thrown h = (t.upcast? thrown clause).map h.displace := by
  obtain ⟨kind, hkind⟩ := hclause
  obtain ⟨kind', hkind'⟩ := hthrown
  unfold isPointer at hnot
  cases kind <;> cases kind' <;> simp_all [caughtAs?]

theorem caughtAs?_of_undeclared {clause thrown : TypeTag}
    (hnot : ¬ (t.IsDeclared clause ∧ t.IsDeclared thrown)) (h : Handle) :
    t.caughtAs? clause thrown h = none := by
  unfold IsDeclared at hnot
  unfold caughtAs?
  split <;> simp_all

/-- A clause for a pointer accepts a pointer if one of the types pointed to is a base of the other.
-/
theorem accepts_iff_of_pointers {clause thrown wanted pointee : TypeTag}
    (hclause : t.kind? clause = some (.pointer wanted))
    (hthrown : t.kind? thrown = some (.pointer pointee)) :
    t.Accepts clause thrown ↔ ReflTransGen t.HasBase pointee wanted := by
  constructor
  · rintro ⟨-, -, hreach | ⟨wanted', pointee', hclause', hthrown', hreach⟩⟩
    · -- of two pointers, one leads to the other only if they are the same
      obtain rfl := eq_of_reaches_of_pointer hthrown hreach
      rw [hclause] at hthrown
      cases hthrown
      exact .refl
    · rw [hclause] at hclause'
      rw [hthrown] at hthrown'
      cases hclause'
      cases hthrown'
      exact hreach
  · exact fun hreach =>
      ⟨⟨_, hclause⟩, ⟨_, hthrown⟩, .inr ⟨wanted, pointee, hclause, hthrown, hreach⟩⟩

theorem isPointer_eq_true_iff {type : TypeTag} :
    t.isPointer type = true ↔ ∃ pointee, t.kind? type = some (.pointer pointee) := by
  unfold isPointer
  split
  next pointee hkind => simp [hkind]
  next hnot => simpa using hnot

/-- Unless both types are pointers, one that leads to the other is none. -/
theorem not_isPointer_of_reaches {clause thrown : TypeTag}
    (hnot : ¬ (t.isPointer clause = true ∧ t.isPointer thrown = true))
    (hreach : ReflTransGen t.HasBase thrown clause) : ¬ t.isPointer thrown = true := by
  intro hpointer
  obtain ⟨pointee, hkind⟩ := isPointer_eq_true_iff.1 hpointer
  exact hnot ⟨eq_of_reaches_of_pointer hkind hreach ▸ hpointer, hpointer⟩

/-- If one of the two is no pointer, there has to be a path of bases between them. -/
theorem accepts_iff_of_not_pointers {clause thrown : TypeTag} (hclause : t.IsDeclared clause)
    (hthrown : t.IsDeclared thrown)
    (hnot : ¬ (t.isPointer clause = true ∧ t.isPointer thrown = true)) :
    t.Accepts clause thrown ↔ ReflTransGen t.HasBase thrown clause := by
  constructor
  · rintro ⟨-, -, hreach | ⟨wanted, pointee, hkind, hkind', -⟩⟩
    · exact hreach
    · exact absurd ⟨isPointer_eq_true_iff.2 ⟨_, hkind⟩, isPointer_eq_true_iff.2 ⟨_, hkind'⟩⟩ hnot
  · exact fun hreach => ⟨hclause, hthrown, .inl hreach⟩

/-- A clause is matched exactly if it accepts the object, with the subobject that it receives. -/
theorem caughtAs?_eq_some_iff (ht : t.Acyclic) {clause thrown : TypeTag} {h a : Handle} :
    t.caughtAs? clause thrown h = some a ↔
      t.Accepts clause thrown ∧ t.Receives clause thrown h a := by
  by_cases hdecl : t.IsDeclared clause ∧ t.IsDeclared thrown
  · obtain ⟨hclause, hthrown⟩ := hdecl
    by_cases hpointers : t.isPointer clause = true ∧ t.isPointer thrown = true
    · -- pointers are compared by what they point to, and the address stays
      obtain ⟨wanted, hwanted⟩ := isPointer_eq_true_iff.1 hpointers.1
      obtain ⟨pointee, hpointee⟩ := isPointer_eq_true_iff.1 hpointers.2
      rw [caughtAs?_of_pointers hwanted hpointee, accepts_iff_of_pointers hwanted hpointee,
        ← isSome_upcast?_iff ht, Receives, if_pos hpointers.2]
      cases t.upcast? pointee wanted <;> simp [eq_comm]
    · rw [caughtAs?_of_not_pointers hclause hthrown hpointers,
        accepts_iff_of_not_pointers hclause hthrown hpointers, Receives, Option.map_eq_some_iff]
      constructor
      · rintro ⟨offset, hoffset, rfl⟩
        obtain ⟨path, offsets, hpath, rfl⟩ := (upcast?_eq_some_iff ht).1 hoffset
        have hreach := hpath.leads.reaches
        rw [if_neg (not_isPointer_of_reaches hpointers hreach)]
        exact ⟨hreach, path, offsets, hpath, (h.foldl_displace offsets).symm⟩
      · rintro ⟨hreach, hreceives⟩
        rw [if_neg (not_isPointer_of_reaches hpointers hreach)] at hreceives
        obtain ⟨path, offsets, hpath, rfl⟩ := hreceives
        exact ⟨offsets.sum, (upcast?_eq_some_iff ht).2 ⟨path, offsets, hpath, rfl⟩,
          (h.foldl_displace offsets).symm⟩
  · rw [caughtAs?_of_undeclared hdecl]
    constructor
    · intro hnone
      cases hnone
    · rintro ⟨⟨hclause, hthrown, -⟩, -⟩
      exact absurd ⟨hclause, hthrown⟩ hdecl

/-- An accepting clause receives something. -/
theorem exists_receives (ht : t.Acyclic) {clause thrown : TypeTag} (hacc : t.Accepts clause thrown)
    (h : Handle) : ∃ a, t.Receives clause thrown h a := by
  unfold Receives
  split
  · exact ⟨h, rfl⟩
  next hclass =>
    obtain ⟨-, -, hreach | ⟨wanted, pointee, -, hpointee, -⟩⟩ := hacc
    · obtain ⟨offset, hoffset⟩ := Option.isSome_iff_exists.1 ((isSome_upcast?_iff ht).2 hreach)
      obtain ⟨path, offsets, hpath, -⟩ := (upcast?_eq_some_iff ht).1 hoffset
      exact ⟨_, path, offsets, hpath, rfl⟩
    · exact absurd (isPointer_eq_true_iff.2 ⟨pointee, hpointee⟩) hclass

/-- Whether a clause catches does not depend on the handle. -/
theorem isSome_caughtAs?_iff (ht : t.Acyclic) {clause thrown : TypeTag} {h : Handle} :
    (t.caughtAs? clause thrown h).isSome = true ↔ t.Accepts clause thrown := by
  rw [Option.isSome_iff_exists]
  constructor
  · rintro ⟨a, ha⟩
    exact ((caughtAs?_eq_some_iff ht).1 ha).1
  · intro hacc
    obtain ⟨a, ha⟩ := exists_receives ht hacc h
    exact ⟨a, (caughtAs?_eq_some_iff ht).2 ⟨hacc, ha⟩⟩

/-! ## Bases in order of declaration -/

/-- The base that a call adds to a class, if it does. -/
def baseAdded? (t : Hierarchy) (type : TypeTag) : Declaration → Option Base
  | .addBase derived base offset =>
    match t.addBase derived base offset with
    | .ok _ => if type = derived then some ⟨base, offset⟩ else none
    | .error _ => none
  | _ => none

/-- The bases that these calls add to a class, one call after the other. -/
def basesAdded (t : Hierarchy) (type : TypeTag) : List Declaration → List Base
  | [] => []
  | d :: l => (t.baseAdded? type d).toList ++ (t.perform d).2.basesAdded type l

/-- What a declaration does to the list of bases of one type: it adds one at the end, or none. -/
theorem basesOf_perform (d : Declaration) (type : TypeTag) :
    (t.perform d).2.basesOf type = t.basesOf type ++ (t.baseAdded? type d).toList := by
  cases d with
  | declare name => simp [perform, baseAdded?, basesOf_declare]
  | declareHost name => simp [perform, baseAdded?, basesOf_declareHost]
  | pointerTo pointee => simp [perform, baseAdded?, basesOf_pointerTo]
  | addBase derived base offset =>
    cases hadd : t.addBase derived base offset with
    | error e => simp [perform, baseAdded?, hadd]
    | ok t' =>
      by_cases heq : type = derived <;> simp [perform, baseAdded?, hadd, basesOf_addBase hadd, heq]

/-- The bases of a type are those that were added, in the order of the declarations. -/
theorem basesOf_extended (l : List Declaration) (type : TypeTag) :
    (t.extended l).basesOf type = t.basesOf type ++ t.basesAdded type l := by
  induction l generalizing t with
  | nil => simp [extended, basesAdded]
  | cons d l ih => rw [extended, ih, basesOf_perform, basesAdded, List.append_assoc]

/-- Which clauses accept which objects, and what they receive, in a hierarchy built by any calls.
Here `caught` is what a clause answers for an object at `h`, and `after` is the address that its
caller has afterwards. Paths go by the numbers of the bases, which are those that the calls have
added, in this order. An undeclared type is neither caught nor thrown. A clause for a pointer
accepts a pointer exactly if what this points to leads to what that points to. In all other cases
the type of the object has to lead to that of the clause, and the address goes from base to base
along the first path; this is one displacement by the wrapped sum that the search has found, and
counts the offsets up to multiples of the size of the address space. In each case where nothing is
said of the address, it is the one that it was. -/
theorem caught_along_first_path (l : List Declaration) (clause thrown : TypeTag) (h : Handle) :
    let t := empty.extended l
    let caught := (t.caughtAs? clause thrown h).isSome
    let after := (t.caughtAs? clause thrown h).getD h
    (∀ type, t.basesOf type = empty.basesAdded type l) ∧
    (¬ (t.IsDeclared clause ∧ t.IsDeclared thrown) → caught = false ∧ after = h) ∧
    (∀ wanted pointee, t.kind? clause = some (.pointer wanted) →
      t.kind? thrown = some (.pointer pointee) →
      (caught = true ↔ ReflTransGen t.HasBase pointee wanted) ∧ after = h) ∧
    (t.IsDeclared clause → t.IsDeclared thrown →
      ¬ (t.isPointer clause = true ∧ t.isPointer thrown = true) →
      (caught = true ↔ ReflTransGen t.HasBase thrown clause) ∧
      (caught = false → after = h) ∧
      (caught = true → ∃ path offsets, t.FirstPath clause thrown path offsets ∧
        after = offsets.foldl Handle.displace h ∧
        t.upcast? thrown clause = some offsets.sum ∧ after = h.displace offsets.sum ∧
        (after.toNat : Int) = (h.toNat + (offsets.map Int64.toInt).sum) % UInt64.size)) := by
  intro t caught after
  have ht : t.Acyclic := acyclic_extended acyclic_empty l
  -- `after` falls back to the address of the object
  have hkept : caught = false → after = h := by
    intro hcaught
    have hnone : t.caughtAs? clause thrown h = none := by simpa [caught] using hcaught
    simp [after, hnone]
  refine ⟨fun type => ?_, fun hnot => ?_, fun wanted pointee hclause hthrown => ⟨?_, ?_⟩,
    fun hclause hthrown hnot => ⟨?_, hkept, fun hcaught => ?_⟩⟩
  · rw [basesOf_extended]
    simp [basesOf, kind?, find?, empty]
  · have hcaught : caught = false := by simp only [caught, caughtAs?_of_undeclared hnot]; rfl
    exact ⟨hcaught, hkept hcaught⟩
  · exact (isSome_caughtAs?_iff ht).trans (accepts_iff_of_pointers hclause hthrown)
  · simp only [after, caughtAs?_of_pointers hclause hthrown]
    cases t.upcast? pointee wanted <;> rfl
  · exact (isSome_caughtAs?_iff ht).trans (accepts_iff_of_not_pointers hclause hthrown hnot)
  · have hmap := caughtAs?_of_not_pointers hclause hthrown hnot h
    have hsome : (t.upcast? thrown clause).isSome = true := by
      simpa only [caught, hmap, Option.isSome_map] using hcaught
    obtain ⟨offset, hoffset⟩ := Option.isSome_iff_exists.1 hsome
    obtain ⟨path, offsets, hpath, rfl⟩ := (upcast?_eq_some_iff ht).1 hoffset
    have hafter : after = h.displace offsets.sum := by simp [after, hmap, hoffset]
    have hfold : after = offsets.foldl Handle.displace h :=
      hafter.trans (h.foldl_displace offsets).symm
    exact ⟨path, offsets, hpath, hfold, hoffset, hafter, hfold ▸ h.toNat_foldl_displace offsets⟩

/-- A diamond. The object of the last class has two of the first one in it, and the path by the base
that was declared first wins; its second step leads back over the start of the address space. -/
example :
    let tag (n : Nat) : TypeTag := ⟨n + 1, Nat.succ_pos n⟩
    let t := empty.extended [.declare "top", .declare "left", .declare "right", .declare "bottom",
      .addBase (tag 1) (tag 0) (-32), .addBase (tag 2) (tag 0) 8, .addBase (tag 3) (tag 1) 16,
      .addBase (tag 3) (tag 2) 0]
    t.caughtAs? (tag 0) (tag 3) ⟨12⟩ = some ⟨0xfffffffffffffffc⟩ := by
  decide +kernel

end Hierarchy

end ExceptionLifetime
