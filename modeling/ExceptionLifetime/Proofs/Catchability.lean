/-
Catching as an order on types.

A clause for a class catches the objects of that class and of those derived from it, and
a clause for a pointer goes by what is pointed to. So there are two orders here, one on
classes and one on pointers, and both are reachability in the graph of bases. That they
are orders rests on three things that no declaration takes away: the graph has no circle,
each type is pointed to by one pointer only, and bases are classes. The last is up to the
client, since nobody asks whether there is a type behind the tag of a base.

What a declaration can make of a hierarchy is listed once. It leaves a declared type what
it is, up to one more base at the end of a class, and adds an edge at most. So what was
caught before is caught afterwards, though perhaps along another path.
-/
import ExceptionLifetime.Proofs.Subobject

set_option autoImplicit false

namespace ExceptionLifetime

open Relation

namespace Hierarchy

variable {t t' : Hierarchy}

/-! ## What a declaration makes of a hierarchy -/

/-- What a call can make of a hierarchy. -/
inductive Grows (t t' : Hierarchy) : Prop
  /-- The type is there already, or the base is refused. -/
  | same (h : ∀ type, t'.find? type = t.find? type)
  | newClass (name : String)
      (h : ∀ type, t'.find? type =
        if type = t.nextTag then some ⟨name, .classType []⟩ else t.find? type)
  /-- Nothing has pointed to the type before. -/
  | newPointer (pointee : TypeTag) (hnew : ∀ p, t.kind? p ≠ some (.pointer pointee))
      (h : ∀ type, t'.find? type =
        if type = t.nextTag then some ⟨"*", .pointer pointee⟩ else t.find? type)
  | newBase (derived : TypeTag) (name : String) (bases : List Base) (base : Base)
      (hold : t.find? derived = some ⟨name, .classType bases⟩)
      (h : ∀ type, t'.find? type =
        if type = derived then some ⟨name, .classType (bases ++ [base])⟩ else t.find? type)

/-- The pointer to a type is the one that there is, or the next tag if there is none. -/
theorem pointerTo_cases (t : Hierarchy) (pointee : TypeTag) :
    (∃ p, t.kind? p = some (.pointer pointee) ∧ t.pointerTo pointee = (p, t)) ∨
      (∀ p, t.kind? p ≠ some (.pointer pointee)) ∧
        t.pointerTo pointee = t.push ⟨"*", .pointer pointee⟩ := by
  unfold pointerTo
  split
  next i hi =>
    obtain ⟨hlt, hkind, -⟩ := Array.findIdx?_eq_some_iff_getElem.1 hi
    refine .inl ⟨⟨i + 1, Nat.succ_pos i⟩, ?_, rfl⟩
    simp only [kind?, find?, Nat.add_sub_cancel, Array.getElem?_eq_getElem hlt, Option.map_some]
    exact congrArg some (eq_of_beq hkind)
  next hnone =>
    refine .inr ⟨fun p hp => ?_, rfl⟩
    obtain ⟨e, he, hkind⟩ := Option.map_eq_some_iff.1 hp
    have hother := Array.findIdx?_eq_none_iff.1 hnone e (Array.mem_of_getElem? he)
    simp [hkind] at hother

/-- A class that is declared is new. -/
theorem grows_declare (t : Hierarchy) (name : String) : t.Grows (t.declare name).2 :=
  .newClass name (find?_push t _)

/-- A type of the host program is found again or declared as a class. -/
theorem grows_declareHost (t : Hierarchy) (host : HostType) : t.Grows (t.declareHost host).2 := by
  unfold declareHost
  split
  · exact .same fun _ => rfl
  · -- the entry for the host program is beside the declared types
    exact .newClass host.name (find?_push t _)

/-- A pointer type is found again or declared. In the second case there was none to the same type.
-/
theorem grows_pointerTo (t : Hierarchy) (pointee : TypeTag) : t.Grows (t.pointerTo pointee).2 := by
  rcases pointerTo_cases t pointee with ⟨p, -, hsame⟩ | ⟨hnew, hpush⟩
  · rw [hsame]
    exact .same fun _ => rfl
  · rw [hpush]
    exact .newPointer pointee hnew (find?_push t _)

/-- No declaration takes anything back: a refused base leaves all as it was, and one that is added
lengthens the list of one class. -/
theorem grows_perform (t : Hierarchy) (d : Declaration) : t.Grows (t.perform d).2 := by
  cases d with
  | declare name => exact grows_declare t name
  | declareHost name => exact grows_declareHost t name
  | pointerTo pointee => exact grows_pointerTo t pointee
  | addBase derived base offset =>
    rw [perform]
    cases hadd : t.addBase derived base offset with
    | error e => exact .same fun _ => rfl
    | ok t' =>
      obtain ⟨-, name, bases, hold, hafter⟩ := addBase_eq_ok hadd
      exact .newBase derived name bases ⟨base, offset⟩ hold hafter

theorem find?_nextTag (t : Hierarchy) : t.find? t.nextTag = none := by
  simp [find?, nextTag]

/-- A pointer goes on to point to what it points to, -/
theorem Grows.pointer (hg : t.Grows t') {p pointee : TypeTag}
    (hp : t.kind? p = some (.pointer pointee)) : t'.kind? p = some (.pointer pointee) := by
  have hnext : p ≠ t.nextTag := by
    intro heq
    rw [kind?, heq, find?_nextTag] at hp
    cases hp
  unfold kind? at hp ⊢
  cases hg with
  | same h => rw [h, hp]
  | newClass name h => rw [h, if_neg hnext, hp]
  | newPointer pointee hnew h => rw [h, if_neg hnext, hp]
  | newBase derived name bases base hold h =>
    rw [h, if_neg, hp]
    intro heq
    rw [heq, hold] at hp
    cases hp

/-- and a class goes on to be one. -/
theorem Grows.isClass (hg : t.Grows t') {type : TypeTag} (hclass : t.IsClass type) :
    t'.IsClass type := by
  obtain ⟨name, bases, hfind⟩ := isClass_iff.1 hclass
  have hnext : type ≠ t.nextTag := by
    intro heq
    rw [heq, find?_nextTag] at hfind
    cases hfind
  apply isClass_iff.2
  cases hg with
  | same h => exact ⟨name, bases, (h type).trans hfind⟩
  | newClass _ h => exact ⟨name, bases, by rw [h, if_neg hnext, hfind]⟩
  | newPointer _ _ h => exact ⟨name, bases, by rw [h, if_neg hnext, hfind]⟩
  | newBase derived name' bases' base hold h =>
    by_cases heq : type = derived
    · exact ⟨name', bases' ++ [base], by rw [h, if_pos heq]⟩
    · exact ⟨name, bases, by rw [h, if_neg heq, hfind]⟩

/-- A declared type is a class or a pointer. -/
theorem isDeclared_iff {type : TypeTag} :
    t.IsDeclared type ↔ t.IsClass type ∨ ∃ pointee, t.kind? type = some (.pointer pointee) := by
  constructor
  · rintro ⟨kind, hkind⟩
    cases kind with
    | classType bases => exact .inl ⟨bases, hkind⟩
    | pointer pointee => exact .inr ⟨pointee, hkind⟩
  · rintro (⟨bases, hkind⟩ | ⟨pointee, hkind⟩)
    · exact ⟨_, hkind⟩
    · exact ⟨_, hkind⟩

theorem Grows.isDeclared (hg : t.Grows t') {type : TypeTag} (hdecl : t.IsDeclared type) :
    t'.IsDeclared type := by
  rw [isDeclared_iff] at hdecl ⊢
  exact hdecl.imp hg.isClass fun ⟨pointee, hp⟩ => ⟨pointee, hg.pointer hp⟩

/-! ## Pointers and bases -/

/-- Each type is pointed to by one pointer only. -/
def Interned (t : Hierarchy) : Prop :=
  ∀ p q pointee, t.kind? p = some (.pointer pointee) → t.kind? q = some (.pointer pointee) → p = q

/-- Bases are classes. -/
def HasClassBases (t : Hierarchy) : Prop := ∀ derived base, t.HasBase derived base → t.IsClass base

/-- Each base that these calls add is declared as a class by then. -/
def BasesDeclared (t : Hierarchy) : List Declaration → Prop
  | [] => True
  | d :: l => (∀ link ∈ t.link? d, t.IsClass link.2) ∧ (t.perform d).2.BasesDeclared l

instance (t : Hierarchy) (type : TypeTag) : Decidable (t.IsClass type) :=
  match h : t.kind? type with
  | some (.classType bases) => .isTrue ⟨bases, h⟩
  | some (.pointer pointee) => .isFalse fun ⟨_, hclass⟩ => by simp [h] at hclass
  | none => .isFalse fun ⟨_, hclass⟩ => by simp [h] at hclass

instance decidableBasesDeclared : (t : Hierarchy) → (l : List Declaration) →
    Decidable (t.BasesDeclared l)
  | _, [] => .isTrue trivial
  | t, d :: l =>
    have := decidableBasesDeclared (t.perform d).2 l
    inferInstanceAs (Decidable (_ ∧ _))

/-- A pointer of the grown hierarchy was there before, or is the new one. -/
theorem Grows.pointer_before (hg : t.Grows t') {p pointee : TypeTag}
    (hp : t'.kind? p = some (.pointer pointee)) :
    t.kind? p = some (.pointer pointee) ∨
      p = t.nextTag ∧ ∀ q, t.kind? q ≠ some (.pointer pointee) := by
  unfold kind? at hp
  cases hg with
  | same h =>
    rw [h] at hp
    exact .inl hp
  | newClass name h =>
    rw [h] at hp
    split at hp
    · cases hp
    · exact .inl hp
  | newPointer pointee' hnew h =>
    rw [h] at hp
    split at hp
    -- the entry under the new tag is the pointer that was asked for
    next heq =>
      cases hp
      exact .inr ⟨heq, hnew⟩
    · exact .inl hp
  | newBase derived name bases base hold h =>
    rw [h] at hp
    split at hp
    · cases hp
    · exact .inl hp

/-- There is one pointer type at most to each type, and a new one is only made where there was none.
-/
theorem Interned.grows (hi : t.Interned) (hg : t.Grows t') : t'.Interned := by
  intro p q pointee hp hq
  -- two pointers to one type are both old, or both the one that is new
  rcases hg.pointer_before hp with hp | ⟨rfl, hnone⟩
  · rcases hg.pointer_before hq with hq | ⟨rfl, hnone⟩
    · exact hi p q pointee hp hq
    · exact absurd hp (hnone p)
  · rcases hg.pointer_before hq with hq | ⟨rfl, -⟩
    · exact absurd hq (hnone q)
    · rfl

theorem interned_empty : empty.Interned := by
  intro p q pointee hp
  simp [kind?, find?, empty] at hp

/-- One pointer type at most to each type, after any declarations. -/
theorem interned_extended (hi : t.Interned) (l : List Declaration) : (t.extended l).Interned := by
  induction l generalizing t with
  | nil => exact hi
  | cons d l ih => exact ih (hi.grows (grows_perform t d))

/-- If every base that is added is a declared class at that moment, all bases are declared classes.
They stay so, since nothing is taken back. -/
theorem hasClassBases_extended {l : List Declaration} (hb : t.HasClassBases)
    (hl : t.BasesDeclared l) : (t.extended l).HasClassBases := by
  induction l generalizing t with
  | nil => exact hb
  | cons d l ih =>
    obtain ⟨hd, hrest⟩ := hl
    apply ih _ hrest
    intro derived base hbase
    apply (grows_perform t d).isClass
    rcases (hasBase_perform d derived base).1 hbase with hold | hlink
    · exact hb derived base hold
    · exact hd (derived, base) hlink

/-! ## Who catches whom -/

/-- A clause of type `clause` catches objects of type `thrown`, wherever they are. -/
def Catches (t : Hierarchy) (clause thrown : TypeTag) : Prop :=
  ∀ h, (t.caughtAs? clause thrown h).isSome = true

/-- A clause catches a type at every handle if it accepts the type: the handle has no part in it. -/
theorem catches_iff_accepts (ht : t.Acyclic) {clause thrown : TypeTag} :
    t.Catches clause thrown ↔ t.Accepts clause thrown := by
  constructor
  · intro hc
    exact (isSome_caughtAs?_iff ht).1 (hc Handle.null)
  · intro hacc h
    exact (isSome_caughtAs?_iff ht).2 hacc

/-- Where an object lies has no part in whether it is caught. -/
theorem isSome_caughtAs?_iff_catches (ht : t.Acyclic) {clause thrown : TypeTag} {h : Handle} :
    (t.caughtAs? clause thrown h).isSome = true ↔ t.Catches clause thrown :=
  (isSome_caughtAs?_iff ht).trans (catches_iff_accepts ht).symm

/-- What a class leads to is a class. -/
theorem HasClassBases.isClass_of_reaches (hb : t.HasClassBases) {type target : TypeTag}
    (hclass : t.IsClass type) (hreach : ReflTransGen t.HasBase type target) : t.IsClass target := by
  rcases hreach.cases_tail with heq | ⟨derived, -, hbase⟩
  · rw [heq]
    exact hclass
  · exact hb derived target hbase

/-- Where bases are classes, a class is caught as one that it leads to, and a pointer as a pointer
to what it leads to. -/
theorem accepts_iff (hb : t.HasClassBases) {clause thrown : TypeTag} :
    t.Accepts clause thrown ↔
      (t.IsClass clause ∧ t.IsClass thrown ∧ ReflTransGen t.HasBase thrown clause) ∨
      ∃ wanted pointee, t.kind? clause = some (.pointer wanted) ∧
        t.kind? thrown = some (.pointer pointee) ∧ ReflTransGen t.HasBase pointee wanted := by
  constructor
  · rintro ⟨-, hthrown, hreach | hpointers⟩
    · rcases isDeclared_iff.1 hthrown with hclass | ⟨pointee, hpointer⟩
      · exact .inl ⟨hb.isClass_of_reaches hclass hreach, hclass, hreach⟩
      · -- a pointer leads to itself only
        obtain rfl := eq_of_reaches_of_pointer hpointer hreach
        exact .inr ⟨pointee, pointee, hpointer, hpointer, .refl⟩
    · exact .inr hpointers
  · rintro (⟨hclause, hthrown, hreach⟩ | ⟨wanted, pointee, hclause, hthrown, hreach⟩)
    · exact ⟨isDeclared_iff.2 (.inl hclause), isDeclared_iff.2 (.inl hthrown), .inl hreach⟩
    · exact ⟨⟨_, hclause⟩, ⟨_, hthrown⟩, .inr ⟨wanted, pointee, hclause, hthrown, hreach⟩⟩

theorem not_isClass_of_pointer {type pointee : TypeTag}
    (hp : t.kind? type = some (.pointer pointee)) : ¬ t.IsClass type := by
  rintro ⟨bases, hclass⟩
  rw [hp] at hclass
  cases hclass

/-- Paths of bases can be put together, and a pointer in the middle points to one type only. -/
theorem accepts_trans (hb : t.HasClassBases) {a b c : TypeTag} (hab : t.Accepts a b)
    (hbc : t.Accepts b c) : t.Accepts a c := by
  rw [accepts_iff hb] at hab hbc ⊢
  rcases hab with ⟨ha, hclass, hreach⟩ | ⟨wanted, pointee, ha, hpointer, hreach⟩
  · rcases hbc with ⟨-, hc, hreach'⟩ | ⟨_, _, hpointer, -, -⟩
    · exact .inl ⟨ha, hc, hreach'.trans hreach⟩
    · exact absurd hclass (not_isClass_of_pointer hpointer)
  · rcases hbc with ⟨hclass, -, -⟩ | ⟨wanted', pointee', hpointer', hc, hreach'⟩
    · exact absurd hclass (not_isClass_of_pointer hpointer)
    · -- the pointer in the middle points to one type
      rw [hpointer] at hpointer'
      cases hpointer'
      exact .inr ⟨wanted, pointee', ha, hc, hreach'.trans hreach⟩

/-- Two types that lead to each other are one. -/
theorem Acyclic.eq_of_reaches (ht : t.Acyclic) {a b : TypeTag}
    (hab : ReflTransGen t.HasBase a b) (hba : ReflTransGen t.HasBase b a) : a = b := by
  rcases reflTransGen_iff_eq_or_transGen.1 hab with heq | hpath
  · exact heq.symm
  · exact absurd (hpath.trans_left hba) (ht a)

/-- Two classes that catch each other lie on a circle of bases, and there is none. Two pointers are
to the same type then, and there is one pointer to it. -/
theorem accepts_antisymm (ht : t.Acyclic) (hi : t.Interned) (hb : t.HasClassBases)
    {a b : TypeTag} (hab : t.Accepts a b) (hba : t.Accepts b a) : a = b := by
  rw [accepts_iff hb] at hab hba
  rcases hab with ⟨hclass, -, hreach⟩ | ⟨wanted, pointee, ha, hb', hreach⟩
  · rcases hba with ⟨-, -, hreach'⟩ | ⟨_, _, -, hpointer, -⟩
    · exact ht.eq_of_reaches hreach' hreach
    · exact absurd hclass (not_isClass_of_pointer hpointer)
  · rcases hba with ⟨-, hclass, -⟩ | ⟨wanted', pointee', hb'', ha', hreach'⟩
    · exact absurd hclass (not_isClass_of_pointer ha)
    · rw [ha] at ha'
      rw [hb'] at hb''
      cases ha'
      cases hb''
      -- both point to the same type, so they are the same pointer
      obtain rfl := ht.eq_of_reaches hreach hreach'
      exact hi a b _ ha hb'

/-- What was caught is caught in the grown hierarchy. -/
theorem accepts_perform {a b : TypeTag} (hab : t.Accepts a b) (d : Declaration) :
    (t.perform d).2.Accepts a b := by
  have hg := grows_perform t d
  have hreach : ∀ x y, ReflTransGen t.HasBase x y → ReflTransGen (t.perform d).2.HasBase x y := by
    intro x y hpath
    exact ReflTransGen.mono (fun a b hab => (hasBase_perform d a b).2 (.inl hab)) x y hpath
  obtain ⟨ha, hb, hcases⟩ := hab
  refine ⟨hg.isDeclared ha, hg.isDeclared hb, ?_⟩
  rcases hcases with hpath | ⟨wanted, pointee, ha, hb, hpath⟩
  · exact .inl (hreach b a hpath)
  · exact .inr ⟨wanted, pointee, hg.pointer ha, hg.pointer hb, hreach pointee wanted hpath⟩

/-- What a clause accepts it accepts after any declarations. -/
theorem accepts_extended {a b : TypeTag} (hab : t.Accepts a b) (l : List Declaration) :
    (t.extended l).Accepts a b := by
  induction l generalizing t with
  | nil => exact hab
  | cons d l ih => exact ih (accepts_perform hab d)

/-! ## Pointers to types -/

/-- The pointer to a type points to it, and stays what it is when there are more. -/
theorem kind?_pointerTo (t : Hierarchy) (pointee : TypeTag) :
    (t.pointerTo pointee).2.kind? (t.pointerTo pointee).1 = some (.pointer pointee) := by
  rcases pointerTo_cases t pointee with ⟨p, hp, hsame⟩ | ⟨-, hpush⟩
  · rw [hsame]
    exact hp
  · have hnext : (t.push ⟨"*", .pointer pointee⟩).1 = t.nextTag := rfl
    rw [hpush, kind?, find?_push, if_pos hnext]
    rfl

/-- A pointer type is no base and has none. -/
theorem hasBase_pointerTo (t : Hierarchy) (pointee : TypeTag) :
    (t.pointerTo pointee).2.HasBase = t.HasBase := by
  funext derived base
  rw [HasBase, basesOf_pointerTo]
  rfl

/-- The pointers to two types, asked for one after the other, are related as the types are. -/
theorem accepts_pointerTo_iff (t : Hierarchy) (a b : TypeTag) :
    let p := t.pointerTo a
    let q := p.2.pointerTo b
    q.2.Accepts p.1 q.1 ↔ ReflTransGen t.HasBase b a := by
  intro p q
  have hp : q.2.kind? p.1 = some (.pointer a) :=
    (grows_pointerTo p.2 b).pointer (kind?_pointerTo t a)
  have hq : q.2.kind? q.1 = some (.pointer b) := kind?_pointerTo p.2 b
  rw [accepts_iff_of_pointers hp hq, hasBase_pointerTo, hasBase_pointerTo]

/-- Different types are pointed to by different pointers. -/
theorem pointerTo_eq_iff (hi : t.Interned) (a b : TypeTag) :
    let p := t.pointerTo a
    let q := p.2.pointerTo b
    p.1 = q.1 ↔ a = b := by
  intro p q
  have hp : q.2.kind? p.1 = some (.pointer a) :=
    (grows_pointerTo p.2 b).pointer (kind?_pointerTo t a)
  have hq : q.2.kind? q.1 = some (.pointer b) := kind?_pointerTo p.2 b
  constructor
  · intro heq
    rw [heq, hq] at hp
    cases hp
    rfl
  · intro heq
    subst heq
    exact (hi.grows (grows_pointerTo t a)).grows (grows_pointerTo p.2 a) _ _ _ hp hq

/-- Pointers have no bases, and are none. -/
theorem reaches_iff_eq_of_pointer (hb : t.HasClassBases) {a b : TypeTag}
    (hpointer : t.isPointer a = true ∨ t.isPointer b = true) :
    ReflTransGen t.HasBase b a ↔ a = b := by
  constructor
  · intro hreach
    rcases hpointer with ha | hb'
    · obtain ⟨pointee, hkind⟩ := isPointer_eq_true_iff.1 ha
      rcases hreach.cases_tail with heq | ⟨derived, -, hbase⟩
      · exact heq
      · exact absurd (hb derived a hbase) (not_isClass_of_pointer hkind)
    · obtain ⟨pointee, hkind⟩ := isPointer_eq_true_iff.1 hb'
      exact eq_of_reaches_of_pointer hkind hreach
  · intro heq
    rw [heq]

/-- Catching is a partial order on the declared types of a hierarchy that is built by any calls, as
long as each base that is accepted was declared as a class by then. It goes by the types alone, and
not by where the object is. No pointer is caught as a class, and no class as a pointer. The pointers
to two classes catch each other as the classes do, whether they are declared already or not. If one
of two types is a pointer, the pointers to them catch each other only if they are the same one,
which they are for the same type. And what is caught is caught in every hierarchy that further
calls, refused or not, make of this one. -/
theorem catches_partial_order {l : List Declaration} (hl : empty.BasesDeclared l) :
    let t := empty.extended l
    (∀ a b h, (t.caughtAs? a b h).isSome = true ↔ t.Catches a b) ∧
    (∀ a, t.IsDeclared a → t.Catches a a) ∧
    (∀ a b c, t.Catches a b → t.Catches b c → t.Catches a c) ∧
    (∀ a b, t.Catches a b → t.Catches b a → a = b) ∧
    (∀ p a, t.isPointer p = true → t.IsClass a → ¬ t.Catches p a ∧ ¬ t.Catches a p) ∧
    (∀ a b,
      let p := t.pointerTo a
      let q := p.2.pointerTo b
      (t.IsClass a → t.IsClass b → (q.2.Catches p.1 q.1 ↔ t.Catches a b)) ∧
      (t.isPointer a = true ∨ t.isPointer b = true → (q.2.Catches p.1 q.1 ↔ p.1 = q.1)) ∧
      (p.1 = q.1 ↔ a = b)) ∧
    ∀ l' a b, t.Catches a b → (t.extended l').Catches a b := by
  intro t
  have ht : t.Acyclic := acyclic_extended acyclic_empty l
  have hi : t.Interned := interned_extended interned_empty l
  have hb : t.HasClassBases := by
    apply hasClassBases_extended _ hl
    intro derived base hbase
    exact absurd hbase (not_hasBase_empty derived base)
  refine ⟨fun a b h => isSome_caughtAs?_iff_catches ht, ?_, ?_, ?_, ?_, ?_, ?_⟩
  · intro a ha
    rw [catches_iff_accepts ht]
    exact ⟨ha, ha, .inl .refl⟩
  · intro a b c hab hbc
    rw [catches_iff_accepts ht] at hab hbc ⊢
    exact accepts_trans hb hab hbc
  · intro a b hab hba
    rw [catches_iff_accepts ht] at hab hba
    exact accepts_antisymm ht hi hb hab hba
  · intro p a hp ha
    obtain ⟨pointee, hp⟩ := isPointer_eq_true_iff.1 hp
    have hnot := not_isClass_of_pointer hp
    rw [catches_iff_accepts ht, catches_iff_accepts ht, accepts_iff hb, accepts_iff hb]
    constructor
    · rintro (⟨hclass, -, -⟩ | ⟨_, _, -, hpointer, -⟩)
      · exact hnot hclass
      · exact not_isClass_of_pointer hpointer ha
    · rintro (⟨-, hclass, -⟩ | ⟨_, _, hpointer, -, -⟩)
      · exact hnot hclass
      · exact not_isClass_of_pointer hpointer ha
  · intro a b p q
    -- the pointers are asked for by two more calls
    have hq : q.2.Acyclic := (ht.perform (.pointerTo a)).perform (.pointerTo b)
    have hiff : q.2.Catches p.1 q.1 ↔ ReflTransGen t.HasBase b a :=
      (catches_iff_accepts hq).trans (accepts_pointerTo_iff t a b)
    have heq : p.1 = q.1 ↔ a = b := pointerTo_eq_iff hi a b
    refine ⟨fun ha hb' => ?_, fun hpointer => ?_, heq⟩
    · have hnot : ¬ (t.isPointer a = true ∧ t.isPointer b = true) := by
        rintro ⟨hpointer, -⟩
        obtain ⟨pointee, hkind⟩ := isPointer_eq_true_iff.1 hpointer
        exact not_isClass_of_pointer hkind ha
      rw [hiff, catches_iff_accepts ht, accepts_iff_of_not_pointers
        (isDeclared_iff.2 (.inl ha)) (isDeclared_iff.2 (.inl hb')) hnot]
    · rw [hiff, heq, reaches_iff_eq_of_pointer hb hpointer]
  · intro l' a b hab
    rw [catches_iff_accepts ht] at hab
    rw [catches_iff_accepts (acyclic_extended ht l')]
    exact accepts_extended hab l'

/-- The last class has the first one in it by the second of its bases. When the first base gets it
too, the search goes another way and comes to the same answer. -/
theorem catches_partial_order_redirected :
    let tag (n : Nat) : TypeTag := ⟨n + 1, Nat.succ_pos n⟩
    let l : List Declaration := [.declare "top", .declare "left", .declare "right",
      .declare "bottom", .addBase (tag 2) (tag 0) 8, .addBase (tag 3) (tag 1) 0,
      .addBase (tag 3) (tag 2) 16, .pointerTo (tag 0), .pointerTo (tag 3)]
    let t := empty.extended l
    empty.BasesDeclared l ∧ t.Catches (tag 0) (tag 3) ∧ ¬ t.Catches (tag 3) (tag 0) ∧
      ¬ t.Catches (tag 4) (tag 3) ∧ t.Catches (tag 4) (tag 5) ∧
      (t.extended [.addBase (tag 1) (tag 0) 32]).Catches (tag 0) (tag 3) := by
  intro tag l t
  have hl : empty.BasesDeclared l := by decide +kernel
  obtain ⟨hall, -, htrans, hantisymm, hkinds, hpointers, hgrow⟩ := catches_partial_order hl
  have hright : t.Catches (tag 0) (tag 2) := (hall _ _ Handle.null).1 (by decide +kernel)
  have hbottom : t.Catches (tag 2) (tag 3) := (hall _ _ Handle.null).1 (by decide +kernel)
  have hcatches := htrans _ _ _ hright hbottom
  -- both pointers are declared, so to ask for them changes nothing
  have hfirst : t.pointerTo (tag 0) = (tag 4, t) := by decide +kernel
  have hlast : t.pointerTo (tag 3) = (tag 5, t) := by decide +kernel
  refine ⟨hl, hcatches, fun hback => ?_, ?_, ?_, hgrow _ _ _ hcatches⟩
  · exact absurd (hantisymm _ _ hcatches hback) (by decide)
  · exact (hkinds (tag 4) (tag 3) (by decide +kernel) (by decide +kernel)).1
  · have hclasses := (hpointers (tag 0) (tag 3)).1 (by decide +kernel) (by decide +kernel)
    simp only [t, hfirst, hlast] at hclasses
    exact hclasses.2 hcatches

end Hierarchy

end ExceptionLifetime
