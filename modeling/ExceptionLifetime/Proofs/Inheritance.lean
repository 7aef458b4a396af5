/-
Classes and their bases, as a graph.

A base is named by its tag, and nobody asks whether there is a type of that tag:
the base may be declared later, as a class with bases of its own, or never. So the
graph has the tags for nodes, declared or not, and an edge from a class to each of
its bases. Only declared classes have edges of their own.

A new base is refused if the search finds the derived class in it. That the search
comes to an end rests on the graph having no circle, and that the graph has none
rests on the search. The way out is that a search is judged by the hierarchy as it
is before the base is added. There a path of bases runs through declared classes
that are all different, up to its last tag, so that no search goes deeper than one
level below their number. Hence it is never cut off, what it misses cannot be
reached, and the new edge closes no circle.
-/
import ExceptionLifetime.Hierarchy.Declaration
import Mathlib.Data.List.Nodup
import Mathlib.Data.List.Perm.Subperm
import Mathlib.Logic.Relation

set_option autoImplicit false

namespace ExceptionLifetime

open Relation

/-! ## The first answer of several -/

namespace Search

variable {answer : Base → Search} {bases : List Base}

/-- An answer that is found is that of one of the bases. -/
theorem exists_of_firstOf_eq_found {offset : Int64} (h : firstOf answer bases = found offset) :
    ∃ b ∈ bases, answer b = found offset := by
  induction bases with
  | nil => cases h
  | cons b bases ih =>
    unfold firstOf at h
    split at h
    · obtain ⟨b', hb', hanswer⟩ := ih h
      exact ⟨b', List.mem_cons_of_mem b hb', hanswer⟩
    next hanswer =>
      cases h
      exact ⟨b, List.mem_cons_self, hanswer⟩
    · cases h

/-- Nothing is found if no base finds anything. -/
theorem firstOf_eq_absent_iff :
    firstOf answer bases = absent ↔ ∀ b ∈ bases, answer b = absent := by
  induction bases with
  | nil => simp [firstOf]
  | cons b bases ih =>
    cases hb : answer b <;> simp [firstOf, hb, ih]

/-- A search of several bases is cut off only where the search of one of them is. -/
theorem firstOf_ne_cutOff (h : ∀ b ∈ bases, answer b ≠ cutOff) :
    firstOf answer bases ≠ cutOff := by
  induction bases with
  | nil => simp [firstOf]
  | cons b bases ih =>
    obtain ⟨hb, hrest⟩ := List.forall_mem_cons.1 h
    cases hanswer : answer b with
    | found offset => simp [firstOf, hanswer]
    | absent => simpa [firstOf, hanswer] using ih hrest
    | cutOff => exact absurd hanswer hb

/-- Where the base starts has nothing to do with whether it is found. -/
theorem within_eq_absent_iff {offset : Int64} {s : Search} :
    s.within offset = absent ↔ s = absent := by
  cases s <;> simp [within]

theorem within_ne_cutOff {offset : Int64} {s : Search} (h : s ≠ cutOff) :
    s.within offset ≠ cutOff := by
  cases s <;> simp_all [within]

/-- What is found in a base is found at the start of the base, and further on by what the base says.
-/
theorem exists_of_within_eq_found {offset total : Int64} {s : Search}
    (h : s.within offset = found total) : ∃ rest, s = found rest ∧ offset + rest = total := by
  cases s with
  | found rest => exact ⟨rest, rfl, by simpa [within] using h⟩
  | absent => cases h
  | cutOff => cases h

end Search

namespace Hierarchy

variable {t : Hierarchy}

/-! ## The graph -/

/-- A class has a base. -/
def HasBase (t : Hierarchy) (derived base : TypeTag) : Prop :=
  ∃ b ∈ t.basesOf derived, b.type = base

/-- A tag is declared as a class. -/
def IsClass (t : Hierarchy) (type : TypeTag) : Prop :=
  ∃ bases, t.kind? type = some (.classType bases)

/-- No type is, by one base or more, a base of itself. -/
def Acyclic (t : Hierarchy) : Prop := ∀ type, ¬ TransGen t.HasBase type type

/-- Only declared classes have bases. -/
theorem isClass_of_hasBase {derived base : TypeTag} (h : t.HasBase derived base) :
    t.IsClass derived := by
  obtain ⟨b, hb, -⟩ := h
  unfold basesOf at hb
  split at hb
  next bases hkind => exact ⟨bases, hkind⟩
  · cases hb

/-- The tag of a declared class is the number of an entry. That bounds how many classes there are on
a path. -/
theorem raw_le_of_isClass {type : TypeTag} (h : t.IsClass type) : type.raw ≤ t.entries.size := by
  obtain ⟨bases, hkind⟩ := h
  obtain ⟨e, he, -⟩ := Option.map_eq_some_iff.1 hkind
  have hlt := (Array.getElem?_eq_some_iff.1 he).1
  have hpos := type.raw_pos
  omega

/-- There are not more classes than declared types. -/
theorem length_le_of_classes {chain : List TypeTag} (hnodup : chain.Nodup)
    (hclass : ∀ a ∈ chain, t.IsClass a) : chain.length ≤ t.entries.size := by
  have hraw : (chain.map TypeTag.raw).Nodup := hnodup.map fun _ _ h => TypeTag.ext_raw h
  have hsub : chain.map TypeTag.raw ⊆ List.range' 1 t.entries.size := by
    intro n hn
    obtain ⟨a, ha, rfl⟩ := List.mem_map.1 hn
    have hle := raw_le_of_isClass (hclass a ha)
    have hpos := a.raw_pos
    exact List.mem_range'_1.2 ⟨hpos, by omega⟩
  simpa using (hraw.subperm hsub).length_le

/-! ## Searching without a limit -/

mutual

/-- The search for `target` in an object of type `type`, carried out without any limit, comes to
an end with this answer, and its calls are nested so many levels deep. -/
inductive Explores (t : Hierarchy) (target : TypeTag) : TypeTag → Nat → Option Int64 → Prop
  | here : Explores t target target 1 (some 0)
  | deeper {type : TypeTag} {depth : Nat} {answer : Option Int64} (hne : type ≠ target)
      (hbases : ExploresBases t target (t.basesOf type) depth answer) :
      Explores t target type (depth + 1) answer

/-- The search goes through bases in order, up to the first one that contains `target`. -/
inductive ExploresBases (t : Hierarchy) (target : TypeTag) : List Base → Nat → Option Int64 → Prop
  | none : ExploresBases t target [] 0 none
  | found {b : Base} {bases : List Base} {depth : Nat} {rest : Int64}
      (h : Explores t target b.type depth (some rest)) :
      ExploresBases t target (b :: bases) depth (some (b.offset + rest))
  | next {b : Base} {bases : List Base} {depth depth' : Nat} {answer : Option Int64}
      (h : Explores t target b.type depth none)
      (hrest : ExploresBases t target bases depth' answer) :
      ExploresBases t target (b :: bases) (max depth depth') answer

end

/-- A search of several bases that is not cut off is an exploration of them, if that of each is one.
It goes as deep as the deepest of those that were searched. -/
theorem exploresBases_of_firstOf {target : TypeTag} {depth : Nat} {bases : List Base}
    (hsearch : ∀ b ∈ bases, t.search target depth b.type ≠ .cutOff →
      ∃ n ≤ depth, t.Explores target b.type n (t.search target depth b.type).offset?)
    (hend : Search.firstOf (fun b => (t.search target depth b.type).within b.offset) bases ≠
      .cutOff) :
    ∃ n ≤ depth, t.ExploresBases target bases n
      (Search.firstOf (fun b => (t.search target depth b.type).within b.offset) bases).offset? := by
  induction bases with
  | nil => exact ⟨0, Nat.zero_le depth, .none⟩
  | cons b bases ih =>
    obtain ⟨hb, hrest⟩ := List.forall_mem_cons.1 hsearch
    unfold Search.firstOf at hend ⊢
    cases hs : t.search target depth b.type with
    | found offset =>
      -- the bases that follow are not looked at
      obtain ⟨n, hn, hfound⟩ := hb (by simp [hs])
      rw [hs] at hfound
      exact ⟨n, hn, .found hfound⟩
    | absent =>
      simp only [hs, Search.within] at hend
      obtain ⟨n, hn, habsent⟩ := hb (by simp [hs])
      obtain ⟨m, hm, hafter⟩ := ih hrest hend
      rw [hs] at habsent
      exact ⟨max n m, Nat.max_le.2 ⟨hn, hm⟩, .next habsent hafter⟩
    | cutOff => simp [hs, Search.within] at hend

/-- A search that is not cut off does what the search without a limit does. -/
theorem explores_of_search {target : TypeTag} {depth : Nat} {type : TypeTag}
    (h : t.search target depth type ≠ .cutOff) :
    ∃ n ≤ depth, t.Explores target type n (t.search target depth type).offset? := by
  induction depth generalizing type with
  | zero => exact absurd rfl h
  | succ depth ih =>
    unfold search at h ⊢
    split
    next heq =>
      subst heq
      exact ⟨1, by omega, .here⟩
    next hne =>
      rw [if_neg hne] at h
      obtain ⟨n, hn, hbases⟩ := exploresBases_of_firstOf (fun b _ => ih) h
      exact ⟨n + 1, by omega, .deeper hne hbases⟩

/-! ## What the search finds -/

/-- Above the search lies a chain of classes, each of which leads on to the type that is looked
into. In a graph without circles the chain stays shorter than the number of types. -/
theorem search_ne_cutOff (ht : t.Acyclic) (target : TypeTag) {depth : Nat} {type : TypeTag}
    {chain : List TypeTag} (hnodup : chain.Nodup) (hclass : ∀ a ∈ chain, t.IsClass a)
    (hleads : ∀ a ∈ chain, TransGen t.HasBase a type)
    (hlen : t.entries.size < chain.length + depth) : t.search target depth type ≠ .cutOff := by
  induction depth generalizing type chain with
  | zero =>
    have hle := length_le_of_classes hnodup hclass
    omega
  | succ depth ih =>
    unfold search
    split
    · exact Search.noConfusion
    · refine Search.firstOf_ne_cutOff fun b hb => Search.within_ne_cutOff ?_
      have hbase : t.HasBase type b.type := ⟨b, hb, rfl⟩
      -- the type itself joins the chain
      have hnew : type ∉ chain := fun hmem => ht type (hleads type hmem)
      refine ih (List.nodup_cons.2 ⟨hnew, hnodup⟩)
        (List.forall_mem_cons.2 ⟨isClass_of_hasBase hbase, hclass⟩)
        (List.forall_mem_cons.2 ⟨.single hbase, fun a ha => (hleads a ha).tail hbase⟩) ?_
      rw [List.length_cons]
      omega

/-- What a search finds can be reached, whatever its limit. -/
theorem reaches_of_search {target : TypeTag} {depth : Nat} {type : TypeTag} {offset : Int64}
    (h : t.search target depth type = .found offset) : ReflTransGen t.HasBase type target := by
  induction depth generalizing type offset with
  | zero => cases h
  | succ depth ih =>
    unfold search at h
    split at h
    next heq => exact heq ▸ .refl
    · obtain ⟨b, hb, hanswer⟩ := Search.exists_of_firstOf_eq_found h
      obtain ⟨rest, hrest, -⟩ := Search.exists_of_within_eq_found hanswer
      exact .head ⟨b, hb, rfl⟩ (ih hrest)

/-- What a search does not find cannot be reached, provided that it was not cut off. -/
theorem not_reaches_of_search {target : TypeTag} {depth : Nat} {type : TypeTag}
    (h : t.search target depth type = .absent) : ¬ ReflTransGen t.HasBase type target := by
  induction depth generalizing type with
  | zero => cases h
  | succ depth ih =>
    unfold search at h
    split at h
    · cases h
    next hne =>
      -- a path begins with one of the bases, and each of them was searched to its end
      intro hreach
      rcases hreach.cases_head with heq | ⟨base, ⟨b, hb, rfl⟩, hrest⟩
      · exact hne heq
      · exact ih (Search.within_eq_absent_iff.1 (Search.firstOf_eq_absent_iff.1 h b hb)) hrest

/-- A whole search is never cut off. -/
theorem upcast_ne_cutOff (ht : t.Acyclic) (type target : TypeTag) :
    t.search target (t.entries.size + 1) type ≠ .cutOff :=
  search_ne_cutOff ht target List.nodup_nil (fun _ h => absurd h List.not_mem_nil)
    (fun _ h => absurd h List.not_mem_nil) (by simp)

/-- The search finds a subobject exactly if the type leads to its class. -/
theorem isSome_upcast?_iff (ht : t.Acyclic) {type target : TypeTag} :
    (t.upcast? type target).isSome = true ↔ ReflTransGen t.HasBase type target := by
  have hend := upcast_ne_cutOff ht type target
  unfold upcast?
  cases hs : t.search target (t.entries.size + 1) type with
  | found offset => simp [Search.offset?, reaches_of_search hs]
  | absent => simp [Search.offset?, not_reaches_of_search hs]
  | cutOff => exact absurd hs hend

/-! ## What a declaration changes -/

/-- A new type without bases leaves the bases of all types alone. -/
theorem basesOf_push {e : TypeEntry} (he : ∀ b bases, e.kind ≠ .classType (b :: bases))
    (type : TypeTag) : (t.push e).2.basesOf type = t.basesOf type := by
  unfold basesOf kind?
  rw [find?_push]
  by_cases heq : type = t.nextTag
  · have hnone : t.find? type = none := by simp [heq, find?, nextTag]
    rw [if_pos heq, hnone]
    cases hkind : e.kind with
    | pointer pointee => simp [hkind]
    | classType bases =>
      cases bases with
      | nil => simp [hkind]
      | cons b bases => exact absurd hkind (he b bases)
  · rw [if_neg heq]

/-- A new type has no bases, and the others have those they had. -/
theorem basesOf_declare (name : String) (type : TypeTag) :
    (t.declare name).2.basesOf type = t.basesOf type :=
  basesOf_push (fun _ _ => by simp) type

theorem basesOf_declareHost (host : HostType) (type : TypeTag) :
    (t.declareHost host).2.basesOf type = t.basesOf type := by
  unfold declareHost
  split
  · rfl
  · exact basesOf_declare host.name type

theorem basesOf_pointerTo (pointee type : TypeTag) :
    (t.pointerTo pointee).2.basesOf type = t.basesOf type := by
  unfold pointerTo
  split
  · rfl
  · exact basesOf_push (fun _ _ => by simp) type

/-- A base is accepted for a class that it does not contain, and becomes the last of its bases. -/
theorem addBase_eq_ok {t' : Hierarchy} {derived base : TypeTag} {offset : Int64}
    (h : t.addBase derived base offset = .ok t') :
    t.upcast? base derived = none ∧ ∃ name bases,
      t.find? derived = some ⟨name, .classType bases⟩ ∧
      ∀ type, t'.find? type =
        if type = derived then some ⟨name, .classType (bases ++ [⟨base, offset⟩])⟩
        else t.find? type := by
  unfold addBase at h
  split at h
  · cases h
  next hnone =>
    refine ⟨by simpa using hnone, ?_⟩
    split at h
    next name bases hfind =>
      cases h
      refine ⟨name, bases, hfind, fun type => ?_⟩
      have hlt := (Array.getElem?_eq_some_iff.1 hfind).1
      -- tags count from one, positions from zero
      have hiff : derived.raw - 1 = type.raw - 1 ↔ type = derived := by
        have hpos := type.raw_pos
        have hpos' := derived.raw_pos
        exact ⟨fun heq => TypeTag.ext_raw (by omega), fun heq => by rw [heq]⟩
      simp only [find?, Array.getElem?_setIfInBounds, hlt, hiff, if_true]
    · cases h

/-- A new base is the last one of its class, and the bases of other classes stay. -/
theorem basesOf_addBase {t' : Hierarchy} {derived base : TypeTag} {offset : Int64}
    (h : t.addBase derived base offset = .ok t') (type : TypeTag) :
    t'.basesOf type =
      if type = derived then t.basesOf derived ++ [⟨base, offset⟩] else t.basesOf type := by
  obtain ⟨-, name, bases, hfind, hafter⟩ := addBase_eq_ok h
  unfold basesOf kind?
  rw [hafter]
  by_cases heq : type = derived <;> simp [heq, hfind]

/-- A new base is one new edge of the graph. -/
theorem hasBase_addBase {t' : Hierarchy} {derived base : TypeTag} {offset : Int64}
    (h : t.addBase derived base offset = .ok t') (a b : TypeTag) :
    t'.HasBase a b ↔ t.HasBase a b ∨ (a = derived ∧ b = base) := by
  unfold HasBase
  rw [basesOf_addBase h]
  by_cases ha : a = derived
  · simp [ha, or_and_right, exists_or, eq_comm]
  · simp [ha]

theorem isClass_iff {type : TypeTag} :
    t.IsClass type ↔ ∃ name bases, t.find? type = some ⟨name, .classType bases⟩ := by
  constructor
  · rintro ⟨bases, hkind⟩
    obtain ⟨⟨name, kind⟩, hfind, rfl⟩ := Option.map_eq_some_iff.1 hkind
    exact ⟨name, bases, hfind⟩
  · rintro ⟨name, bases, hfind⟩
    exact ⟨bases, by rw [kind?, hfind]; rfl⟩

/-- A base is refused if it contains the derived class, -/
theorem addBase_eq_circular_iff (ht : t.Acyclic) {derived base : TypeTag} {offset : Int64} :
    t.addBase derived base offset = .error (.circular base derived) ↔
      ReflTransGen t.HasBase base derived := by
  rw [← isSome_upcast?_iff ht]
  unfold addBase
  by_cases hsome : (t.upcast? base derived).isSome = true
  · simp [hsome]
  · rw [if_neg hsome]
    split <;> simp [hsome]

/-- and, failing that, if there is no such class. -/
theorem addBase_eq_notAClass_iff (ht : t.Acyclic) {derived base : TypeTag} {offset : Int64} :
    t.addBase derived base offset = .error (.notAClass derived) ↔
      ¬ ReflTransGen t.HasBase base derived ∧ ¬ t.IsClass derived := by
  rw [← isSome_upcast?_iff ht, isClass_iff]
  unfold addBase
  by_cases hsome : (t.upcast? base derived).isSome = true
  · simp [hsome]
  · rw [if_neg hsome]
    split
    next name bases hfind => simp [hfind]
    next hnone =>
      have hnot : ¬ ∃ name bases, t.find? derived = some ⟨name, .classType bases⟩ :=
        fun ⟨name, bases, hfind⟩ => hnone name bases hfind
      simp [hsome, hnot]

/-- A base is refused for a tag that is no class, for the class itself, and for a class that the
base derives from; otherwise it is accepted. -/
theorem exists_addBase_eq_error_iff (ht : t.Acyclic) {derived base : TypeTag} {offset : Int64} :
    (∃ e, t.addBase derived base offset = .error e) ↔
      ¬ t.IsClass derived ∨ base = derived ∨ TransGen t.HasBase base derived := by
  rw [← reflTransGen_iff_eq_or_transGen.trans (or_congr_left eq_comm)]
  constructor
  · rintro ⟨e, he⟩
    by_cases hreach : ReflTransGen t.HasBase base derived
    · exact .inr hreach
    · refine .inl fun hclass => ?_
      obtain ⟨name, bases, hfind⟩ := isClass_iff.1 hclass
      rw [← isSome_upcast?_iff ht] at hreach
      simp [addBase, hreach, hfind] at he
  · intro h
    by_cases hreach : ReflTransGen t.HasBase base derived
    · exact ⟨_, (addBase_eq_circular_iff ht).2 hreach⟩
    · exact ⟨_, (addBase_eq_notAClass_iff ht).2 ⟨hreach, h.resolve_right hreach⟩⟩

/-! ## Building a hierarchy -/

/-- The derived class and its base, if that is what a call adds. -/
def link? (t : Hierarchy) : Declaration → Option (TypeTag × TypeTag)
  | .addBase derived base offset =>
    match t.addBase derived base offset with
    | .ok _ => some (derived, base)
    | .error _ => none
  | _ => none

/-- The pairs of a derived class and its base that these calls add. -/
def links (t : Hierarchy) : List Declaration → List (TypeTag × TypeTag)
  | [] => []
  | d :: l => (t.link? d).toList ++ (t.perform d).2.links l

/-- What a declaration does to the graph: it adds the edge it asks for, if it is not refused. -/
theorem hasBase_perform (d : Declaration) (a b : TypeTag) :
    (t.perform d).2.HasBase a b ↔ t.HasBase a b ∨ t.link? d = some (a, b) := by
  cases d with
  | declare name => simp [perform, link?, HasBase, basesOf_declare]
  | declareHost name => simp [perform, link?, HasBase, basesOf_declareHost]
  | pointerTo pointee => simp [perform, link?, HasBase, basesOf_pointerTo]
  | addBase derived base offset =>
    cases hadd : t.addBase derived base offset with
    | error e => simp [perform, link?, hadd]
    | ok t' => simp [perform, link?, hadd, hasBase_addBase hadd, eq_comm]

/-- What is added was not found in the base before. -/
theorem upcast?_of_link? {d : Declaration} {derived base : TypeTag}
    (h : t.link? d = some (derived, base)) : t.upcast? base derived = none := by
  cases d with
  | addBase derived' base' offset =>
    cases hadd : t.addBase derived' base' offset with
    | error e => simp [link?, hadd] at h
    | ok t' =>
      have hpair : derived' = derived ∧ base' = base := by simpa [link?, hadd] using h
      obtain ⟨rfl, rfl⟩ := hpair
      exact (addBase_eq_ok hadd).1
  | declare name => cases h
  | declareHost name => cases h
  | pointerTo pointee => cases h

/-- The graph has the edges that were added, and no others. -/
theorem hasBase_extended (l : List Declaration) (a b : TypeTag) :
    (t.extended l).HasBase a b ↔ t.HasBase a b ∨ (a, b) ∈ t.links l := by
  induction l generalizing t with
  | nil => simp [extended, links]
  | cons d l ih =>
    rw [extended, links, ih, hasBase_perform, List.mem_append, Option.mem_toList, or_assoc]

/-- A path in a graph with one more edge is a path without it, or comes to the edge and goes on
from it. -/
theorem transGen_of_edge {r r' : TypeTag → TypeTag → Prop} {a b : TypeTag}
    (hr : ∀ x y, r' x y → r x y ∨ (x = a ∧ y = b)) {x y : TypeTag} (h : TransGen r' x y) :
    TransGen r x y ∨ (ReflTransGen r x a ∧ ReflTransGen r b y) := by
  induction h with
  | single hxy =>
    rcases hr _ _ hxy with hxy | ⟨rfl, rfl⟩
    · exact .inl (.single hxy)
    · exact .inr ⟨.refl, .refl⟩
  | tail _ hyz ih =>
    rcases hr _ _ hyz with hyz | ⟨rfl, rfl⟩
    · exact ih.imp (fun hxy => hxy.tail hyz) fun ⟨hxa, hby⟩ => ⟨hxa, hby.tail hyz⟩
    · exact .inr ⟨ih.elim TransGen.to_reflTransGen And.left, .refl⟩

/-- No call closes a circle. -/
theorem Acyclic.perform (ht : t.Acyclic) (d : Declaration) : (t.perform d).2.Acyclic := by
  intro type hcircle
  cases hlink : t.link? d with
  | none =>
    have hedge : ∀ a b, (t.perform d).2.HasBase a b → t.HasBase a b := by
      intro a b hab
      simpa [hlink] using (hasBase_perform d a b).1 hab
    exact ht type (TransGen.mono hedge type type hcircle)
  | some link =>
    obtain ⟨derived, base⟩ := link
    have hedge : ∀ a b, (t.perform d).2.HasBase a b →
        t.HasBase a b ∨ (a = derived ∧ b = base) := by
      intro a b hab
      simpa [hlink, eq_comm] using (hasBase_perform d a b).1 hab
    -- the base was searched for the derived class before it was added
    have hreach : ¬ ReflTransGen t.HasBase base derived := by
      rw [← isSome_upcast?_iff ht, upcast?_of_link? hlink]
      exact Bool.false_ne_true
    rcases transGen_of_edge hedge hcircle with hold | ⟨hto, hfrom⟩
    · exact ht type hold
    · exact hreach (hfrom.trans hto)

theorem not_hasBase_empty (derived base : TypeTag) : ¬ empty.HasBase derived base := by
  rintro ⟨b, hb, -⟩
  simp [basesOf, kind?, find?, empty] at hb

/-- Without edges there is no circle. -/
theorem acyclic_empty : empty.Acyclic := by
  intro type hcircle
  obtain ⟨base, hbase, -⟩ := TransGen.head'_iff.1 hcircle
  exact not_hasBase_empty type base hbase

/-- No circle is closed by any declarations, since each of them closes none. -/
theorem acyclic_extended (ht : t.Acyclic) (l : List Declaration) : (t.extended l).Acyclic := by
  induction l generalizing t with
  | nil => exact ht
  | cons d l ih => exact ih (ht.perform d)

/-- Bases and the search for them, in a hierarchy that was built by any calls, refused ones among
them. The bases that its classes have are those that were added, and the graph of them has no
circle. The search for a base, carried out without any limit, comes to an end for every two tags
with the answer of `upcast?`, and its calls are nested no deeper than one level below the number of
types. A new base is refused exactly if the derived type is no class, is the base itself, or is
reached from it; and a call that is refused leaves the hierarchy as it is. -/
theorem bases_acyclic (l : List Declaration) :
    let t := empty.extended l
    (∀ derived base, t.HasBase derived base ↔ (derived, base) ∈ empty.links l) ∧
    (∀ type, ¬ TransGen t.HasBase type type) ∧
    (∀ type target, ∃ depth ≤ t.entries.size + 1,
      t.Explores target type depth (t.upcast? type target)) ∧
    (∀ derived base offset, (∃ e, t.addBase derived base offset = .error e) ↔
      ¬ t.IsClass derived ∨ base = derived ∨ TransGen t.HasBase base derived) ∧
    ∀ d e, (t.perform d).1 = .error e → (t.perform d).2 = t := by
  intro t
  have ht : t.Acyclic := acyclic_extended acyclic_empty l
  refine ⟨fun derived base => ?_, ht, fun type target => ?_, fun derived base offset => ?_,
    fun d e he => ?_⟩
  · rw [hasBase_extended, or_iff_right (not_hasBase_empty derived base)]
  · -- without a circle the limit is never met, so the search is the one without limit
    exact explores_of_search (upcast_ne_cutOff ht type target)
  · exact exists_addBase_eq_error_iff ht
  · cases d with
    | addBase derived base offset =>
      cases hadd : t.addBase derived base offset with
      | error e' => simp [perform, hadd]
      | ok t' => simp [perform, hadd] at he
    | declare name => cases he
    | declareHost name => cases he
    | pointerTo pointee => cases he

end Hierarchy

end ExceptionLifetime
