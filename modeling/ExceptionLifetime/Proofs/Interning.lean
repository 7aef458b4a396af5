/-
Tags as names that last.

The tag of a type is the number of its declaration, and a declaration is never taken
back. So tags are given out once, in order, and what one stands for stays the same,
except that a class may get more bases.

Two calls ask for a type rather than declare one: there is one pointer to each type,
and one class for each type of the host program. They remember in different ways what
was asked for before. The pointer is looked for among the declared types, the class in
a list beside them. What both amount to is that the type is known under a tag, and this
is all that is said of them below. A call makes known what it asks for, under the tag it
is answered with, and makes nothing else known. If it was not known, the tag is the next
one, which nothing was known under. Hence a type is known under one tag and a tag belongs
to one type, however the calls are mixed.
-/
import ExceptionLifetime.Proofs.Catchability

set_option autoImplicit false

namespace ExceptionLifetime

namespace Declaration

/-- What a call declares, unless it is known already. -/
def entry? : Declaration → Option TypeEntry
  | .declare name => some ⟨name, .classType []⟩
  | .declareHost host => some ⟨host.name, .classType []⟩
  | .pointerTo pointee => some ⟨"*", .pointer pointee⟩
  | .addBase .. => none

/-- A call that asks for a type, which is declared on first use. -/
def Asks : Declaration → Prop
  | .declareHost _ | .pointerTo _ => True
  | .declare _ | .addBase .. => False

/-- A call declares a new type after these calls. -/
def IsNew (past : List Declaration) (d : Declaration) : Prop :=
  d.entry? ≠ none ∧ (d.Asks → d ∉ past)

end Declaration

namespace Hierarchy

variable {t t' : Hierarchy}

/-! ## Answers -/

/-- The tag that a call is answered with. -/
def answer? (t : Hierarchy) (d : Declaration) : Option TypeTag := (t.perform d).1.toOption.join

/-- The calls that are answered with a tag, each with its tag. -/
def answers (t : Hierarchy) : List Declaration → List (Declaration × TypeTag)
  | [] => []
  | d :: l => ((t.answer? d).map (d, ·)).toList ++ (t.perform d).2.answers l

/-- The tag of the type that a call adds. -/
def newTag? (t : Hierarchy) (d : Declaration) : Option TypeTag :=
  if (t.perform d).2.entries.size = t.entries.size then none else t.answer? d

/-- The tags of the types that these calls add, in order. -/
def newTags (t : Hierarchy) : List Declaration → List TypeTag
  | [] => []
  | d :: l => (t.newTag? d).toList ++ (t.perform d).2.newTags l

/-- What a call asks for is known under a tag. -/
def Known (t : Hierarchy) : Declaration → TypeTag → Prop
  | .declareHost host, type => t.hostType? host = some type
  | .pointerTo pointee, type => t.kind? type = some (.pointer pointee)
  | .declare _, _ | .addBase .., _ => False

/-- How a call is answered. -/
inductive Answered (t : Hierarchy) (d : Declaration) : Prop
  | known {type : TypeTag} (hknown : t.Known d type) (heq : t.perform d = (.ok (some type), t))
  | added {e : TypeEntry} (hentry : d.entry? = some e) (hunknown : ∀ type, ¬ t.Known d type)
      (hanswer : t.answer? d = some t.nextTag)
      (hentries : (t.perform d).2.entries = t.entries.push e)
  /-- A base was added or refused. -/
  | linked (hentry : d.entry? = none) (hanswer : t.answer? d = none)
      (hsize : (t.perform d).2.entries.size = t.entries.size)

/-- A base changes the entry of a class and nothing else. -/
theorem exists_of_addBase {derived base : TypeTag} {offset : Int64}
    (h : t.addBase derived base offset = .ok t') :
    ∃ i e, t' = { t with entries := t.entries.setIfInBounds i e } := by
  unfold addBase at h
  split at h
  · cases h
  · split at h
    · cases h
      exact ⟨_, _, rfl⟩
    · cases h

/-- A declaration finds its type again, or makes a new one, or makes none. Each of the four kinds is
one of these, and what follows is proved from the three. -/
theorem answered (t : Hierarchy) (d : Declaration) : t.Answered d := by
  cases d with
  | declare name => exact .added rfl (fun _ => id) rfl rfl
  | declareHost host =>
    cases hhost : t.hostType? host with
    | some type => exact .known hhost (by simp only [perform, declareHost, hhost])
    | none =>
      refine .added rfl (fun type hknown => ?_) ?_ ?_
      · rw [Known, hhost] at hknown
        cases hknown
      · simp only [answer?, perform, declareHost, hhost]
        rfl
      · simp only [perform, declareHost, hhost]
        rfl
  | pointerTo pointee =>
    rcases pointerTo_cases t pointee with ⟨p, hp, hsame⟩ | ⟨hnone, hpush⟩
    · exact .known hp (by rw [perform, hsame])
    · refine .added rfl hnone ?_ ?_
      · rw [answer?, perform, hpush]
        rfl
      · rw [perform, hpush]
        rfl
  | addBase derived base offset =>
    cases hadd : t.addBase derived base offset with
    | ok t' =>
      obtain ⟨i, e, rfl⟩ := exists_of_addBase hadd
      refine .linked rfl ?_ ?_
      · simp only [answer?, perform, hadd]
        rfl
      · simp only [perform, hadd, Array.size_setIfInBounds]
    | error e =>
      refine .linked rfl ?_ ?_
      · simp only [answer?, perform, hadd]
        rfl
      · simp only [perform, hadd]

theorem answer?_of_perform {d : Declaration} {type : TypeTag}
    (h : t.perform d = (.ok (some type), t')) : t.answer? d = some type := by
  rw [answer?, h]
  rfl

/-- An answer to some declarations is one to the first of them or one to the others, in the
hierarchy that the first leaves. -/
theorem mem_answers_cons {d c : Declaration} {type : TypeTag} {l : List Declaration} :
    (d, type) ∈ t.answers (c :: l) ↔
      c = d ∧ t.answer? c = some type ∨ (d, type) ∈ (t.perform c).2.answers l := by
  rw [answers, List.mem_append, Option.mem_toList]
  refine or_congr_left ?_
  cases t.answer? c <;> simp

/-- Who is answered has called, -/
theorem mem_of_mem_answers {d : Declaration} {type : TypeTag} {l : List Declaration}
    (h : (d, type) ∈ t.answers l) : d ∈ l := by
  induction l generalizing t with
  | nil => cases h
  | cons c l ih =>
    rcases mem_answers_cons.1 h with ⟨rfl, -⟩ | h
    · exact List.mem_cons_self
    · exact List.mem_cons_of_mem c (ih h)

/-- and who calls for a type is answered. -/
theorem exists_mem_answers {d : Declaration} (hentry : d.entry? ≠ none) {l : List Declaration}
    (hd : d ∈ l) : ∃ type, (d, type) ∈ t.answers l := by
  induction l generalizing t with
  | nil => cases hd
  | cons c l ih =>
    rcases List.mem_cons.1 hd with rfl | hd
    · cases t.answered d with
      | known hknown heq => exact ⟨_, mem_answers_cons.2 (.inl ⟨rfl, answer?_of_perform heq⟩)⟩
      | added _ _ hanswer _ => exact ⟨_, mem_answers_cons.2 (.inl ⟨rfl, hanswer⟩)⟩
      | linked hnone _ _ => exact absurd hnone hentry
    · obtain ⟨type, h⟩ := ih hd (t := (t.perform c).2)
      exact ⟨type, mem_answers_cons.2 (.inr h)⟩

/-! ## What is known -/

/-- A new entry is found under the next tag, and the others where they were. -/
theorem find?_of_entries {e : TypeEntry} (h : t'.entries = t.entries.push e) (type : TypeTag) :
    t'.find? type = if type = t.nextTag then some e else t.find? type := by
  rw [find?, h]
  exact find?_push t e type

theorem kind?_of_entries {e : TypeEntry} (h : t'.entries = t.entries.push e) (type : TypeTag) :
    t'.kind? type = if type = t.nextTag then some e.kind else t.kind? type := by
  rw [kind?, find?_of_entries h]
  split <;> rfl

/-- A pointer is there, or it is the answer to the call that asks for it. -/
theorem kind?_perform_iff (d : Declaration) (pointee type : TypeTag) :
    (t.perform d).2.kind? type = some (.pointer pointee) ↔
      t.kind? type = some (.pointer pointee) ∨
        d = .pointerTo pointee ∧ t.answer? d = some type := by
  constructor
  · intro hafter
    rcases (grows_perform t d).pointer_before hafter with hbefore | ⟨hnext, -⟩
    · exact .inl hbefore
    · subst hnext
      cases t.answered d with
      | known _ heq =>
        rw [heq] at hafter
        exact .inl hafter
      | added hentry _ hanswer hentries =>
        rw [kind?_of_entries hentries, if_pos rfl, Option.some.injEq] at hafter
        cases d with
        | pointerTo p =>
          cases hentry
          cases hafter
          exact .inr ⟨rfl, hanswer⟩
        | declare name =>
          cases hentry
          cases hafter
        | declareHost host =>
          cases hentry
          cases hafter
        | addBase => cases hentry
      | linked _ _ hsize =>
        -- there is nothing under the next tag yet
        obtain ⟨e, he, -⟩ := Option.map_eq_some_iff.1 hafter
        have hlt := (Array.getElem?_eq_some_iff.1 he).1
        simp only [nextTag, Nat.add_sub_cancel] at hlt
        omega
  · rintro (hbefore | ⟨rfl, hanswer⟩)
    · exact (grows_perform t d).pointer hbefore
    · have htag : (t.pointerTo pointee).1 = type := Option.some.inj hanswer
      rw [← htag]
      exact kind?_pointerTo t pointee

/-- Only a type of the host program is kept as one. -/
theorem hostTypes_perform {d : Declaration} (hd : ∀ host, d ≠ .declareHost host) :
    (t.perform d).2.hostTypes = t.hostTypes := by
  cases d with
  | declare name => rfl
  | declareHost host => exact absurd rfl (hd host)
  | pointerTo pointee =>
    rcases pointerTo_cases t pointee with ⟨p, -, hsame⟩ | ⟨-, hpush⟩
    · rw [perform, hsame]
    · rw [perform, hpush]
      rfl
  | addBase derived base offset =>
    cases hadd : t.addBase derived base offset with
    | ok t' =>
      obtain ⟨i, e, rfl⟩ := exists_of_addBase hadd
      simp only [perform, hadd]
    | error e => simp only [perform, hadd]

/-- A class for a type of the host program is there, or it is the answer to the call that asks for
it. -/
theorem hostType?_perform_iff (d : Declaration) (host : HostType) (type : TypeTag) :
    (t.perform d).2.hostType? host = some type ↔
      t.hostType? host = some type ∨ d = .declareHost host ∧ t.answer? d = some type := by
  by_cases hd : ∃ host', d = .declareHost host'
  · obtain ⟨host', rfl⟩ := hd
    cases hhost : t.hostType? host' with
    | some type' =>
      have heq : t.perform (.declareHost host') = (.ok (some type'), t) := by
        simp only [perform, declareHost, hhost]
      rw [heq, answer?_of_perform heq, Option.some.injEq, Declaration.declareHost.injEq]
      refine (or_iff_left_of_imp ?_).symm
      rintro ⟨rfl, rfl⟩
      exact hhost
    | none =>
      -- the new class is put in front, where the look-up finds it first
      have hanswer : t.answer? (.declareHost host') = some t.nextTag := by
        simp only [answer?, perform, declareHost, hhost]
        rfl
      have hafter : (t.perform (.declareHost host')).2.hostTypes =
          (host', t.nextTag) :: t.hostTypes := by
        simp only [perform, declareHost, hhost]
        rfl
      rw [hanswer, hostType?, hafter, List.lookup_cons, Declaration.declareHost.injEq]
      by_cases heq : host = host'
      · subst heq
        simp [hhost]
      · have hne : (host == host') = false := beq_false_of_ne heq
        simp [hne, Ne.symm heq, hostType?]
  · have hsame : (t.perform d).2.hostType? host = t.hostType? host := by
      rw [hostType?, hostTypes_perform fun host' h => hd ⟨host', h⟩]
      rfl
    rw [hsame]
    exact (or_iff_left fun h => hd ⟨host, h.1⟩).symm

/-- A call makes known what it asks for, under the tag of its answer, and nothing else. -/
theorem known_perform_iff (c d : Declaration) (type : TypeTag) :
    (t.perform c).2.Known d type ↔
      t.Known d type ∨ d.Asks ∧ c = d ∧ t.answer? c = some type := by
  cases d with
  | declareHost host => simpa [Known, Declaration.Asks] using hostType?_perform_iff c host type
  | pointerTo pointee => simpa [Known, Declaration.Asks] using kind?_perform_iff c pointee type
  | declare name => simp [Known, Declaration.Asks]
  | addBase derived base offset => simp [Known, Declaration.Asks]

/-- Later on a declaration is known under a tag if it was, or if it asks for a type and was answered
with that tag. -/
theorem known_extended_iff (l : List Declaration) (d : Declaration) (type : TypeTag) :
    (t.extended l).Known d type ↔ t.Known d type ∨ d.Asks ∧ (d, type) ∈ t.answers l := by
  induction l generalizing t with
  | nil => simp [extended, answers]
  | cons c l ih =>
    rw [extended, ih, known_perform_iff, mem_answers_cons, or_assoc, ← and_or_left]

theorem not_known_empty (d : Declaration) (type : TypeTag) : ¬ empty.Known d type := by
  cases d with
  | declareHost host => simp [Known, hostType?, empty]
  | pointerTo pointee => simp [Known, kind?, find?, empty]
  | declare name => exact id
  | addBase derived base offset => exact id

/-- What is known is known under one tag, which is declared and under which nothing else is
known. -/
structure KnownOnce (t : Hierarchy) : Prop where
  declared : ∀ {d type}, t.Known d type → t.IsDeclared type
  one_tag : ∀ {d type type'}, t.Known d type → t.Known d type' → type = type'
  one_call : ∀ {d d' type}, t.Known d type → t.Known d' type → d = d'

theorem knownOnce_empty : empty.KnownOnce where
  declared h := absurd h (not_known_empty _ _)
  one_tag h := absurd h (not_known_empty _ _)
  one_call h := absurd h (not_known_empty _ _)

/-- The next tag is that of no type. -/
theorem not_isDeclared_nextTag (t : Hierarchy) : ¬ t.IsDeclared t.nextTag := by
  rintro ⟨kind, hkind⟩
  rw [kind?, find?_nextTag] at hkind
  cases hkind

/-- Nothing is known under two tags, and nothing else under the same: what is known already is found
again, and what is new is known under a tag that was free. -/
theorem KnownOnce.perform (ht : t.KnownOnce) (c : Declaration) : (t.perform c).2.KnownOnce := by
  cases t.answered c with
  | known _ heq =>
    rw [heq]
    exact ht
  | linked _ hanswer _ =>
    -- a base that is added makes nothing known
    have hsame : ∀ d type, (t.perform c).2.Known d type → t.Known d type := by
      intro d type h
      simpa [hanswer] using (known_perform_iff c d type).1 h
    exact ⟨fun h => (grows_perform t c).isDeclared (ht.declared (hsame _ _ h)),
      fun h h' => ht.one_tag (hsame _ _ h) (hsame _ _ h'),
      fun h h' => ht.one_call (hsame _ _ h) (hsame _ _ h')⟩
  | added hentry hunknown hanswer hentries =>
    -- what is new is known under the next tag, under which nothing was
    have hcases : ∀ d type, (t.perform c).2.Known d type →
        t.Known d type ∨ d = c ∧ type = t.nextTag := by
      intro d type h
      rcases (known_perform_iff c d type).1 h with hold | ⟨-, rfl, htag⟩
      · exact .inl hold
      · rw [hanswer, Option.some.injEq] at htag
        exact .inr ⟨rfl, htag.symm⟩
    have hnext : ∀ d, ¬ t.Known d t.nextTag := fun d h =>
      t.not_isDeclared_nextTag (ht.declared h)
    refine ⟨fun h => ?_, fun h h' => ?_, fun h h' => ?_⟩
    · rcases hcases _ _ h with hold | ⟨-, rfl⟩
      · exact (grows_perform t c).isDeclared (ht.declared hold)
      · exact ⟨_, by rw [kind?_of_entries hentries, if_pos rfl]⟩
    · rcases hcases _ _ h with hold | ⟨rfl, rfl⟩
      · rcases hcases _ _ h' with hold' | ⟨rfl, -⟩
        · exact ht.one_tag hold hold'
        · exact absurd hold (hunknown _)
      · rcases hcases _ _ h' with hold' | ⟨-, rfl⟩
        · exact absurd hold' (hunknown _)
        · rfl
    · rcases hcases _ _ h with hold | ⟨rfl, rfl⟩
      · rcases hcases _ _ h' with hold' | ⟨-, rfl⟩
        · exact ht.one_call hold hold'
        · exact absurd hold (hnext _)
      · rcases hcases _ _ h' with hold' | ⟨rfl, -⟩
        · exact absurd hold' (hnext _)
        · rfl

/-- One tag for each type that is asked for, after any declarations. -/
theorem KnownOnce.extended (ht : t.KnownOnce) (l : List Declaration) :
    (t.extended l).KnownOnce := by
  induction l generalizing t with
  | nil => exact ht
  | cons d l ih => exact ih (ht.perform d)

/-- Two calls that ask for a type are answered with one tag exactly if they ask for the same
type. -/
theorem eq_iff_of_mem_answers {l : List Declaration} {c d : Declaration} {a b : TypeTag}
    (ha : (c, a) ∈ empty.answers l) (hb : (d, b) ∈ empty.answers l) (hc : c.Asks)
    (hd : d.Asks) : a = b ↔ c = d := by
  have hone := knownOnce_empty.extended l
  have hknown : (empty.extended l).Known c a := (known_extended_iff l c a).2 (.inr ⟨hc, ha⟩)
  have hknown' : (empty.extended l).Known d b := (known_extended_iff l d b).2 (.inr ⟨hd, hb⟩)
  constructor
  · rintro rfl
    exact hone.one_call hknown hknown'
  · rintro rfl
    exact hone.one_tag hknown hknown'

/-! ## New tags -/

/-- A call that declares adds a type under the next tag if it asks for nothing that is known. -/
theorem newTag?_eq_some_iff {d : Declaration} {type : TypeTag} :
    t.newTag? d = some type ↔
      d.entry? ≠ none ∧ (∀ type, ¬ t.Known d type) ∧ type = t.nextTag := by
  unfold newTag?
  cases t.answered d with
  | known hknown heq =>
    rw [heq, if_pos rfl]
    exact iff_of_false (by simp) fun h => h.2.1 _ hknown
  | added hentry hunknown hanswer hentries =>
    rw [hentries, if_neg (by simp), hanswer, Option.some.injEq, eq_comm]
    exact ⟨fun h => ⟨by simp [hentry], hunknown, h⟩, fun h => h.2.2⟩
  | linked hentry hanswer hsize =>
    rw [if_pos hsize]
    exact iff_of_false (by simp) fun h => h.1 hentry

/-- What is added under a new tag is what the call declares. -/
theorem find?_newTag {d : Declaration} {type : TypeTag} (h : t.newTag? d = some type) :
    (t.perform d).2.find? type = d.entry? := by
  obtain ⟨hentry, hunknown, rfl⟩ := newTag?_eq_some_iff.1 h
  cases t.answered d with
  | known hknown heq => exact absurd hknown (hunknown _)
  | added hadded _ _ hentries => rw [find?_of_entries hentries, if_pos rfl, hadded]
  | linked hnone _ _ => exact absurd hnone hentry

/-- There is one entry more for a new tag, and none otherwise. -/
theorem size_perform (t : Hierarchy) (d : Declaration) :
    (t.perform d).2.entries.size = t.entries.size + (t.newTag? d).toList.length := by
  unfold newTag?
  cases t.answered d with
  | known _ heq => simp [heq]
  | added _ _ hanswer hentries => simp [hentries, hanswer]
  | linked _ _ hsize => simp [hsize]

theorem size_extended (t : Hierarchy) (l : List Declaration) :
    (t.extended l).entries.size = t.entries.size + (t.newTags l).length := by
  induction l generalizing t with
  | nil => rfl
  | cons d l ih => rw [extended, ih, size_perform, newTags, List.length_append, Nat.add_assoc]

/-- New tags follow those that there are, without gaps. -/
theorem raw_newTags (t : Hierarchy) (l : List Declaration) :
    (t.newTags l).map TypeTag.raw = List.range' (t.entries.size + 1) (t.newTags l).length := by
  induction l generalizing t with
  | nil => rfl
  | cons d l ih =>
    have hsize := size_perform t d
    rw [newTags, List.map_append, ih, hsize]
    cases hnew : t.newTag? d with
    | none => rfl
    | some type =>
      obtain ⟨-, -, rfl⟩ := newTag?_eq_some_iff.1 hnew
      simp [nextTag, List.range'_succ]

/-- The declared tags are those up to the number of entries. -/
theorem isDeclared_iff_raw_le {type : TypeTag} :
    t.IsDeclared type ↔ type.raw ≤ t.entries.size := by
  have hpos := type.raw_pos
  unfold IsDeclared kind? find?
  constructor
  · rintro ⟨kind, hkind⟩
    obtain ⟨e, he, -⟩ := Option.map_eq_some_iff.1 hkind
    have hlt := (Array.getElem?_eq_some_iff.1 he).1
    omega
  · intro hle
    have hlt : type.raw - 1 < t.entries.size := by omega
    rw [Array.getElem?_eq_getElem hlt]
    exact ⟨_, rfl⟩

/-- The new tags are the numbers from one on, without a gap. -/
theorem raw_newTags_empty (l : List Declaration) :
    (empty.newTags l).map TypeTag.raw = List.range' 1 (empty.extended l).entries.size := by
  have hnone : empty.entries.size = 0 := rfl
  rw [raw_newTags, size_extended, hnone, Nat.zero_add, Nat.zero_add]

/-- The types that are declared are those that were added. -/
theorem isDeclared_extended_iff {l : List Declaration} {type : TypeTag} :
    (empty.extended l).IsDeclared type ↔ type ∈ empty.newTags l := by
  have hmem : type ∈ empty.newTags l ↔ type.raw ∈ (empty.newTags l).map TypeTag.raw :=
    (List.mem_map_of_injective fun _ _ h => TypeTag.ext_raw h).symm
  have hpos := type.raw_pos
  rw [isDeclared_iff_raw_le, hmem, raw_newTags_empty, List.mem_range'_1]
  omega

theorem isDeclared_extended {type : TypeTag} (hdecl : t.IsDeclared type) (l : List Declaration) :
    (t.extended l).IsDeclared type := by
  induction l generalizing t with
  | nil => exact hdecl
  | cons d l ih => exact ih ((grows_perform t d).isDeclared hdecl)

/-- An answer is the tag of a declared type. -/
theorem isDeclared_of_answer? (ht : t.KnownOnce) {d : Declaration} {type : TypeTag}
    (h : t.answer? d = some type) : (t.perform d).2.IsDeclared type := by
  cases t.answered d with
  | known hknown heq =>
    rw [answer?_of_perform heq, Option.some.injEq] at h
    subst h
    rw [heq]
    exact ht.declared hknown
  | added _ _ hanswer hentries =>
    rw [hanswer, Option.some.injEq] at h
    exact ⟨_, by rw [kind?_of_entries hentries, if_pos h.symm]⟩
  | linked _ hanswer _ =>
    rw [hanswer] at h
    cases h

/-- Every answer is the tag of a declared type. -/
theorem isDeclared_of_mem_answers (ht : t.KnownOnce) {d : Declaration} {type : TypeTag}
    {l : List Declaration} (h : (d, type) ∈ t.answers l) : (t.extended l).IsDeclared type := by
  induction l generalizing t with
  | nil => cases h
  | cons c l ih =>
    rcases mem_answers_cons.1 h with ⟨rfl, hanswer⟩ | h
    · exact isDeclared_extended (isDeclared_of_answer? ht hanswer) l
    · exact ih (ht.perform c) h

/-! ## What a tag stands for -/

/-- A declared type keeps its name, and whether it is a pointer. -/
theorem Grows.name_and_isPointer (hg : t.Grows t') {type : TypeTag} (hdecl : t.IsDeclared type) :
    t'.name? type = t.name? type ∧ t'.isPointer type = t.isPointer type := by
  have hnext : type ≠ t.nextTag := by
    rintro rfl
    exact t.not_isDeclared_nextTag hdecl
  have hsame (h : t'.find? type = t.find? type) :
      t'.name? type = t.name? type ∧ t'.isPointer type = t.isPointer type := by
    simp only [name?, isPointer, kind?, h, and_self]
  cases hg with
  | same h => exact hsame (h type)
  | newClass name h => exact hsame ((h type).trans (if_neg hnext))
  | newPointer pointee _ h => exact hsame ((h type).trans (if_neg hnext))
  | newBase derived name bases base hold h =>
    by_cases heq : type = derived
    · subst heq
      simp [name?, isPointer, kind?, h, hold]
    · exact hsame ((h type).trans (if_neg heq))

/-- A type keeps its name, and whether it is a pointer, whatever is declared later. -/
theorem name_and_isPointer_extended {type : TypeTag} (hdecl : t.IsDeclared type)
    (l : List Declaration) :
    (t.extended l).name? type = t.name? type ∧
      (t.extended l).isPointer type = t.isPointer type := by
  induction l generalizing t with
  | nil => exact ⟨rfl, rfl⟩
  | cons d l ih =>
    have hg := grows_perform t d
    obtain ⟨hname, hpointer⟩ := hg.name_and_isPointer hdecl
    obtain ⟨hname', hpointer'⟩ := ih (hg.isDeclared hdecl)
    exact ⟨hname'.trans hname, hpointer'.trans hpointer⟩

/-- The tag of a type of the host program is the answer that was given when it was declared. -/
theorem hostType?_extended_iff {l : List Declaration} {host : HostType} {type : TypeTag} :
    (empty.extended l).hostType? host = some type ↔
      (.declareHost host, type) ∈ empty.answers l := by
  have hknown := known_extended_iff (t := empty) l (.declareHost host) type
  rw [or_iff_right (not_known_empty _ _)] at hknown
  simpa [Known, Declaration.Asks] using hknown

/-- A declaration is known if it asks for a type and was made. -/
theorem exists_known_iff {l : List Declaration} {d : Declaration} (hentry : d.entry? ≠ none) :
    (∃ type, (empty.extended l).Known d type) ↔ d.Asks ∧ d ∈ l := by
  constructor
  · rintro ⟨type, hknown⟩
    -- it was not known at the beginning, so it was answered on the way
    rcases (known_extended_iff l d type).1 hknown with hknown | ⟨hasks, hmem⟩
    · exact absurd hknown (not_known_empty d type)
    · exact ⟨hasks, mem_of_mem_answers hmem⟩
  · rintro ⟨hasks, hd⟩
    obtain ⟨type, hmem⟩ := exists_mem_answers hentry hd (t := empty)
    exact ⟨type, (known_extended_iff l d type).2 (.inr ⟨hasks, hmem⟩)⟩

/-- Tags are interned and stable, whatever calls build a hierarchy, refused ones among them.

New types get the tags one, two, three and so on. A call adds a type exactly if it declares one
and does not ask for what was asked for before; the type that it adds is the one that it declares.
Every call for a type is answered, with a tag that was given to a type. At any two moments, the
pointers to two types are the same tag exactly if the types are the same, and so are the classes
for two types of the host program. The class of a type of the host program is the one that the
call for it was answered with, and there is none before the first such call. And what is declared
keeps its name, and goes on being a pointer or not, whatever is called afterwards. -/
theorem tags_interned (l : List Declaration) :
    let t := empty.extended l
    (empty.newTags l).map TypeTag.raw = List.range' 1 t.entries.size ∧
    (∀ type, t.IsDeclared type ↔ type ∈ empty.newTags l) ∧
    (∀ d type, t.newTag? d = some type ↔ d.IsNew l ∧ type.raw = t.entries.size + 1) ∧
    (∀ d type, t.newTag? d = some type → (t.perform d).2.find? type = d.entry?) ∧
    (∀ d ∈ l, d.entry? ≠ none → ∃ type, (d, type) ∈ empty.answers l) ∧
    (∀ d type, (d, type) ∈ empty.answers l → type ∈ empty.newTags l) ∧
    (∀ p q a b, (.pointerTo p, a) ∈ empty.answers l → (.pointerTo q, b) ∈ empty.answers l →
      (a = b ↔ p = q)) ∧
    (∀ x y a b, (.declareHost x, a) ∈ empty.answers l → (.declareHost y, b) ∈ empty.answers l →
      (a = b ↔ x = y)) ∧
    (∀ host,
      (∀ type, t.hostType? host = some type ↔ (.declareHost host, type) ∈ empty.answers l) ∧
      (t.hostType? host = none ↔ .declareHost host ∉ l)) ∧
    ∀ l' type, t.IsDeclared type →
      (t.extended l').name? type = t.name? type ∧
        (t.extended l').isPointer type = t.isPointer type := by
  intro t
  refine ⟨raw_newTags_empty l, fun type => isDeclared_extended_iff, fun d type => ?_,
    fun d type => find?_newTag, fun d hd hentry => exists_mem_answers hentry hd,
    fun d type hmem => isDeclared_extended_iff.1 (isDeclared_of_mem_answers knownOnce_empty hmem),
    fun p q a b ha hb => ?_, fun x y a b ha hb => ?_,
    fun host => ⟨fun type => hostType?_extended_iff, ?_⟩,
    fun l' type hdecl => name_and_isPointer_extended hdecl l'⟩
  · -- the next tag is one more than the number of types
    have hraw : type = t.nextTag ↔ type.raw = t.entries.size + 1 :=
      ⟨fun h => h ▸ rfl, fun h => TypeTag.ext_raw h⟩
    rw [newTag?_eq_some_iff, hraw, ← and_assoc]
    refine and_congr_left' (and_congr_right fun hentry => ?_)
    rw [← not_exists, exists_known_iff hentry, not_and]
  · rw [eq_iff_of_mem_answers ha hb trivial trivial, Declaration.pointerTo.injEq]
  · rw [eq_iff_of_mem_answers ha hb trivial trivial, Declaration.declareHost.injEq]
  · have hasked := exists_known_iff (l := l) (d := .declareHost host)
      (by simp [Declaration.entry?])
    rw [and_iff_right (show (Declaration.declareHost host).Asks from trivial)] at hasked
    rw [← hasked, not_exists]
    exact Option.eq_none_iff_forall_ne_some

/-- A pointer to what is not declared yet, two types of one name, and each asked for again. -/
example :
    let p : TypeTag := ⟨3, by decide⟩
    let l : List Declaration := [.pointerTo p, .declareHost "Error", .declareHost ⟨"Error", 1⟩,
      .addBase p p 0, .declareHost "Error", .declare "Error", .pointerTo p]
    (empty.answers l).map (·.2.raw) = [1, 2, 3, 2, 4, 1] := by decide +kernel

end Hierarchy

end ExceptionLifetime
