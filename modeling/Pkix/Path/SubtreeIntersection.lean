import Mathlib.Data.List.Perm.Subperm
import Pkix.Path.ConcreteCodec
import Pkix.Path.NameConstraintRules

/-! Which names the intersection of two permitted lists keeps. One constraint is held
against another by matching its base as if it were a name, and only for some shapes does
that see that one lies inside the other. -/

namespace Pkix.Path

/-- The constraint without a leading period. -/
def undotted (constraint : Bytes) : Bytes := (stripDot constraint).getD constraint

/-- The shapes for which matching one base against the other sees the nesting of two
subtrees that share a name. -/
def NestingSeen : GeneralName → GeneralName → Prop
  | .directoryName a, .directoryName b =>
      dnWithinSubtree a b = true ∨ dnWithinSubtree b a = true
  | .dnsName a, .dnsName b =>
      lower (undotted a.bytes) = lower (undotted b.bytes) →
        stripDot a.bytes = none ∧ stripDot b.bytes = none
  | .rfc822Name a, .rfc822Name b => atSign ∈ a.bytes ∨ atSign ∈ b.bytes
  | _, _ => False

/-- Two entries over the name whose nesting is seen. -/
def SeesNesting (current newPermitted : GeneralSubtrees) (name : GeneralName) : Prop :=
  ∃ old ∈ current, ∃ new ∈ newPermitted, nameMatchesSubtree name old = true ∧
    nameMatchesSubtree name new = true ∧ NestingSeen new.base old.base

def KeepsName (current newPermitted : GeneralSubtrees) (name : GeneralName) : Prop :=
  covers current name = true → covers newPermitted name = true →
    covers (intersectPermitted current newPermitted) name = true

section HostConstraints

theorem undotted_of_plain {constraint : Bytes} (plain : stripDot constraint = none) :
    undotted constraint = constraint := by
  rw [undotted, plain, Option.getD_none]

theorem undotted_of_dotted {constraint : Bytes} (dotted : stripDot constraint ≠ none) :
    constraint = dot :: undotted constraint := by
  cases stripped : stripDot constraint with
  | none => exact absurd stripped dotted
  | some rest =>
      rw [undotted, stripped, Option.getD_some]
      exact (stripDot_some_iff _ _).mp stripped

theorem lower_undotted_suffix (constraint : Bytes) :
    lower (undotted constraint) <:+ lower constraint := by
  by_cases plain : stripDot constraint = none
  · rw [undotted_of_plain plain]
  · conv_rhs => rw [undotted_of_dotted plain]
    exact List.suffix_cons _ _

theorem eq_of_suffix_length {ending ending' text : Bytes} (first : ending <:+ text)
    (second : ending' <:+ text) (lengths : ending.length = ending'.length) : ending = ending' :=
  (List.suffix_of_suffix_length_le first second lengths.le).eq_of_length lengths

theorem stripDot_dot_lower {a b : Bytes} (folded : lower a = dot :: lower b) :
    stripDot a ≠ none := by
  have same : lower a = lower (dot :: b) := by
    rw [folded, lower, lower, List.map_cons]
    rfl
  rw [Ne, stripDot_lower same]
  simp [stripDot]

/-- Between two constraints over one name, the lengths decide. -/
theorem matchesDnsName_base_iff {name a b : Bytes} (first : matchesDnsName name a = true)
    (second : matchesDnsName name b = true) :
    matchesDnsName a b = true ↔
      (stripDot b ≠ none ∧ b.length < a.length) ∨
        (stripDot b = none ∧
          (stripDot a = none ∧ b.length ≤ a.length ∨ b.length + 1 < a.length)) := by
  have endings := matchesDnsName_suffix first
  have held := (matchesDnsName_iff _ _).mp second
  have bEnding := (matchesDnsName_suffix second).1
  have inside (shorter : b.length ≤ a.length) : lower b <:+ lower a :=
    List.suffix_of_suffix_length_le bEnding endings.1 (by rwa [lower_length, lower_length])
  rw [matchesDnsName_iff]
  constructor
  · intro within
    rcases within.2 with ⟨dotted, longer, _⟩ | ⟨plain, same | ⟨longer, _⟩⟩
    · exact .inl ⟨dotted, longer⟩
    · have lengths := congrArg List.length same
      rw [lower_length, lower_length] at lengths
      exact .inr ⟨plain, .inl ⟨(stripDot_lower same).mpr plain, lengths.ge⟩⟩
    · exact .inr ⟨plain, .inr longer⟩
  · intro shape
    refine ⟨held.1, ?_⟩
    rcases shape with ⟨dotted, longer⟩ | ⟨plain, shape⟩
    · exact .inl ⟨dotted, longer, inside longer.le⟩
    · have shorter : b.length ≤ a.length := by omega
      by_cases equal : b.length = a.length
      · have same := eq_of_suffix_length endings.1 bEnding (by rw [lower_length, lower_length, equal])
        exact .inr ⟨plain, .inl same⟩
      · -- the name is longer than the constraint, so a period stands before it
        have boundary : dot :: lower b <:+ lower name := by
          rcases held.2 with ⟨dotted, _⟩ | ⟨_, same | ⟨_, added⟩⟩
          · exact absurd plain dotted
          · have lengths := congrArg List.length same
            rw [lower_length, lower_length] at lengths
            omega
          · exact added
        have nested : dot :: lower b <:+ lower a := by
          apply List.suffix_of_suffix_length_le boundary endings.1
          rw [List.length_cons, lower_length, lower_length]
          omega
        refine .inr ⟨plain, .inr ⟨?_, nested⟩⟩
        by_contra short
        have lengths : (dot :: lower b).length = (lower a).length := by
          rw [List.length_cons, lower_length, lower_length]
          omega
        have dotted := stripDot_dot_lower (nested.eq_of_length lengths).symm
        rcases shape with ⟨plain', _⟩ | longer
        · exact dotted plain'
        · exact short longer

theorem matchesDnsName_nested_iff {name a b : Bytes} (first : matchesDnsName name a = true)
    (second : matchesDnsName name b = true) :
    (matchesDnsName a b = true ∨ matchesDnsName b a = true) ↔
      (lower (undotted a) = lower (undotted b) → stripDot a = none ∧ stripDot b = none) := by
  have aEnding := (matchesDnsName_suffix first).1
  have bEnding := (matchesDnsName_suffix second).1
  have same_iff : lower (undotted a) = lower (undotted b) ↔
      (undotted a).length = (undotted b).length := by
    rw [← lower_length (undotted a), ← lower_length (undotted b)]
    constructor
    · exact congrArg List.length
    · exact eq_of_suffix_length ((lower_undotted_suffix a).trans aEnding)
        ((lower_undotted_suffix b).trans bEnding)
  have apart (lengths : a.length = b.length) : stripDot a = none ↔ stripDot b = none :=
    stripDot_lower (eq_of_suffix_length aEnding bEnding (by rwa [lower_length, lower_length]))
  have shorter {c : Bytes} (dotted : stripDot c ≠ none) : (undotted c).length + 1 = c.length := by
    conv_rhs => rw [undotted_of_dotted dotted]
    rfl
  rw [matchesDnsName_base_iff first second, matchesDnsName_base_iff second first, same_iff]
  by_cases plainA : stripDot a = none
  · rw [undotted_of_plain plainA]
    by_cases plainB : stripDot b = none
    · rw [undotted_of_plain plainB]
      simp only [plainA, plainB, ne_eq, not_true_eq_false, false_and, true_and, false_or,
        and_self, implies_true, iff_true]
      omega
    · have lengthB := shorter plainB
      have unequal : a.length ≠ b.length := fun lengths => plainB ((apart lengths).mp plainA)
      simp only [plainA, plainB, ne_eq, not_true_eq_false, not_false_eq_true, false_and, true_and,
        false_or, or_false, and_false, imp_false]
      omega
  · have lengthA := shorter plainA
    by_cases plainB : stripDot b = none
    · rw [undotted_of_plain plainB]
      have unequal : a.length ≠ b.length := fun lengths => plainA ((apart lengths).mpr plainB)
      simp only [plainA, plainB, ne_eq, not_true_eq_false, not_false_eq_true, false_and, true_and,
        false_or, or_false, false_and, imp_false]
      omega
    · have lengthB := shorter plainB
      simp only [plainA, plainB, ne_eq, not_false_eq_true, false_and, true_and, or_false,
        imp_false]
      omega

theorem matchesRfc822Name_nested_iff {name a b : Bytes} (first : matchesRfc822Name name a = true)
    (second : matchesRfc822Name name b = true) :
    (matchesRfc822Name a b = true ∨ matchesRfc822Name b a = true) ↔ atSign ∈ a ∨ atSign ∈ b := by
  constructor
  · exact Or.imp atSign_mem_of_matches atSign_mem_of_matches
  · intro mailbox
    rcases mailbox with holdsAt | holdsAt
    · rw [← matchesRfc822Name_lower b (lower_of_matches_mailbox holdsAt first)]
      exact .inl second
    · rw [← matchesRfc822Name_lower a (lower_of_matches_mailbox holdsAt second)]
      exact .inr first

end HostConstraints

section DirectoryNames

/-- No two attributes of the RDN match each other. -/
def DistinctAttributes (rdn : RelativeDistinguishedName) : Prop :=
  rdn.Pairwise (fun a b => avaMatches a b = false)

def avaKey (ava : AttributeTypeAndValue) : ObjectIdentifier × (Bytes ⊕ (Tag × Bytes)) :=
  (ava.oid, comparisonKey ava.value)

theorem avaMatches_iff_key (a b : AttributeTypeAndValue) :
    avaMatches a b = true ↔ avaKey a = avaKey b := by
  rw [avaMatches_iff, avaKey, avaKey, Prod.mk.injEq]

theorem rdnCovers_iff_keys (a b : RelativeDistinguishedName) :
    rdnCovers a b = true ↔ a.map avaKey ⊆ b.map avaKey := by
  rw [rdnCovers_iff]
  constructor
  · intro covered key present
    obtain ⟨left, inside, rfl⟩ := List.mem_map.mp present
    obtain ⟨right, within, matched⟩ := covered left inside
    rw [(avaMatches_iff_key left right).mp matched]
    exact List.mem_map_of_mem within
  · intro contained left present
    obtain ⟨right, within, same⟩ := List.mem_map.mp (contained (List.mem_map_of_mem present))
    exact ⟨right, within, (avaMatches_iff_key left right).mpr same.symm⟩

theorem nodup_keys {rdn : RelativeDistinguishedName} (distinct : DistinctAttributes rdn) :
    (rdn.map avaKey).Nodup := by
  rw [List.Nodup, List.pairwise_map]
  apply distinct.imp
  intro a b apart same
  rw [(avaMatches_iff_key a b).mpr same] at apart
  cases apart

/-- An RDN without repetitions that another one of its size covers covers it as well. -/
theorem rdnCovers_of_distinct {a b subject : RelativeDistinguishedName}
    (distinct : DistinctAttributes b) (sized : b.length = subject.length)
    (within : rdnCovers b subject = true) (within' : rdnCovers a subject = true) :
    rdnCovers a b = true := by
  rw [rdnCovers_iff_keys] at within within' ⊢
  have whole : (b.map avaKey).Perm (subject.map avaKey) := by
    apply (List.subperm_of_subset (nodup_keys distinct) within).perm_of_length_le
    rw [List.length_map, List.length_map, sized]
  exact fun key present => whole.symm.subset (within' present)

theorem dnWithinSubtree_nested {name a b : Name} (first : dnWithinSubtree name a = true)
    (second : dnWithinSubtree name b = true) (distinctA : ∀ rdn ∈ a, DistinctAttributes rdn)
    (distinctB : ∀ rdn ∈ b, DistinctAttributes rdn) :
    dnWithinSubtree a b = true ∨ dnWithinSubtree b a = true := by
  induction name generalizing a b with
  | nil =>
      cases a with
      | nil => simp [dnWithinSubtree]
      | cons rdn rest => simp [dnWithinSubtree] at first
  | cons nameRdn name ih =>
      cases a with
      | nil => simp [dnWithinSubtree]
      | cons aRdn a =>
          cases b with
          | nil => simp [dnWithinSubtree]
          | cons bRdn b =>
              rw [List.forall_mem_cons] at distinctA distinctB
              simp only [dnWithinSubtree, Bool.and_eq_true, beq_iff_eq] at first second ⊢
              have sized : bRdn.length = aRdn.length := second.1.1.trans first.1.1.symm
              have ab := rdnCovers_of_distinct distinctB.1 second.1.1 second.1.2 first.1.2
              have ba := rdnCovers_of_distinct distinctA.1 first.1.1 first.1.2 second.1.2
              rcases ih first.2 second.2 distinctA.2 distinctB.2 with within | within
              · exact .inl ⟨⟨sized, ba⟩, within⟩
              · exact .inr ⟨⟨sized.symm, ab⟩, within⟩

end DirectoryNames

section Intersection

variable {current newPermitted : GeneralSubtrees} {name : GeneralName}

/-- For each form: the code finds one of two subtrees over a name inside the other just for
the shapes listed. -/
theorem nested_iff {a b : GeneralSubtree} (first : nameMatchesSubtree name a = true)
    (second : nameMatchesSubtree name b = true) :
    (nameMatchesSubtree a.base b = true ∨ nameMatchesSubtree b.base a = true) ↔
      NestingSeen a.base b.base := by
  obtain ⟨aBase, _, _⟩ := a
  obtain ⟨bBase, _, _⟩ := b
  cases name <;> cases aBase <;>
    simp only [nameMatchesSubtree, Bool.false_eq_true] at first <;>
    cases bBase <;> simp only [nameMatchesSubtree, Bool.false_eq_true] at second
  · exact matchesRfc822Name_nested_iff first second
  · exact matchesDnsName_nested_iff first second
  · exact Iff.rfl
  · simp [nameMatchesSubtree, NestingSeen, matchesUri_not_nested first,
      matchesUri_not_nested second]
  · simp [nameMatchesSubtree, NestingSeen, matchesIpAddress_not_nested first,
      matchesIpAddress_not_nested second]

theorem mem_addCurrent_of_mem {result : GeneralSubtrees} {entry kept : GeneralSubtree}
    (present : kept ∈ result) : kept ∈ addCurrent newPermitted result entry := by
  unfold addCurrent
  split
  · exact List.mem_append_left _ present
  · split
    · split
      · exact present
      · exact List.mem_append_left _ present
    · exact present

theorem covers_addCurrent_of_within {result : GeneralSubtrees} {entry outer : GeneralSubtree}
    (member : outer ∈ newPermitted) (within : nameMatchesSubtree entry.base outer = true)
    (matched : nameMatchesSubtree name entry = true) :
    covers (addCurrent newPermitted result entry) name = true := by
  have added : covers (result ++ [entry]) name = true := by
    rw [covers_append]
    simp [covers, matched]
  unfold addCurrent
  split
  · exact added
  · have contained : (sameVariantIn newPermitted entry.base).any
        (nameMatchesSubtree entry.base) = true := by
      rw [sameVariantIn_any_eq]
      exact covers_iff.mpr ⟨outer, member, within⟩
    rw [if_pos contained]
    split
    · rename_i repeated
      obtain ⟨kept, present, equivalent⟩ := List.any_eq_true.mp repeated
      rw [equivalentSubtrees, Bool.and_eq_true] at equivalent
      exact covers_iff.mpr ⟨kept, present, nameMatchesSubtree_trans matched equivalent.2⟩
    · exact added

theorem mem_foldl_addCurrent_of_mem (pending : GeneralSubtrees) {result : GeneralSubtrees}
    {kept : GeneralSubtree} (present : kept ∈ result) :
    kept ∈ pending.foldl (addCurrent newPermitted) result := by
  induction pending generalizing result with
  | nil => exact present
  | cons head tail ih => exact ih (mem_addCurrent_of_mem present)

/-- The second loop: an entry found inside the other list has its names covered. -/
theorem covers_foldl_addCurrent (pending : GeneralSubtrees) {result : GeneralSubtrees}
    {entry outer : GeneralSubtree} (pended : entry ∈ pending) (member : outer ∈ newPermitted)
    (within : nameMatchesSubtree entry.base outer = true)
    (matched : nameMatchesSubtree name entry = true) :
    covers (pending.foldl (addCurrent newPermitted) result) name = true := by
  induction pending generalizing result with
  | nil => cases pended
  | cons head tail ih =>
      rw [List.foldl_cons]
      rcases List.mem_cons.mp pended with here | later
      · subst here
        obtain ⟨kept, present, covered⟩ :=
          covers_iff.mp (@covers_addCurrent_of_within _ _ result _ _ member within matched)
        exact covers_iff.mpr ⟨kept, mem_foldl_addCurrent_of_mem tail present, covered⟩
      · exact ih later

theorem covers_intersectPermitted_of_seen (seen : SeesNesting current newPermitted name) :
    covers (intersectPermitted current newPermitted) name = true := by
  obtain ⟨old, isOld, new, isNew, inOld, inNew, nesting⟩ := seen
  rcases (nested_iff inNew inOld).mpr nesting with within | within
  · have kept : new ∈ newPermitted.filter (keptAgainst current) :=
      List.mem_filter.mpr ⟨isNew, keptAgainst_iff.mpr (.inr (covers_iff.mpr ⟨old, isOld, within⟩))⟩
    exact covers_iff.mpr ⟨new, mem_foldl_addCurrent_of_mem current kept, inNew⟩
  · exact covers_foldl_addCurrent current isOld isNew within inOld

theorem within_of_keptAgainst {other : GeneralSubtrees} {entry : GeneralSubtree}
    (kept : keptAgainst other entry = true) (matched : nameMatchesSubtree name entry = true)
    (covered : covers other name = true) :
    ∃ outer ∈ other, nameMatchesSubtree entry.base outer = true := by
  rcases keptAgainst_iff.mp kept with fresh | within
  · rw [listsForm_base matched, listsForm_of_covers covered] at fresh
    cases fresh
  · exact covers_iff.mp within

theorem seesNesting_of_covers (inCurrent : covers current name = true)
    (inNew : covers newPermitted name = true)
    (covered : covers (intersectPermitted current newPermitted) name = true) :
    SeesNesting current newPermitted name := by
  obtain ⟨entry, member, matched⟩ := covers_iff.mp covered
  rcases mem_intersectPermitted member with ⟨new, kept⟩ | ⟨old, kept⟩
  · obtain ⟨outer, isOld, within⟩ := within_of_keptAgainst kept matched inCurrent
    have inOuter := nameMatchesSubtree_trans matched within
    exact ⟨outer, isOld, entry, new, inOuter, matched,
      (nested_iff matched inOuter).mp (.inl within)⟩
  · obtain ⟨outer, isNew, within⟩ := within_of_keptAgainst kept matched inNew
    have inOuter := nameMatchesSubtree_trans matched within
    exact ⟨entry, old, outer, isNew, matched, inOuter,
      (nested_iff inOuter matched).mp (.inr within)⟩

theorem keepsName_iff : KeepsName current newPermitted name ↔
    covers current name = false ∨ covers newPermitted name = false ∨
      SeesNesting current newPermitted name := by
  constructor
  · intro keeps
    by_cases inCurrent : covers current name = true
    · by_cases inNew : covers newPermitted name = true
      · exact .inr (.inr (seesNesting_of_covers inCurrent inNew (keeps inCurrent inNew)))
      · exact .inr (.inl (Bool.eq_false_iff.mpr inNew))
    · exact .inl (Bool.eq_false_iff.mpr inCurrent)
  · intro condition inCurrent inNew
    rcases condition with outside | outside | seen
    · rw [inCurrent] at outside
      cases outside
    · rw [inNew] at outside
      cases outside
    · exact covers_intersectPermitted_of_seen seen

def DistinctDirectoryNames (entries : GeneralSubtrees) : Prop :=
  ∀ entry ∈ entries, ∀ constraint, entry.base = .directoryName constraint →
    ∀ rdn ∈ constraint, DistinctAttributes rdn

/-- No directoryName is lost when no RDN of a constraint repeats an attribute. -/
theorem keepsName_directoryName {subject : Name} (distinct : DistinctDirectoryNames current)
    (distinct' : DistinctDirectoryNames newPermitted) :
    KeepsName current newPermitted (.directoryName subject) := by
  intro inCurrent inNew
  obtain ⟨old, isOld, inOld⟩ := covers_iff.mp inCurrent
  obtain ⟨new, isNew, within⟩ := covers_iff.mp inNew
  apply covers_intersectPermitted_of_seen
  refine ⟨old, isOld, new, isNew, inOld, within, ?_⟩
  cases oldBase : old.base <;> simp only [nameMatchesSubtree, oldBase, Bool.false_eq_true] at inOld
  cases newBase : new.base <;> simp only [nameMatchesSubtree, newBase, Bool.false_eq_true] at within
  exact dnWithinSubtree_nested within inOld (distinct' new isNew _ newBase)
    (distinct old isOld _ oldBase)

/-- A list held against itself covers nothing new. -/
theorem covers_of_intersect_self (covered : covers (intersectPermitted current current) name = true) :
    covers current name = true := by
  obtain ⟨entry, member, matched⟩ := covers_iff.mp covered
  rcases mem_intersectPermitted member with ⟨present, _⟩ | ⟨present, _⟩ <;>
    exact covers_iff.mpr ⟨entry, present, matched⟩

end Intersection

/-- The intersection keeps a name of both lists just when two entries over it have a shape
whose nesting is seen; so does a list held against itself. -/
theorem intersectPermitted_lossless_iff (current newPermitted : GeneralSubtrees)
    (name : GeneralName) :
    (KeepsName current newPermitted name ↔
        covers current name = false ∨ covers newPermitted name = false ∨
          SeesNesting current newPermitted name) ∧
      (covers (intersectPermitted current current) name = covers current name ↔
        covers current name = false ∨ SeesNesting current current name) := by
  refine ⟨keepsName_iff, ?_⟩
  have whole := @keepsName_iff current current name
  unfold KeepsName at whole
  rw [Bool.eq_iff_iff, iff_iff_implies_and_implies]
  have sound := @covers_of_intersect_self current name
  tauto

namespace Concrete

/-- The addresses 10.0.0.0/8. -/
def tenNetwork : GeneralSubtree := subtree (.ipAddress [10, 0, 0, 0, 255, 0, 0, 0])

def tenAddress : GeneralName := .ipAddress [10, 1, 2, 3]

/-- An address range held against itself: the one entry is dropped with all its names. -/
theorem ipRange_lost :
    intersectPermitted [tenNetwork] [tenNetwork] = [] ∧
      covers [tenNetwork] tenAddress = true ∧
      ¬ KeepsName [tenNetwork] [tenNetwork] tenAddress := by
  refine ⟨by decide +kernel, by decide +kernel, ?_⟩
  intro keeps
  have covered := keeps (by decide +kernel) (by decide +kernel)
  revert covered
  decide +kernel

end Concrete

end Pkix.Path
