import Pkix.Path.WalkTracks

/-! What the running lists say about a name: which names each list covers, how one
extension changes that, and which lists a certificate is checked against. -/

namespace Pkix.Path

def covers (entries : GeneralSubtrees) (name : GeneralName) : Bool :=
  entries.any (nameMatchesSubtree name)

/-- The list has an entry of the form of the name. -/
def listsForm (entries : GeneralSubtrees) (name : GeneralName) : Bool :=
  entries.any (fun entry => sameNcVariant entry.base name)

def NameConstraints.permitted (nc : NameConstraints) : GeneralSubtrees :=
  nc.permittedSubtrees.getD []

def NameConstraints.excluded (nc : NameConstraints) : GeneralSubtrees :=
  nc.excludedSubtrees.getD []

section Lists

theorem covers_iff {entries : GeneralSubtrees} {name : GeneralName} :
    covers entries name = true ↔ ∃ entry ∈ entries, nameMatchesSubtree name entry = true :=
  List.any_eq_true

theorem listsForm_iff {entries : GeneralSubtrees} {name : GeneralName} :
    listsForm entries name = true ↔ ∃ entry ∈ entries, sameNcVariant entry.base name = true :=
  List.any_eq_true

theorem covers_append (first second : GeneralSubtrees) (name : GeneralName) :
    covers (first ++ second) name = (covers first name || covers second name) :=
  List.any_append

theorem sameNcVariant_iff {a b : GeneralName} :
    sameNcVariant a b = true ↔ nameTypeBit a = nameTypeBit b ∧ Processed b := by
  unfold sameNcVariant Processed
  rw [Bool.and_eq_true, bne_iff_ne, beq_iff_eq]
  constructor
  · intro same
    exact ⟨same.2, same.2 ▸ same.1⟩
  · intro same
    exact ⟨same.1 ▸ same.2, same.1⟩

theorem sameNcVariant_comm (a b : GeneralName) : sameNcVariant a b = sameNcVariant b a := by
  rw [Bool.eq_iff_iff, sameNcVariant_iff, sameNcVariant_iff]
  unfold Processed
  constructor <;> intro same <;> exact ⟨same.1.symm, same.1 ▸ same.2⟩

theorem sameNcVariant_trans {a b c : GeneralName} (first : sameNcVariant a b = true)
    (second : sameNcVariant b c = true) : sameNcVariant a c = true := by
  rw [sameNcVariant_iff] at first second ⊢
  exact ⟨first.1.trans second.1, second.2⟩

theorem sameNcVariant_of_matches {name : GeneralName} {entry : GeneralSubtree}
    (matched : nameMatchesSubtree name entry = true) :
    sameNcVariant entry.base name = true := by
  have variant := nameMatchesSubtree_variant matched
  exact sameNcVariant_iff.mpr ⟨variant.1.symm, variant.2⟩

theorem listsForm_of_covers {entries : GeneralSubtrees} {name : GeneralName}
    (covered : covers entries name = true) : listsForm entries name = true := by
  obtain ⟨entry, member, matched⟩ := covers_iff.mp covered
  exact listsForm_iff.mpr ⟨entry, member, sameNcVariant_of_matches matched⟩

/-- Dropping an entry equivalent to one already listed loses no excluded name. -/
theorem covers_addExcluded (excluded : GeneralSubtrees) (entry : GeneralSubtree)
    (name : GeneralName) :
    covers (addExcluded excluded entry) name =
      (covers excluded name || nameMatchesSubtree name entry) := by
  unfold addExcluded
  by_cases present : excluded.any (fun existing => equivalentSubtrees existing entry) = true
  · rw [if_pos present]
    obtain ⟨existing, member, equivalent⟩ := List.any_eq_true.mp present
    have contained : nameMatchesSubtree name entry = true → covers excluded name = true := by
      intro matched
      have inside : nameMatchesSubtree entry.base existing = true := by
        rw [equivalentSubtrees, Bool.and_eq_true] at equivalent
        exact equivalent.2
      exact covers_iff.mpr ⟨existing, member, nameMatchesSubtree_trans matched inside⟩
    cases matched : nameMatchesSubtree name entry with
    | false => rw [Bool.or_false]
    | true => rw [contained matched, Bool.true_or]
  · rw [if_neg present, covers_append]
    simp [covers]

theorem covers_foldl_addExcluded (excluded entries : GeneralSubtrees) (name : GeneralName) :
    covers (entries.foldl addExcluded excluded) name =
      (covers excluded name || covers entries name) := by
  induction entries generalizing excluded with
  | nil => simp [covers]
  | cons entry entries ih =>
      rw [List.foldl_cons, ih, covers_addExcluded, Bool.or_assoc]
      rfl

theorem mem_addCurrent {newPermitted result : GeneralSubtrees} {entry member : GeneralSubtree}
    (present : member ∈ addCurrent newPermitted result entry) :
    member ∈ result ∨ (member = entry ∧ keptAgainst newPermitted entry = true) := by
  unfold addCurrent at present
  unfold keptAgainst
  split at present
  · rename_i fresh
    rcases List.mem_append.mp present with old | new
    · exact .inl old
    · exact .inr ⟨List.mem_singleton.mp new, by rw [fresh, Bool.true_or]⟩
  · split at present
    · rename_i inside
      split at present
      · exact .inl present
      · rcases List.mem_append.mp present with old | new
        · exact .inl old
        · exact .inr ⟨List.mem_singleton.mp new, by rw [inside, Bool.or_true]⟩
    · exact .inl present

/-- An entry of the intersection comes from one list and was kept against the other. -/
theorem mem_intersectPermitted {current newPermitted : GeneralSubtrees} {entry : GeneralSubtree}
    (present : entry ∈ intersectPermitted current newPermitted) :
    (entry ∈ newPermitted ∧ keptAgainst current entry = true) ∨
      (entry ∈ current ∧ keptAgainst newPermitted entry = true) := by
  suffices general : ∀ pending result : GeneralSubtrees,
      entry ∈ pending.foldl (addCurrent newPermitted) result →
      entry ∈ result ∨ (entry ∈ pending ∧ keptAgainst newPermitted entry = true) by
    rcases general _ _ present with kept | added
    · exact .inl (List.mem_filter.mp kept)
    · exact .inr added
  intro pending
  induction pending with
  | nil => exact fun result kept => .inl kept
  | cons head tail ih =>
      intro result kept
      rcases ih _ kept with before | ⟨later, allowed⟩
      · rcases mem_addCurrent before with old | ⟨rfl, allowed⟩
        · exact .inl old
        · exact .inr ⟨List.mem_cons_self, allowed⟩
      · exact .inr ⟨List.mem_cons_of_mem _ later, allowed⟩

/-- The filter by form takes no containing entry away. -/
theorem sameVariantIn_any_eq {other : GeneralSubtrees} {name : GeneralName} :
    (sameVariantIn other name).any (nameMatchesSubtree name) = covers other name := by
  rw [Bool.eq_iff_iff, covers_iff, List.any_eq_true]
  apply exists_congr
  intro outer
  rw [sameVariantIn, List.mem_filter]
  constructor
  · exact fun found => ⟨found.1.1, found.2⟩
  · exact fun found => ⟨⟨found.1, sameNcVariant_of_matches found.2⟩, found.2⟩

/-- An entry is kept when the other list has no entry of its form or one that contains it. -/
theorem keptAgainst_iff {other : GeneralSubtrees} {entry : GeneralSubtree} :
    keptAgainst other entry = true ↔
      listsForm other entry.base = false ∨ covers other entry.base = true := by
  have fresh : (sameVariantIn other entry.base).isEmpty = true ↔
      listsForm other entry.base = false := by
    rw [← Bool.not_eq_true, listsForm, List.any_eq_true, List.isEmpty_iff, sameVariantIn,
      List.filter_eq_nil_iff]
    simp
  rw [keptAgainst, Bool.or_eq_true, sameVariantIn_any_eq, fresh]

theorem listsForm_base {other : GeneralSubtrees} {entry : GeneralSubtree} {name : GeneralName}
    (matched : nameMatchesSubtree name entry = true) :
    listsForm other entry.base = listsForm other name := by
  have same := sameNcVariant_of_matches matched
  rw [Bool.eq_iff_iff, listsForm_iff, listsForm_iff]
  constructor <;> intro found <;> obtain ⟨sibling, member, variant⟩ := found
  · exact ⟨sibling, member, sameNcVariant_trans variant same⟩
  · exact ⟨sibling, member, sameNcVariant_trans variant ((sameNcVariant_comm _ _).trans same)⟩

/-- A name inside a kept entry is inside the other list, unless that list has no
entry of its form. -/
theorem covers_of_keptAgainst {other : GeneralSubtrees} {entry : GeneralSubtree}
    {name : GeneralName} (kept : keptAgainst other entry = true)
    (matched : nameMatchesSubtree name entry = true) :
    covers other name = true ∨ listsForm other name = false := by
  rcases keptAgainst_iff.mp kept with fresh | within
  · right
    rw [← listsForm_base matched]
    exact fresh
  · obtain ⟨outer, member, contains⟩ := covers_iff.mp within
    exact .inl (covers_iff.mpr ⟨outer, member, nameMatchesSubtree_trans matched contains⟩)

/-- The intersection is sound: it covers a name only if both lists do, except that
a list without an entry of the name's form has no say. -/
theorem covers_intersectPermitted {current newPermitted : GeneralSubtrees} {name : GeneralName}
    (covered : covers (intersectPermitted current newPermitted) name = true) :
    (covers current name = true ∨ listsForm current name = false) ∧
      (covers newPermitted name = true ∨ listsForm newPermitted name = false) := by
  obtain ⟨entry, member, matched⟩ := covers_iff.mp covered
  rcases mem_intersectPermitted member with ⟨new, kept⟩ | ⟨old, kept⟩
  · exact ⟨covers_of_keptAgainst kept matched, .inl (covers_iff.mpr ⟨entry, new, matched⟩)⟩
  · exact ⟨.inl (covers_iff.mpr ⟨entry, old, matched⟩), covers_of_keptAgainst kept matched⟩

theorem listsForm_intersectPermitted {current newPermitted : GeneralSubtrees}
    {name : GeneralName} (listed : listsForm (intersectPermitted current newPermitted) name = true) :
    listsForm current name = true ∨ listsForm newPermitted name = true := by
  obtain ⟨entry, member, variant⟩ := listsForm_iff.mp listed
  rcases mem_intersectPermitted member with ⟨new, _⟩ | ⟨old, _⟩
  · exact .inr (listsForm_iff.mpr ⟨entry, new, variant⟩)
  · exact .inl (listsForm_iff.mpr ⟨entry, old, variant⟩)

theorem intersects_union (a b types : NcTypeMask) :
    (a.union b).intersects types = (a.intersects types || b.intersects types) := by
  have split (x y : BitVec 32) : (x ||| y != 0#32) = (x != 0#32 || y != 0#32) := by
    rw [Bool.eq_iff_iff, Bool.or_eq_true, bne_iff_ne, bne_iff_ne, bne_iff_ne, ne_eq,
      BitVec.or_eq_zero_iff]
    tauto
  calc
    (a.union b).intersects types =
        ((a.bits &&& types.bits) ||| (b.bits &&& types.bits) != 0#32) := by
      rw [← BitVec.and_or_distrib_right]
      rfl
    _ = _ := split _ _

theorem nameTypeBit_intersects (a b : GeneralName) :
    (nameTypeBit a).intersects (nameTypeBit b) = sameNcVariant a b := by
  cases a <;> cases b <;> simp only [sameNcVariant, nameTypeBit] <;> decide

theorem constrainTypes_intersects (types : NcTypeMask) (entries : GeneralSubtrees)
    (name : GeneralName) :
    (constrainTypes types entries).intersects (nameTypeBit name) =
      (types.intersects (nameTypeBit name) || listsForm entries name) := by
  induction entries generalizing types with
  | nil => simp [constrainTypes, listsForm]
  | cons entry entries ih =>
      have step : constrainTypes types (entry :: entries) =
          constrainTypes (types.union (nameTypeBit entry.base)) entries := rfl
      rw [step, ih, intersects_union, nameTypeBit_intersects, Bool.or_assoc]
      rfl

end Lists

section Checks

variable {der : DerCodec} {subject : Name} {san : Option SubjectAltName}

/-- The subject, unless it is empty, and the SAN entries. -/
def presentedNames (subject : Name) (san : Option SubjectAltName) : List GeneralName :=
  (if subject.isEmpty then [] else [.directoryName subject]) ++ san.getD []

theorem dnMatchesAny_eq (subject : Name) (subtrees : GeneralSubtrees) :
    dnMatchesAny subject subtrees = covers subtrees (.directoryName subject) := by
  unfold dnMatchesAny covers
  congr 1
  funext subtree
  obtain ⟨base, _, _⟩ := subtree
  cases base <;> rfl

theorem checkNames_ok_iff {subtrees : GeneralSubtrees} {mode : CheckMode} {types : NcTypeMask}
    {index : Nat} :
    checkNames subject san subtrees mode types index = .ok () ↔
      ∀ name ∈ presentedNames subject san, sanEntryViolates subtrees mode types name = false := by
  have subjectChecked : checkSubjectDnAgainstSubtrees subject subtrees mode types index = .ok () ↔
      (subject.isEmpty = false →
        sanEntryViolates subtrees mode types (.directoryName subject) = false) := by
    unfold checkSubjectDnAgainstSubtrees sanEntryViolates
    rw [dnMatchesAny_eq]
    cases subject.isEmpty <;> cases mode <;> simp [covers, nameTypeBit]
  have sanChecked : checkSanAgainstSubtrees san subtrees mode types index = .ok () ↔
      ∀ name ∈ san.getD [], sanEntryViolates subtrees mode types name = false := by
    unfold checkSanAgainstSubtrees
    simp
  rw [checkNames, Walk.then_ok, subjectChecked, sanChecked]
  unfold presentedNames
  cases subject.isEmpty <;> simp

theorem checkPermittedNames_ok_iff {state : NameConstraintState} {index : Nat} :
    checkPermittedNames subject san state index = .ok () ↔
      ∀ permitted, state.ncPermitted = some permitted → ∀ name ∈ presentedNames subject san,
        state.ncConstrainedTypes.intersects (nameTypeBit name) = true →
          covers permitted name = true := by
  unfold checkPermittedNames
  cases state.ncPermitted with
  | none => simp
  | some permitted =>
      simp only [checkNames_ok_iff, sanEntryViolates, Option.some.injEq, forall_eq']
      simp [covers]

theorem checkNameConstraints_ok_iff {cert : Certificate} {state : NameConstraintState}
    {index : Nat} :
    checkNameConstraints der cert san state index = .ok () ↔
      (∀ name ∈ presentedNames cert.tbsCertificate.subject san,
        covers state.ncExcluded name = false) ∧
      checkPermittedNames cert.tbsCertificate.subject san state index = .ok () ∧
      checkSubjectEmails der cert.tbsCertificate.subject state index = .ok () := by
  unfold checkNameConstraints
  simp only [Walk.then_ok, checkNames_ok_iff, sanEntryViolates]
  rfl

end Checks

section State

variable (der : DerCodec)

def caConstraints (cert : Certificate) : Option NameConstraints :=
  findCertExt der.nameConstraints cert oidNameConstraints

/-- The lists after one CA, when its extension decodes. -/
def constrain (cert : Certificate) (names : NameConstraintState) : NameConstraintState :=
  match caConstraints der cert with
  | none => names
  | some nc => updateNameConstraints names nc

/-- The lists that apply below the certificates given, lowest first. -/
def namesUnder (anchor : TrustAnchor) (upper : List Certificate) : NameConstraintState :=
  upper.foldr (constrain der) (initialNameConstraints anchor.nameConstraints)

/-- The extensions that constrain what lies below: the anchor's and the CAs'. -/
def constraintsIn (anchor : TrustAnchor) (upper : List Certificate) : List NameConstraints :=
  upper.filterMap (caConstraints der) ++ anchor.nameConstraints.toList

/-- The names of a certificate that the walk compares with the lists. -/
def checkedNames (cert : Certificate) : List GeneralName :=
  presentedNames cert.tbsCertificate.subject
    (findCertExt der.subjectAltName cert oidSubjectAltName)

/-- The leaf, or a certificate that is not self-issued. -/
def IsChecked (index : Nat) (cert : Certificate) : Prop :=
  index = 0 ∨ isSelfIssuedCert cert = false

end State

section Run

variable {der : DerCodec} {anchor : TrustAnchor} {name : GeneralName}

theorem updateNameConstraints_covers_excluded (names : NameConstraintState)
    (nc : NameConstraints) :
    covers (updateNameConstraints names nc).ncExcluded name =
      (covers names.ncExcluded name || covers nc.excluded name) := by
  unfold updateNameConstraints
  cases nc.permittedSubtrees <;> exact covers_foldl_addExcluded _ _ name

theorem updateNameConstraints_intersects (names : NameConstraintState) (nc : NameConstraints) :
    (updateNameConstraints names nc).ncConstrainedTypes.intersects (nameTypeBit name) =
      (names.ncConstrainedTypes.intersects (nameTypeBit name) || listsForm nc.permitted name) := by
  unfold updateNameConstraints NameConstraints.permitted
  cases nc.permittedSubtrees with
  | none => simp [listsForm]
  | some entries => exact constrainTypes_intersects _ _ _

theorem updateNameConstraints_permitted (names : NameConstraintState) (nc : NameConstraints) :
    (updateNameConstraints names nc).ncPermitted =
      match names.ncPermitted, nc.permittedSubtrees with
      | permitted, none => permitted
      | none, some entries => some entries
      | some current, some entries => some (intersectPermitted current entries) := by
  unfold updateNameConstraints narrowPermitted
  cases nc.permittedSubtrees with
  | none => cases names.ncPermitted <;> rfl
  | some entries => cases names.ncPermitted <;> rfl

theorem namesUnder_cons (cert : Certificate) (upper : List Certificate) :
    namesUnder der anchor (cert :: upper) = constrain der cert (namesUnder der anchor upper) :=
  rfl

/-- What an update adds to the lists holds of the running ones when some extension above adds it. -/
theorem namesUnder_iff {holds : NameConstraintState → Prop} {adds : NameConstraints → Prop}
    (start : holds (initialNameConstraints anchor.nameConstraints) ↔
      ∃ nc, anchor.nameConstraints = some nc ∧ adds nc)
    (step : ∀ names nc, holds (updateNameConstraints names nc) ↔ holds names ∨ adds nc)
    (upper : List Certificate) :
    holds (namesUnder der anchor upper) ↔ ∃ nc ∈ constraintsIn der anchor upper, adds nc := by
  induction upper with
  | nil =>
      refine start.trans ?_
      simp only [constraintsIn, List.filterMap_nil, List.nil_append, Option.mem_toList]
  | cons cert upper ih =>
      rw [namesUnder_cons]
      unfold constrain constraintsIn
      cases found : caConstraints der cert with
      | none =>
          rw [List.filterMap_cons_none found]
          exact ih
      | some nc =>
          rw [List.filterMap_cons_some found]
          simp only [step, ih, List.cons_append, List.mem_cons, exists_eq_or_imp]
          exact Or.comm

/-- Nothing excluded above is forgotten: the running list covers exactly what some
extension above excludes. -/
theorem namesUnder_covers_excluded (upper : List Certificate) :
    covers (namesUnder der anchor upper).ncExcluded name = true ↔
      ∃ nc ∈ constraintsIn der anchor upper, covers nc.excluded name = true := by
  apply @namesUnder_iff der anchor (fun names => covers names.ncExcluded name = true)
  · unfold initialNameConstraints
    cases anchor.nameConstraints with
    | none => simp [covers]
    | some nc => simp [NameConstraints.excluded]
  · intro names nc
    rw [updateNameConstraints_covers_excluded, Bool.or_eq_true]

/-- A form is constrained exactly when some extension above lists an entry of it. -/
theorem namesUnder_intersects (upper : List Certificate) :
    (namesUnder der anchor upper).ncConstrainedTypes.intersects (nameTypeBit name) = true ↔
      ∃ nc ∈ constraintsIn der anchor upper, listsForm nc.permitted name = true := by
  have none_yet : NcTypeMask.empty.intersects (nameTypeBit name) = false := by
    simp [NcTypeMask.intersects, NcTypeMask.empty]
  apply @namesUnder_iff der anchor
    (fun names => names.ncConstrainedTypes.intersects (nameTypeBit name) = true)
  · unfold initialNameConstraints
    cases anchor.nameConstraints with
    | none => simp [constrainTypes, none_yet]
    | some nc => simp [constrainTypes_intersects, none_yet, NameConstraints.permitted]
  · intro names nc
    rw [updateNameConstraints_intersects, Bool.or_eq_true]

/-- A permitted list is there as soon as some extension above has one. -/
theorem namesUnder_isSome_iff (upper : List Certificate) :
    (namesUnder der anchor upper).ncPermitted.isSome = true ↔
      ∃ nc ∈ constraintsIn der anchor upper, nc.permittedSubtrees.isSome = true := by
  apply @namesUnder_iff der anchor (fun names => names.ncPermitted.isSome = true)
  · unfold initialNameConstraints
    cases anchor.nameConstraints with
    | none => simp
    | some nc => simp
  · intro names nc
    rw [updateNameConstraints_permitted]
    cases names.ncPermitted with
    | none => cases nc.permittedSubtrees <;> simp
    | some current => cases nc.permittedSubtrees <;> simp

theorem namesUnder_permitted_isSome (upper : List Certificate)
    (constrained : ∃ nc ∈ constraintsIn der anchor upper, listsForm nc.permitted name = true) :
    (namesUnder der anchor upper).ncPermitted.isSome = true := by
  obtain ⟨nc, member, form⟩ := constrained
  refine (namesUnder_isSome_iff upper).mpr ⟨nc, member, ?_⟩
  unfold NameConstraints.permitted at form
  cases entries : nc.permittedSubtrees with
  | none => simp [entries, listsForm] at form
  | some list => rfl

theorem certNameConstraints_ok {cert : Certificate} {index : Nat} {found : Option NameConstraints}
    (decoded : certNameConstraints der cert index = .ok found) :
    caConstraints der cert = found := by
  unfold certNameConstraints at decoded
  cases content : tryFindCertExt der.nameConstraints cert oidNameConstraints index with
  | error failure => simp [content] at decoded
  | ok value =>
      have same := tryFindCertExt_ok content
      cases value with
      | none =>
          rw [content] at decoded
          exact same.trans (Except.ok.inj decoded)
      | some nc =>
          simp only [content] at decoded
          split at decoded
          · cases decoded
          · exact same.trans (Except.ok.inj decoded)

theorem caNamesStep_ok_iff {cert : Certificate} {index : Nat} {names next : NameConstraintState} :
    caNamesStep der cert index names = .ok next ↔
      (∃ found, certNameConstraints der cert index = .ok found) ∧
        next = constrain der cert names := by
  unfold caNamesStep constrain
  rw [Walk.bind_ok]
  constructor
  · rintro ⟨found, decoded, same⟩
    rw [certNameConstraints_ok decoded]
    exact ⟨⟨found, decoded⟩, (Walk.pure_ok.mp same).symm⟩
  · rintro ⟨⟨found, decoded⟩, rfl⟩
    rw [certNameConstraints_ok decoded]
    exact ⟨found, decoded, rfl⟩

/-- What the walk asks of one certificate as to names: its extensions decode, and if
it is checked its names are allowed. -/
def NamesPass (der : DerCodec) (index : Nat) (cert : Certificate) (names : NameConstraintState) :
    Prop :=
  ∃ san, certSubjectAltNames der cert index = .ok san ∧
    (IsChecked index cert → checkNameConstraints der cert san names index = .ok ()) ∧
    (index ≠ 0 → ∃ found, certNameConstraints der cert index = .ok found)

theorem nameStep_succeeds_iff {cert : Certificate} {below : List Certificate}
    {names : NameConstraintState} :
    (∃ next, nameStep der cert below names = .ok next) ↔
      NamesPass der below.length cert names := by
  have exempt (san : Option SubjectAltName) :
      checkNamesUnlessExempt der cert below.length san names = .ok () ↔
        (IsChecked below.length cert →
          checkNameConstraints der cert san names below.length = .ok ()) := by
    unfold checkNamesUnlessExempt IsChecked
    by_cases checked : below.length = 0 ∨ isSelfIssuedCert cert = false
    · simp only [checked, if_true, true_implies]
    · simp only [checked, if_false, false_implies]
  simp only [nameStep_ok_iff, exempt, NamesPass]
  constructor
  · rintro ⟨next, san, decoded, allowed, advanced⟩
    refine ⟨san, decoded, allowed, fun inner => ?_⟩
    rw [if_neg inner] at advanced
    exact (caNamesStep_ok_iff.mp advanced).1
  · rintro ⟨san, decoded, allowed, wellFormed⟩
    by_cases bottom : below.length = 0
    · exact ⟨names, san, decoded, allowed, by rw [if_pos bottom]⟩
    · exact ⟨_, san, decoded, allowed,
        by rw [if_neg bottom]; exact caNamesStep_ok_iff.mpr ⟨wellFormed bottom, rfl⟩⟩

theorem nameStep_ca_ok_iff {cert : Certificate} {below : List Certificate}
    {names next : NameConstraintState} (inner : below.length ≠ 0) :
    nameStep der cert below names = .ok next ↔
      NamesPass der below.length cert names ∧ next = constrain der cert names := by
  constructor
  · intro stepped
    refine ⟨nameStep_succeeds_iff.mp ⟨next, stepped⟩, ?_⟩
    obtain ⟨_, _, _, advanced⟩ := nameStep_ok_iff.mp stepped
    rw [if_neg inner] at advanced
    exact (caNamesStep_ok_iff.mp advanced).2
  · rintro ⟨passed, rfl⟩
    obtain ⟨next, stepped⟩ := nameStep_succeeds_iff.mpr passed
    obtain ⟨san, decoded, allowed, advanced⟩ := nameStep_ok_iff.mp stepped
    rw [if_neg inner] at advanced
    have same := (caNamesStep_ok_iff.mp advanced).2
    subst same
    exact stepped

theorem runs_constrain (upper : List Certificate) :
    Walk.runs (fun _ => constrain der) (initialNameConstraints anchor.nameConstraints) upper =
      namesUnder der anchor upper := by
  induction upper with
  | nil => rfl
  | cons cert upper ih => rw [Walk.runs, ih, namesUnder_cons]

/-- Name constraints hold along a chain exactly when each certificate passes against
the lists of everything above it. -/
theorem nameWalk_succeeds_iff {chain : List Certificate} :
    (∃ final, nameWalk der chain anchor = .ok final) ↔
      ∀ index cert, chain[index]? = some cert →
        NamesPass der index cert (namesUnder der anchor (chain.drop (index + 1))) := by
  cases chain with
  | nil => simp [nameWalk, Walk.walk]
  | cons leaf upper =>
      have rule (final : NameConstraintState) := reverse_walk_ok_iff (nameStep der)
        (fun _ => constrain der) (fun cert index => NamesPass der index cert) leaf upper
        (initialNameConstraints anchor.nameConstraints) final
        (by
          intro index cert below names next _ lower
          rw [← lower]
          exact nameStep_ca_ok_iff (by omega))
      have leafStep : (∃ next, nameStep der leaf [] (namesUnder der anchor upper) = .ok next) ↔
          NamesPass der 0 leaf (namesUnder der anchor upper) := nameStep_succeeds_iff
      simp only [nameWalk, rule, exists_and_left, runs_constrain, leafStep]
      constructor
      · rintro ⟨passed, leafPassed⟩ index cert located
        cases index with
        | zero =>
            cases Option.some.inj located
            exact leafPassed
        | succ index => exact passed index cert located
      · intro everywhere
        exact ⟨fun index cert located => everywhere (index + 1) cert located,
          everywhere 0 leaf rfl⟩

theorem nameWalk_checks {chain : List Certificate} {final : NameConstraintState}
    (finished : nameWalk der chain anchor = .ok final) {index : Nat} {cert : Certificate}
    (located : chain[index]? = some cert) (checked : IsChecked index cert) :
    checkNameConstraints der cert (findCertExt der.subjectAltName cert oidSubjectAltName)
      (namesUnder der anchor (chain.drop (index + 1))) index = .ok () := by
  obtain ⟨san, decoded, allowed, _⟩ :=
    nameWalk_succeeds_iff.mp ⟨final, finished⟩ index cert located
  rw [tryFindCertExt_ok decoded]
  exact allowed checked

end Run

end Pkix.Path
