import Pkix.Path.ConcreteCodec
import Pkix.Path.NameConstraintRules

/-! Subtrees and names of a form the matcher does not process: deleting them
everywhere changes no verdict. -/

namespace Pkix.Path

def processedEntries (entries : GeneralSubtrees) : GeneralSubtrees :=
  entries.filter (fun entry => decide (Processed entry.base))

def processedNames (names : List GeneralName) : List GeneralName :=
  names.filter (fun name => decide (Processed name))

def NameConstraints.processed (nc : NameConstraints) : NameConstraints :=
  { permittedSubtrees := nc.permittedSubtrees.map processedEntries
    excludedSubtrees := nc.excludedSubtrees.map processedEntries }

def NameConstraintState.processed (names : NameConstraintState) : NameConstraintState :=
  { names with
    ncPermitted := names.ncPermitted.map processedEntries
    ncExcluded := processedEntries names.ncExcluded }

/-- The lists under the certificates given when every extension, and the anchor, has
lost its subtrees of unprocessed forms. -/
def processedUnder (der : DerCodec) (anchor : TrustAnchor) (upper : List Certificate) :
    NameConstraintState :=
  upper.foldr
    (fun cert names =>
      match caConstraints der cert with
      | none => names
      | some nc => updateNameConstraints names nc.processed)
    (initialNameConstraints (anchor.nameConstraints.map NameConstraints.processed))

section Lists

theorem mem_processedEntries {entries : GeneralSubtrees} {entry : GeneralSubtree} :
    entry ∈ processedEntries entries ↔ entry ∈ entries ∧ Processed entry.base := by
  simp [processedEntries]

@[simp] theorem processedEntries_nil : processedEntries [] = [] := rfl

theorem processedEntries_cons (entry : GeneralSubtree) (entries : GeneralSubtrees) :
    processedEntries (entry :: entries) =
      if Processed entry.base then entry :: processedEntries entries
      else processedEntries entries := by
  by_cases known : Processed entry.base <;> simp [processedEntries, known]

theorem processedEntries_append (first second : GeneralSubtrees) :
    processedEntries (first ++ second) = processedEntries first ++ processedEntries second :=
  List.filter_append ..

theorem sameVariantIn_processed (entries : GeneralSubtrees) (base : GeneralName) :
    sameVariantIn (processedEntries entries) base = sameVariantIn entries base := by
  unfold sameVariantIn processedEntries
  rw [List.filter_filter]
  apply List.filter_congr
  intro entry _
  rw [Bool.eq_iff_iff, Bool.and_eq_true, decide_eq_true_eq, and_iff_left_iff_imp]
  intro variant
  rw [sameNcVariant_comm, sameNcVariant_iff] at variant
  exact variant.2

theorem keptAgainst_processed (other : GeneralSubtrees) (entry : GeneralSubtree) :
    keptAgainst (processedEntries other) entry = keptAgainst other entry := by
  unfold keptAgainst
  rw [sameVariantIn_processed]

/-- A fold that adds entries commutes with the deletion when each addition does. -/
theorem processedEntries_foldl {add addProcessed : GeneralSubtrees → GeneralSubtree →
      GeneralSubtrees}
    (commutes : ∀ result entry, processedEntries (add result entry) =
      if Processed entry.base then addProcessed (processedEntries result) entry
      else processedEntries result)
    (entries result : GeneralSubtrees) :
    processedEntries (entries.foldl add result) =
      (processedEntries entries).foldl addProcessed (processedEntries result) := by
  induction entries generalizing result with
  | nil => rfl
  | cons entry entries ih =>
      rw [List.foldl_cons, ih, commutes, processedEntries_cons]
      by_cases known : Processed entry.base
      · rw [if_pos known, if_pos known, List.foldl_cons]
      · rw [if_neg known, if_neg known]

/-- A test that only entries of a processed form pass sees no difference. -/
theorem any_processed {test : GeneralSubtree → Bool}
    (sees : ∀ entry, test entry = true → Processed entry.base) (entries : GeneralSubtrees) :
    (processedEntries entries).any test = entries.any test := by
  rw [Bool.eq_iff_iff, List.any_eq_true, List.any_eq_true]
  constructor
  · rintro ⟨entry, member, passed⟩
    exact ⟨entry, (mem_processedEntries.mp member).1, passed⟩
  · rintro ⟨entry, member, passed⟩
    exact ⟨entry, mem_processedEntries.mpr ⟨member, sees entry passed⟩, passed⟩

theorem any_equivalent_processed (result : GeneralSubtrees) (entry : GeneralSubtree) :
    (processedEntries result).any (fun kept => equivalentSubtrees kept entry) =
      result.any (fun kept => equivalentSubtrees kept entry) := by
  apply any_processed
  intro kept equivalent
  rw [equivalentSubtrees, Bool.and_eq_true, Bool.and_eq_true, sameNcVariant_comm] at equivalent
  exact (sameNcVariant_iff.mp equivalent.1.1).2

theorem processedEntries_snoc (result : GeneralSubtrees) (entry : GeneralSubtree) :
    processedEntries (result ++ [entry]) =
      if Processed entry.base then processedEntries result ++ [entry]
      else processedEntries result := by
  rw [processedEntries_append, processedEntries_cons]
  by_cases known : Processed entry.base <;> simp [known]

theorem addExcluded_processed (excluded : GeneralSubtrees) (entry : GeneralSubtree) :
    processedEntries (addExcluded excluded entry) =
      if Processed entry.base then addExcluded (processedEntries excluded) entry
      else processedEntries excluded := by
  unfold addExcluded
  rw [any_equivalent_processed, apply_ite processedEntries, processedEntries_snoc]
  split <;> split <;> rfl

theorem addCurrent_processed (newPermitted result : GeneralSubtrees) (entry : GeneralSubtree) :
    processedEntries (addCurrent newPermitted result entry) =
      if Processed entry.base then
        addCurrent (processedEntries newPermitted) (processedEntries result) entry
      else processedEntries result := by
  unfold addCurrent
  rw [sameVariantIn_processed, any_equivalent_processed]
  simp only [apply_ite processedEntries, processedEntries_snoc]
  by_cases known : Processed entry.base
  · simp only [known, if_true]
  · simp only [known, if_false, ite_self]

theorem intersectPermitted_processed (current newPermitted : GeneralSubtrees) :
    processedEntries (intersectPermitted current newPermitted) =
      intersectPermitted (processedEntries current) (processedEntries newPermitted) := by
  unfold intersectPermitted
  rw [processedEntries_foldl (addCurrent_processed newPermitted)]
  congr 1
  unfold processedEntries
  rw [List.filter_filter, List.filter_filter]
  apply List.filter_congr
  intro entry _
  rw [Bool.and_comm]
  congr 1
  exact (keptAgainst_processed current entry).symm

theorem constrainTypes_processed (types : NcTypeMask) (entries : GeneralSubtrees) :
    constrainTypes types (processedEntries entries) = constrainTypes types entries := by
  induction entries generalizing types with
  | nil => rfl
  | cons entry entries ih =>
      rw [processedEntries_cons]
      by_cases known : Processed entry.base
      · rw [if_pos known]
        exact ih (types.union (nameTypeBit entry.base))
      · rw [if_neg known]
        have unchanged : types.union (nameTypeBit entry.base) = types := by
          rw [Processed, ne_eq, not_not] at known
          rw [known]
          simp [NcTypeMask.union, NcTypeMask.empty]
        have step : constrainTypes types (entry :: entries) =
            constrainTypes (types.union (nameTypeBit entry.base)) entries := rfl
        rw [step, unchanged]
        exact ih types

theorem covers_processed (entries : GeneralSubtrees) (name : GeneralName) :
    covers (processedEntries entries) name = covers entries name := by
  apply any_processed
  intro entry matched
  have variant := sameNcVariant_of_matches matched
  rw [sameNcVariant_comm, sameNcVariant_iff] at variant
  exact variant.2

theorem covers_unprocessed {entries : GeneralSubtrees} {name : GeneralName}
    (unknown : ¬Processed name) : covers entries name = false := by
  rw [Bool.eq_false_iff]
  intro covered
  obtain ⟨_, _, matched⟩ := covers_iff.mp covered
  exact unknown (nameMatchesSubtree_variant matched).2

end Lists

section State

variable {der : DerCodec} {anchor : TrustAnchor}

theorem updateNameConstraints_processed (names : NameConstraintState) (nc : NameConstraints) :
    (updateNameConstraints names nc).processed =
      updateNameConstraints names.processed nc.processed := by
  obtain ⟨permitted, excluded⟩ := nc
  have exclusions (list : GeneralSubtrees) :
      processedEntries ((excluded.getD []).foldl addExcluded list) =
        ((excluded.map processedEntries).getD []).foldl addExcluded (processedEntries list) := by
    rw [processedEntries_foldl addExcluded_processed]
    cases excluded <;> rfl
  cases permitted with
  | none =>
      simp [updateNameConstraints, NameConstraintState.processed, NameConstraints.processed,
        exclusions]
  | some entries =>
      cases kept : names.ncPermitted with
      | none =>
          simp [updateNameConstraints, narrowPermitted, NameConstraintState.processed,
            NameConstraints.processed, exclusions, kept, constrainTypes_processed]
      | some current =>
          simp [updateNameConstraints, narrowPermitted, NameConstraintState.processed,
            NameConstraints.processed, exclusions, kept, constrainTypes_processed,
            intersectPermitted_processed]

theorem namesUnder_processed (upper : List Certificate) :
    (namesUnder der anchor upper).processed = processedUnder der anchor upper := by
  induction upper with
  | nil =>
      unfold namesUnder processedUnder initialNameConstraints
      cases anchor.nameConstraints with
      | none => rfl
      | some nc =>
          obtain ⟨permitted, excluded⟩ := nc
          cases permitted <;> cases excluded <;>
            simp [NameConstraintState.processed, NameConstraints.processed,
              constrainTypes_processed]
  | cons cert upper ih =>
      rw [namesUnder_cons]
      unfold constrain processedUnder
      rw [List.foldr_cons]
      cases caConstraints der cert with
      | none => exact ih
      | some nc =>
          rw [updateNameConstraints_processed, ih]
          rfl

end State

section Checks

variable {der : DerCodec} {cert : Certificate} {names : NameConstraintState} {index : Nat}

theorem getD_processed (permitted : Option GeneralSubtrees) :
    (permitted.map processedEntries).getD [] = processedEntries (permitted.getD []) := by
  cases permitted <;> rfl

theorem isRfc822Subtree_processed {entry : GeneralSubtree}
    (mailbox : isRfc822Subtree entry = true) : Processed entry.base := by
  unfold isRfc822Subtree at mailbox
  cases base : entry.base <;> simp only [base, Bool.false_eq_true] at mailbox
  simp only [Processed, nameTypeBit]
  decide

theorem rfc822MatchesAny_processed (email : Bytes) (entries : GeneralSubtrees) :
    rfc822MatchesAny email (processedEntries entries) = rfc822MatchesAny email entries := by
  apply any_processed
  intro entry matched
  apply isRfc822Subtree_processed
  unfold isRfc822Subtree
  cases base : entry.base <;> simp [base] at matched ⊢

theorem checkSubjectEmails_processed (subject : Name) :
    checkSubjectEmails der subject names.processed index =
      checkSubjectEmails der subject names index := by
  have mailboxes (entries : GeneralSubtrees) :
      (processedEntries entries).filter isRfc822Subtree = entries.filter isRfc822Subtree := by
    unfold processedEntries
    rw [List.filter_filter]
    apply List.filter_congr
    intro entry _
    cases mailbox : isRfc822Subtree entry with
    | false => rfl
    | true => simpa using isRfc822Subtree_processed mailbox
  have violates : emailViolates der names.processed = emailViolates der names := by
    funext ava
    simp only [emailViolates, NameConstraintState.processed, getD_processed, mailboxes,
      rfc822MatchesAny_processed]
  unfold checkSubjectEmails
  rw [violates]
  simp only [NameConstraintState.processed,
    any_processed (fun _ => isRfc822Subtree_processed) names.ncExcluded]

theorem mem_presentedNames_processed {subject : Name} {san : Option SubjectAltName}
    {name : GeneralName} :
    name ∈ presentedNames subject (san.map processedNames) ↔
      name ∈ presentedNames subject san ∧ Processed name := by
  have dn : Processed (.directoryName subject) := by
    simp only [Processed, nameTypeBit]
    decide
  have filtered : (san.map processedNames).getD [] = processedNames (san.getD []) := by
    cases san <;> rfl
  unfold presentedNames
  rw [filtered, List.mem_append, List.mem_append]
  unfold processedNames
  rw [List.mem_filter, decide_eq_true_eq]
  constructor
  · rintro (own | ⟨entry, known⟩)
    · refine ⟨.inl own, ?_⟩
      cases empty : subject.isEmpty with
      | true => simp [empty] at own
      | false =>
          rw [empty] at own
          rw [List.mem_singleton.mp own]
          exact dn
    · exact ⟨.inr entry, known⟩
  · rintro ⟨own | entry, known⟩
    · exact .inl own
    · exact .inr ⟨entry, known⟩

theorem checkNameConstraints_processed {san : Option SubjectAltName} :
    checkNameConstraints der cert (san.map processedNames) names.processed index = .ok () ↔
      checkNameConstraints der cert san names index = .ok () := by
  have unconstrained {name : GeneralName} (unknown : ¬Processed name) :
      names.ncConstrainedTypes.intersects (nameTypeBit name) = false := by
    rw [Processed, ne_eq, not_not] at unknown
    simp [unknown, NcTypeMask.intersects, NcTypeMask.empty]
  simp only [checkNameConstraints_ok_iff, checkPermittedNames_ok_iff,
    checkSubjectEmails_processed, mem_presentedNames_processed]
  simp only [NameConstraintState.processed, covers_processed]
  constructor
  · rintro ⟨excluded, permitted, emails⟩
    refine ⟨fun name presented => ?_, fun entries current name presented constrained => ?_, emails⟩
    · by_cases known : Processed name
      · exact excluded name ⟨presented, known⟩
      · exact covers_unprocessed known
    · by_cases known : Processed name
      · have covered := permitted (processedEntries entries) (by rw [current]; rfl) name
          ⟨presented, known⟩ constrained
        rwa [covers_processed] at covered
      · rw [unconstrained known] at constrained
        cases constrained
  · rintro ⟨excluded, permitted, emails⟩
    refine ⟨fun name presented => excluded name presented.1,
      fun entries current name presented constrained => ?_, emails⟩
    obtain ⟨original, same, rfl⟩ := Option.map_eq_some_iff.mp current
    rw [covers_processed]
    exact permitted original same name presented.1 constrained

end Checks

/-- The context tag of the name in its CHOICE. -/
def GeneralName.form : GeneralName → Nat
  | .otherName _ _ => 0
  | .rfc822Name _ => 1
  | .dnsName _ => 2
  | .x400Address _ => 3
  | .directoryName _ => 4
  | .ediPartyName _ => 5
  | .uniformResourceIdentifier _ => 6
  | .ipAddress _ => 7
  | .registeredId _ => 8

/-- A CA's critical extension has a subtree of a form the matcher does not process,
and a checked certificate below it has a SAN entry of that form. -/
def UnprocessedConstraint (der : DerCodec) (chain : List Certificate) : Prop :=
  ∃ position ca extension nc, chain[position]? = some ca ∧
    findExtension ca oidNameConstraints = some extension ∧ extension.critical = true ∧
    der.nameConstraints extension.extnValue = some nc ∧
    ∃ entry ∈ nc.permitted ++ nc.excluded, ¬Processed entry.base ∧
      ∃ index cert, index < position ∧ chain[index]? = some cert ∧ IsChecked index cert ∧
        ∃ san, findCertExt der.subjectAltName cert oidSubjectAltName = some san ∧
          ∃ name ∈ san, name.form = entry.base.form

/-- The name checks that remain when the subtrees and the SAN entries of unprocessed
forms are deleted. -/
def RemainingNamesPass (der : DerCodec) (chain : List Certificate) (anchor : TrustAnchor) :
    Prop :=
  ∀ index cert, chain[index]? = some cert →
    ∃ san, certSubjectAltNames der cert index = .ok san ∧
      (IsChecked index cert →
        checkNameConstraints der cert (san.map processedNames)
          (processedUnder der anchor (chain.drop (index + 1))) index = .ok ()) ∧
      (index ≠ 0 → ∃ found, certNameConstraints der cert index = .ok found)

/-- Every check of the validation with those subtrees and SAN entries deleted. -/
def RemainingChecksPass (der : DerCodec) (policy : ValidationPolicy)
    (verifier : SignatureVerifier) (chain : List Certificate) (anchors : List TrustAnchor) :
    Prop :=
  checkInputs chain anchors = .ok () ∧ checkOidConsistency 0 chain = .ok () ∧
  checkMaxPathLen policy chain = .ok () ∧
  ∃ leaf lastCert, chain.head? = some leaf ∧ chain.getLast? = some lastCert ∧
    ∃ anchor ∈ anchors, isCandidate lastCert anchor = true ∧
      (∃ issuer, linkWalk der policy verifier chain anchor = .ok issuer) ∧
      RemainingNamesPass der chain anchor ∧
      ∃ state tree, policyWalk der policy chain = .ok state ∧
        wrapUp der policy chain leaf state = .ok tree

theorem remainingNamesPass_iff {der : DerCodec} {chain : List Certificate}
    {anchor : TrustAnchor} :
    RemainingNamesPass der chain anchor ↔ ∃ final, nameWalk der chain anchor = .ok final := by
  rw [nameWalk_succeeds_iff]
  simp only [RemainingNamesPass, NamesPass, ← namesUnder_processed,
    checkNameConstraints_processed]

/-- A chain under a constraint of an unprocessed form is rejected exactly when some
other check rejects it. -/
theorem validatePath_unprocessed_rejected_iff (der : DerCodec) (policy : ValidationPolicy)
    (verifier : SignatureVerifier) (chain : List Certificate) (anchors : List TrustAnchor) :
    (UnprocessedConstraint der chain →
        ∀ path, validatePath der policy verifier chain anchors ≠ .ok path) ↔
      (UnprocessedConstraint der chain →
        ¬RemainingChecksPass der policy verifier chain anchors) := by
  have accepts : (∃ path, validatePath der policy verifier chain anchors = .ok path) ↔
      RemainingChecksPass der policy verifier chain anchors := by
    rw [validatePath_accepts_iff]
    constructor
    · rintro ⟨inputs, oids, short, leaf, lastCert, first, last, anchor, member, candidate, tree,
        walked⟩
      obtain ⟨⟨linked, named⟩, state, policies, wrapped⟩ := chainWalk_accepts_iff.mp walked
      exact ⟨inputs, oids, short, leaf, lastCert, first, last, anchor, member, candidate, linked,
        remainingNamesPass_iff.mpr named, state, tree, policies, wrapped⟩
    · rintro ⟨inputs, oids, short, leaf, lastCert, first, last, anchor, member, candidate, linked,
        remaining, state, tree, policies, wrapped⟩
      exact ⟨inputs, oids, short, leaf, lastCert, first, last, anchor, member, candidate, tree,
        chainWalk_accepts_iff.mpr ⟨⟨linked, remainingNamesPass_iff.mp remaining⟩, state, policies,
          wrapped⟩⟩
  rw [← accepts]
  simp only [not_exists, ne_eq]

section Example

open Concrete

private def permittedId : ObjectIdentifier := ⟨[1, 2, 3, 4]⟩
private def presentedId : ObjectIdentifier := ⟨[1, 2, 3, 5]⟩

private def idSanContent : Bytes := tlv 0x30 (tlv 0x88 [0x2A, 0x03, 0x05])

private def idNcContent : Bytes := tlv 0x30 (tlv 0xA0 (tlv 0x30 (tlv 0x88 [0x2A, 0x03, 0x04])))

private def idConstraints : NameConstraints :=
  ⟨some [subtree (.registeredId permittedId)], none⟩

private def idCodec : DerCodec :=
  tableCodec
    { basicConstraints := caTable
      subjectAltName := [(idSanContent, [.registeredId presentedId])]
      nameConstraints := [(idNcContent, idConstraints)] }

private def idLeaf : Certificate :=
  issue 2 (commonName [66]) (commonName [67]) [4, 5] [6] [sanExtension idSanContent]

private def idCa : Certificate :=
  issue 1 (commonName [65]) (commonName [66]) [1, 2, 3] [4, 5]
    [caExtension, ncExtension idNcContent]

private def idAnchor : TrustAnchor := anchorNamed (commonName [65]) [1, 2, 3] none

/-- The CA permits only the registered identifier 1.2.3.4; the leaf presents 1.2.3.5. -/
theorem validatePath_unprocessed_accepted :
    ¬(UnprocessedConstraint idCodec [idLeaf, idCa] →
      ∀ path, validatePath idCodec (.new 1800000000) keyCopyVerifier [idLeaf, idCa] [idAnchor] ≠
        .ok path) := by
  intro claimed
  obtain ⟨path, accepted⟩ := ok_of_isSome (by decide +kernel :
    (validatePath idCodec (.new 1800000000) keyCopyVerifier [idLeaf, idCa]
      [idAnchor]).toOption.isSome = true)
  refine claimed ⟨1, idCa, ncExtension idNcContent, idConstraints, rfl, ?_, rfl, ?_,
    subtree (.registeredId permittedId), ?_, ?_, 0, idLeaf, by decide, rfl, .inl rfl,
    [.registeredId presentedId], ?_, .registeredId presentedId, ?_, rfl⟩ path accepted
  all_goals decide +kernel

end Example

end Pkix.Path
