import Pkix.Path.PolicySoundness
import Pkix.Path.PolicyVerdict

/-! Chains without policy mappings and with a policy of the user set that every
certificate asserts: when the verdict is a policy violation nevertheless. -/

namespace Pkix.Path

section Alive

variable {der : DerCodec} {length : Nat} {start : PolicyCounters} {wanted : ObjectIdentifier}
variable {lower upper : List Certificate} {current : Option PolicyTree}

theorem validAlong_suffix (valid : ValidAlong der length start wanted (lower ++ upper)) :
    ValidAlong der length start wanted upper := by
  induction lower with
  | nil => exact valid
  | cons cert lower ih => exact ih valid.2

/-- While some policy is valid for the certificates seen, the tree is not NULL. -/
theorem treeFor_alive (tree : TreeFor der length start upper current)
    (specific : wanted ≠ oidAnyPolicy) (valid : ValidAlong der length start wanted upper) :
    current ≠ none := by
  intro null
  rw [null] at tree
  by_cases listed : ∃ cert ∈ upper, ListsPolicy der cert wanted
  · exact tree wanted ((inLevel_specific_iff specific).mpr ⟨valid, listed⟩)
  · exact tree oidAnyPolicy (inLevel_any_iff.mpr (anyAlong_of_unlisted valid listed))

end Alive

section Loop

variable {der : DerCodec} {policy : ValidationPolicy} {verifier : SignatureVerifier}
variable {chain : List Certificate} {anchor : TrustAnchor} {wanted : ObjectIdentifier}

theorem processed_alive
    (unmapped : ∀ cert ∈ chain, findExtension cert oidPolicyMappings = none)
    (specific : wanted ≠ oidAnyPolicy) (valid : ValidForPath der policy chain wanted)
    {lower above : List Certificate} {cert : Certificate}
    (split : chain = lower ++ cert :: above) :
    (processed der cert lower.length (above.length + 1)
      (policiesUnder der chain.length (initialPolicyState policy chain) above)).policyTree ≠
        none := by
  have members : ∀ other ∈ above, certMappings der other = none := by
    intro other member
    apply certMappings_none unmapped
    rw [split]
    exact List.mem_append_right _ (List.mem_cons_of_mem _ member)
  have initial : (initialPolicyState policy chain).policyTree = some initPolicyTree := rfl
  have grown := treeFor_processed der chain.length cert initial members
  have place : chain.length - (above.length + 1) = lower.length := by
    rw [split, List.length_append, List.length_cons]
    omega
  rw [place] at grown
  have along : ValidAlong der chain.length (initialCounters policy chain) wanted
      (lower ++ cert :: above) := by
    rw [← split]
    exact validAlong_chain_iff.mpr valid
  exact treeFor_alive grown specific (validAlong_suffix along)

/-- The loop does not end in a policy violation. -/
theorem walkCerts_noViolation
    (unmapped : ∀ cert ∈ chain, findExtension cert oidPolicyMappings = none)
    (specific : wanted ≠ oidAnyPolicy) (valid : ValidForPath der policy chain wanted) :
    NoViolation (walkCerts der policy verifier chain anchor) := by
  apply Walk.walk_avoids
  intro above cert below state reached
  obtain ⟨split, depth, current, _⟩ := reached_policies reached
  apply certStep_noViolation
  · apply unmapped
    rw [split]
    exact List.mem_append_right _ List.mem_cons_self
  · intro policies decoded
    have alive := processed_alive unmapped specific valid split
    rw [List.length_reverse, List.length_reverse] at alive
    rw [← tryFindCertExt_ok decoded, depth, current]
    exact alive

theorem wrapUp_violation_iff {leaf : Certificate} {state : PolicyState} {index : Nat} :
    wrapUp der policy chain leaf state = .error (.policyViolation index) ↔
      index = 0 ∧ wrapUpExplicitPolicy der leaf state.counters.explicitPolicy = .ok 0 ∧
        trimPolicyTree policy.initialPolicySet chain.length state.policyTree = none := by
  cases counted : wrapUpExplicitPolicy der leaf state.counters.explicitPolicy with
  | error failure =>
      have harmless : NoViolation
          (wrapUpExplicitPolicy der leaf state.counters.explicitPolicy) :=
        tryFindCertExt_noViolation.bind fun _ _ => Walk.avoids_ok _
      have stopped : wrapUp der policy chain leaf state = .error failure := by
        unfold wrapUp
        rw [counted]
        rfl
      rw [stopped]
      constructor
      · intro same
        cases Except.error.inj same
        exact absurd trivial (harmless _ counted)
      · intro parts
        cases parts.2.1
  | ok explicitPolicy =>
      have tested : wrapUp der policy chain leaf state =
          if (!(explicitPolicy == 0 &&
              (trimPolicyTree policy.initialPolicySet chain.length state.policyTree).isNone)) then
            .ok (trimPolicyTree policy.initialPolicySet chain.length state.policyTree)
          else .error (.policyViolation 0) := by
        unfold wrapUp
        rw [counted]
        show (requireThat _ _ >>= fun _ => _) = _
        unfold requireThat
        split <;> rfl
      rw [tested]
      by_cases allowed : explicitPolicy = 0 ∧
          trimPolicyTree policy.initialPolicySet chain.length state.policyTree = none
      · rw [if_neg (fun holds => policyAllowed_iff.mp holds allowed)]
        simp [allowed.1, allowed.2, eq_comm]
      · rw [if_pos (policyAllowed_iff.mpr allowed)]
        constructor
        · intro same
          cases same
        · intro parts
          exact absurd ⟨Except.ok.inj parts.2.1, parts.2.2⟩ allowed

/-- A walk that ends in a policy violation has passed everything else. -/
theorem chainWalk_violation_iff {leaf : Certificate} {index : Nat}
    (harmless : NoViolation (walkCerts der policy verifier chain anchor)) :
    chainWalk der policy verifier chain leaf anchor = .error (.policyViolation index) ↔
      OtherChecksPass der policy verifier chain anchor ∧
      ∃ state, policyWalk der policy chain = .ok state ∧
        wrapUp der policy chain leaf state = .error (.policyViolation index) := by
  unfold chainWalk
  rw [Walk.bind_error]
  constructor
  · intro failed
    rcases failed with stopped | ⟨final, walked, wrapped⟩
    · exact absurd trivial (harmless _ stopped)
    · obtain ⟨linked, named, policies⟩ := walkCerts_ok_iff.mp walked
      exact ⟨⟨⟨_, linked⟩, ⟨_, named⟩⟩, final.policies, policies, wrapped⟩
  · intro failed
    obtain ⟨⟨⟨issuer, linked⟩, names, named⟩, state, policies, wrapped⟩ := failed
    exact .inr ⟨⟨issuer, names, state⟩, walkCerts_ok_iff.mpr ⟨linked, named, policies⟩, wrapped⟩

end Loop

/-- The constraints that feed the policy counters decode. -/
def PolicyExtensionsDecode (der : DerCodec) (chain : List Certificate) : Prop :=
  ∀ index cert, chain[index]? = some cert →
    (∃ found, tryFindCertExt der.policyConstraints cert oidPolicyConstraints index = .ok found) ∧
    (index ≠ 0 →
      ∃ found, tryFindCertExt der.inhibitAnyPolicy cert oidInhibitAnyPolicy index = .ok found)

section Decode

variable {der : DerCodec} {policy : ValidationPolicy} {verifier : SignatureVerifier}
variable {chain : List Certificate} {anchor : TrustAnchor} {wanted : ObjectIdentifier}

theorem certPolicies_decoded (passed : OtherChecksPass der policy verifier chain anchor)
    {index : Nat} {cert : Certificate} (located : chain[index]? = some cert) :
    ∃ found, certPolicies der cert index = .ok found := by
  obtain ⟨⟨issuer, linked⟩, _⟩ := passed
  obtain ⟨_, _, _, stepped⟩ := reverse_walk_visits (fun _ _ _ => True)
    (fun _ _ _ _ _ _ _ => trivial) trivial linked located
  obtain ⟨policies, _, _, decoded, _⟩ := linkStep_ok_iff.mp stepped
  rw [take_reverse_length located] at decoded
  exact ⟨policies, decoded⟩

theorem policyWalk_ok_of_valid
    (unmapped : ∀ cert ∈ chain, findExtension cert oidPolicyMappings = none)
    (specific : wanted ≠ oidAnyPolicy) (valid : ValidForPath der policy chain wanted)
    (inhabited : chain ≠ []) (passed : OtherChecksPass der policy verifier chain anchor)
    (decodes : PolicyExtensionsDecode der chain) :
    ∃ state, policyWalk der policy chain = .ok state := by
  have pass {lower above : List Certificate} {cert : Certificate}
      (split : chain = lower ++ cert :: above) :
      PoliciesPass der cert lower.length (above.length + 1)
        (policiesUnder der chain.length (initialPolicyState policy chain) above) := by
    have located : chain[lower.length]? = some cert := by
      rw [split, List.getElem?_append_right (Nat.le_refl _), Nat.sub_self]
      rfl
    exact ⟨certPolicies_decoded passed located,
      fun null => processed_alive unmapped specific valid split null.2⟩
  cases chain with
  | nil => exact absurd rfl inhabited
  | cons leaf upper =>
      refine ⟨_, policyWalk_ok_iff.mpr ⟨?_, @pass [] upper leaf rfl, rfl⟩⟩
      intro index cert located
      obtain ⟨bound, same⟩ := List.getElem?_eq_some_iff.mp located
      have split : leaf :: upper =
          (leaf :: upper.take index) ++ cert :: upper.drop (index + 1) := by
        rw [← same, List.cons_append, ← List.drop_eq_getElem_cons bound, List.take_append_drop]
      have here := pass split
      have place : (leaf :: upper.take index).length = index + 1 := by
        rw [List.length_cons, List.length_take]
        omega
      have depth : (upper.drop (index + 1)).length + 1 = upper.length + 1 - (index + 1) := by
        rw [List.length_drop]
        omega
      rw [place, depth] at here
      have absent := unmapped cert (List.mem_cons_of_mem _ (List.mem_of_getElem? located))
      obtain ⟨constraints, inhibit⟩ := decodes (index + 1) cert located
      refine ⟨here, ⟨none, tryFindCertExt_absent _ absent⟩, ?_, constraints,
        inhibit (Nat.succ_ne_zero index)⟩
      intro mappings mapped
      rw [certMappings_none unmapped cert
        (List.mem_cons_of_mem _ (List.mem_of_getElem? located))] at mapped
      cases mapped

theorem policyExtensionsDecode_of_walk {leaf : Certificate} {state : PolicyState}
    {explicitPolicy : Nat} (first : chain.head? = some leaf)
    (walked : policyWalk der policy chain = .ok state)
    (counted : wrapUpExplicitPolicy der leaf state.counters.explicitPolicy =
      .ok explicitPolicy) :
    PolicyExtensionsDecode der chain := by
  cases chain with
  | nil => cases first
  | cons head upper =>
      cases Option.some.inj first
      obtain ⟨passed, _, _⟩ := policyWalk_ok_iff.mp walked
      intro index cert located
      cases index with
      | zero =>
          cases Option.some.inj located
          obtain ⟨found, decoded, _⟩ := Walk.bind_ok.mp counted
          exact ⟨⟨found, decoded⟩, fun inner => absurd rfl inner⟩
      | succ index =>
          have ca := passed index cert located
          exact ⟨ca.constraints, fun _ => ca.inhibit⟩

end Decode

section Verdict

variable {der : DerCodec} {policy : ValidationPolicy} {verifier : SignatureVerifier}
variable {chain : List Certificate} {anchors : List TrustAnchor} {leaf lastCert : Certificate}

/-- The verdict is a violation exactly when the last candidate's walk ends in one. -/
theorem validatePath_violation_iff {anchor : TrustAnchor} {index : Nat}
    (inputs : checkInputs chain anchors = .ok ()) (oids : checkOidConsistency 0 chain = .ok ())
    (short : checkMaxPathLen policy chain = .ok ()) (first : chain.head? = some leaf)
    (last : chain.getLast? = some lastCert)
    (chosen : lastCandidate lastCert anchors = some anchor)
    (harmless : NoViolation (walkCerts der policy verifier chain anchor)) :
    validatePath der policy verifier chain anchors = .error (.policyViolation index) ↔
      OtherChecksPass der policy verifier chain anchor ∧
      ∃ state, policyWalk der policy chain = .ok state ∧ index = 0 ∧
        wrapUpExplicitPolicy der leaf state.counters.explicitPolicy = .ok 0 ∧
        trimPolicyTree policy.initialPolicySet chain.length state.policyTree = none := by
  rw [validatePath_eq_tryAnchors inputs oids short first last, tryAnchors_error_iff, chosen]
  simp only [chainWalk_violation_iff harmless, wrapUp_violation_iff]
  apply and_iff_right_of_imp
  intro failed other _ _ accepted
  rcases failed with ⟨_, state, walked, same, spent, null⟩
  rcases accepted with ⟨tree, finished⟩
  rcases chainWalk_accepts_iff.mp finished with ⟨_, sameState, sameWalk, wrapped⟩
  rw [walked] at sameWalk
  cases sameWalk
  rw [wrapUp_violation_iff.mpr ⟨same, spent, null⟩] at wrapped
  cases wrapped

/-- Where an explicit policy is required, a walk that passes ends with the counter at zero. -/
theorem policyWalk_spent_of_required {anchor : TrustAnchor} {wanted : ObjectIdentifier}
    (unmapped : ∀ cert ∈ chain, findExtension cert oidPolicyMappings = none)
    (specific : wanted ≠ oidAnyPolicy) (valid : ValidForPath der policy chain wanted)
    (first : chain.head? = some leaf) (passed : OtherChecksPass der policy verifier chain anchor)
    (decodes : PolicyExtensionsDecode der chain)
    (required : ExplicitPolicyRequired der policy chain) :
    ∃ state, policyWalk der policy chain = .ok state ∧
      wrapUpExplicitPolicy der leaf state.counters.explicitPolicy = .ok 0 := by
  have located : chain[0]? = some leaf := by
    rw [← List.head?_eq_getElem?, first]
  have inhabited : chain ≠ [] := by
    intro empty
    rw [empty] at first
    cases first
  rcases policyWalk_ok_of_valid unmapped specific valid inhabited passed decodes with
    ⟨state, walked⟩
  rcases (decodes 0 leaf located).1 with ⟨constraints, decoded⟩
  have counted : ∃ explicitPolicy,
      wrapUpExplicitPolicy der leaf state.counters.explicitPolicy = .ok explicitPolicy := by
    unfold wrapUpExplicitPolicy
    rw [decoded]
    exact ⟨_, rfl⟩
  rcases counted with ⟨explicitPolicy, counted⟩
  have spent := (policyWalk_spent_iff first walked counted).mpr required
  rw [spent] at counted
  exact ⟨state, walked, counted⟩

end Verdict

/-- Completeness, with its exact condition: a chain that passes everything else and has
a policy of the set that is valid for the whole path ends in a policy violation exactly
when the topmost certificate lists valid policies, none of them in the set. -/
theorem validatePath_policy_complete_iff (der : DerCodec) (policy : ValidationPolicy)
    (verifier : SignatureVerifier) (chain : List Certificate) (anchors : List TrustAnchor)
    (unmapped : ∀ cert ∈ chain, findExtension cert oidPolicyMappings = none)
    (passes : PassesOtherChecks der policy verifier chain anchors)
    (specificSet : oidAnyPolicy ∉ policy.initialPolicySet)
    (asserted : ∃ wanted ∈ policy.initialPolicySet, ValidForPath der policy chain wanted) :
    (∀ index, validatePath der policy verifier chain anchors ≠ .error (.policyViolation index)) ↔
      ¬ExplicitPolicyRequired der policy chain ∨ AnyThroughout der policy chain ∨
      (∃ wanted ∈ policy.initialPolicySet, ListedByTop der policy chain wanted) ∨
      (∀ wanted, ListedByTop der policy chain wanted → wanted ∈ policy.initialPolicySet) ∨
      ¬PolicyExtensionsDecode der chain ∨
      ∃ lastCert anchor, chain.getLast? = some lastCert ∧
        lastCandidate lastCert anchors = some anchor ∧
        ¬OtherChecksPass der policy verifier chain anchor := by
  rcases passes with
    ⟨inputs, oids, short, lastCert, last, candidateAnchor, member, candidate, other⟩
  rcases asserted with ⟨wanted, inSet, valid⟩
  have specific : wanted ≠ oidAnyPolicy := fun same => specificSet (same ▸ inSet)
  have nonempty : policy.initialPolicySet ≠ [] := List.ne_nil_of_mem inSet
  have inhabited := checkInputs_nonempty inputs
  rcases List.exists_cons_of_ne_nil inhabited with ⟨leaf, upper, shape⟩
  have first : chain.head? = some leaf := by
    rw [shape]
    rfl
  rcases lastCandidate_isSome member candidate with ⟨anchor, chosen⟩
  have harmless : NoViolation (walkCerts der policy verifier chain anchor) :=
    walkCerts_noViolation unmapped specific valid
  have verdict (index : Nat) :
      validatePath der policy verifier chain anchors = .error (.policyViolation index) ↔ _ :=
    validatePath_violation_iff inputs oids short first last chosen harmless
  have trimmed {state : PolicyState} (walked : policyWalk der policy chain = .ok state) :=
    trimPolicyTree_ne_none_iff (policyWalk_treeFor unmapped inhabited walked) walked inhabited
      nonempty specificSet
  have alive {state : PolicyState} (walked : policyWalk der policy chain = .ok state) :
      state.policyTree ≠ none :=
    treeFor_alive (policyWalk_treeFor unmapped inhabited walked) specific
      (validAlong_chain_iff.mpr valid)
  constructor
  · intro clean
    by_contra failing
    simp only [not_or, not_not] at failing
    rcases failing with ⟨required, anyPolicy, inTop, outTop, decodes, passing⟩
    have passed : OtherChecksPass der policy verifier chain anchor := by
      by_contra failed
      exact passing ⟨lastCert, anchor, last, chosen, failed⟩
    rcases policyWalk_spent_of_required unmapped specific valid first passed decodes required with
      ⟨state, walked, counted⟩
    have null : trimPolicyTree policy.initialPolicySet chain.length state.policyTree = none := by
      by_contra kept
      rcases ((trimmed walked).mp kept).2 with everywhere | listed | all
      · exact anyPolicy everywhere
      · exact inTop listed
      · exact outTop all
    exact clean 0 ((verdict 0).mpr ⟨passed, state, walked, rfl, counted, null⟩)
  · intro condition index violated
    rcases (verdict index).mp violated with ⟨passed, state, walked, _, counted, null⟩
    have kept (reason : AnyThroughout der policy chain ∨
        (∃ wanted ∈ policy.initialPolicySet, ListedByTop der policy chain wanted) ∨
        ∀ wanted, ListedByTop der policy chain wanted → wanted ∈ policy.initialPolicySet) :
        False :=
      (trimmed walked).mpr ⟨alive walked, reason⟩ null
    rcases condition with free | everywhere | listed | all | undecoded | failing
    · exact free ((policyWalk_spent_iff first walked counted).mp rfl)
    · exact kept (.inl everywhere)
    · exact kept (.inr (.inl listed))
    · exact kept (.inr (.inr all))
    · exact undecoded (policyExtensionsDecode_of_walk first walked counted)
    · rcases failing with ⟨otherLast, otherAnchor, sameLast, sameChosen, failed⟩
      rw [last] at sameLast
      cases sameLast
      rw [chosen] at sameChosen
      cases sameChosen
      exact failed passed

section CompletenessExample

open Concrete

private def completenessCodec : DerCodec :=
  policyCodec [[testPolicy 1, testPolicy 2], [testPolicy 2, oidAnyPolicy]]

private def completenessChain : List Certificate :=
  policyChain [testPolicy 1, testPolicy 2] [testPolicy 2, oidAnyPolicy]

private theorem completenessChain_passes :
    PassesOtherChecks completenessCodec (explicitPolicy [testPolicy 1]) keyCopyVerifier
      completenessChain policyAnchors :=
  ⟨by decide +kernel, by decide +kernel, by decide +kernel, _, rfl, _, List.mem_singleton.mpr rfl,
    by decide +kernel, ok_of_isSome (by decide +kernel), ok_of_isSome (by decide +kernel)⟩

private theorem completenessChain_asserts :
    ∃ wanted ∈ (explicitPolicy [testPolicy 1]).initialPolicySet,
      ValidForPath completenessCodec (explicitPolicy [testPolicy 1]) completenessChain wanted := by
  refine ⟨testPolicy 1, List.mem_singleton.mpr rfl, ?_⟩
  intro index cert located
  match index with
  | 0 =>
      cases Option.some.inj located
      exact .inl ⟨[⟨testPolicy 1, none⟩, ⟨testPolicy 2, none⟩], by decide +kernel,
        ⟨testPolicy 1, none⟩, List.mem_cons_self, rfl⟩
  | 1 =>
      cases Option.some.inj located
      refine .inr ⟨⟨[⟨testPolicy 2, none⟩, ⟨oidAnyPolicy, none⟩], by decide +kernel,
        ⟨oidAnyPolicy, none⟩, by decide, rfl⟩, by decide +kernel⟩
  | _ + 2 => cases located

theorem validatePath_policy_complete_iff_example :
    (∀ index, validatePath completenessCodec (explicitPolicy [testPolicy 1]) keyCopyVerifier
        completenessChain policyAnchors ≠ .error (.policyViolation index)) ↔
      ¬ExplicitPolicyRequired completenessCodec (explicitPolicy [testPolicy 1])
          completenessChain ∨
      AnyThroughout completenessCodec (explicitPolicy [testPolicy 1]) completenessChain ∨
      (∃ wanted ∈ (explicitPolicy [testPolicy 1]).initialPolicySet,
        ListedByTop completenessCodec (explicitPolicy [testPolicy 1]) completenessChain wanted) ∨
      (∀ wanted,
        ListedByTop completenessCodec (explicitPolicy [testPolicy 1]) completenessChain wanted →
          wanted ∈ (explicitPolicy [testPolicy 1]).initialPolicySet) ∨
      ¬PolicyExtensionsDecode completenessCodec completenessChain ∨
      ∃ lastCert anchor, completenessChain.getLast? = some lastCert ∧
        lastCandidate lastCert policyAnchors = some anchor ∧
        ¬OtherChecksPass completenessCodec (explicitPolicy [testPolicy 1]) keyCopyVerifier
          completenessChain anchor :=
  validatePath_policy_complete_iff completenessCodec (explicitPolicy [testPolicy 1])
    keyCopyVerifier completenessChain policyAnchors (by decide) completenessChain_passes
    (by decide) completenessChain_asserts

/-- The leaf asserts two policies, the CA the second one and anyPolicy; the set holds
the first one: rejected. -/
theorem validatePath_asserted_rejected :
    ¬∀ (der : DerCodec) (policy : ValidationPolicy) (verifier : SignatureVerifier)
        (chain : List Certificate) (anchors : List TrustAnchor),
      (∀ cert ∈ chain, findExtension cert oidPolicyMappings = none) →
      PassesOtherChecks der policy verifier chain anchors → policy.initialPolicySet ≠ [] →
      oidAnyPolicy ∉ policy.initialPolicySet →
      (∃ wanted ∈ policy.initialPolicySet, ValidForPath der policy chain wanted) →
      ∀ index, validatePath der policy verifier chain anchors ≠
        .error (.policyViolation index) := by
  intro complete
  have rejected : validatePath completenessCodec (explicitPolicy [testPolicy 1]) keyCopyVerifier
      completenessChain policyAnchors = .error (.policyViolation 0) := by
    decide +kernel
  exact complete completenessCodec (explicitPolicy [testPolicy 1]) keyCopyVerifier
    completenessChain policyAnchors (by decide) completenessChain_passes (by decide) (by decide)
    completenessChain_asserts 0 rejected

end CompletenessExample

end Pkix.Path
