import Pkix.Path.WalkFacts

/-! The walk as three walks that do not depend on each other: the issuer
binding, the name constraints and the policies. -/

namespace Pkix.Path

section Steps

variable (der : DerCodec) (policy : ValidationPolicy) (verifier : SignatureVerifier)
variable (chain : List Certificate)

/-- What one iteration checks besides name constraints and policy state. -/
def linkStep (cert : Certificate) (below : List Certificate) (issuer : WorkingIssuer) :
    Result WorkingIssuer := do
  let index := below.length
  certChecks der policy verifier cert index issuer
  let policies ← certPolicies der cert index
  let san ← certSubjectAltNames der cert index
  checkLeaf der policy cert index san policies
  (if index = 0 then .ok () else checkCa der policy cert index chain)
  pure (issuerOf cert)

def nameStep (cert : Certificate) (below : List Certificate) (names : NameConstraintState) :
    Result NameConstraintState := do
  let index := below.length
  let san ← certSubjectAltNames der cert index
  checkNamesUnlessExempt der cert index san names
  if index = 0 then .ok names else caNamesStep der cert index names

def policyStep (cert : Certificate) (below : List Certificate) (state : PolicyState) :
    Result PolicyState := do
  let index := below.length
  let policies ← certPolicies der cert index
  let processed := processCertPolicies cert index (chain.length - index) policies state
  checkExplicitPolicy index processed
  if index = 0 then .ok processed
  else caPolicyStep der cert index (chain.length - index) policies processed

def anchorIssuer (anchor : TrustAnchor) : WorkingIssuer :=
  { workingSpki := anchor.subjectPublicKeyInfo
    workingIssuerName := anchor.subject
    workingIssuerIsSanIdentity := false }

def linkWalk (anchor : TrustAnchor) : Result WorkingIssuer :=
  Walk.walk (linkStep der policy verifier chain) chain.reverse (anchorIssuer anchor)

def nameWalk (anchor : TrustAnchor) : Result NameConstraintState :=
  Walk.walk (nameStep der) chain.reverse (initialNameConstraints anchor.nameConstraints)

def policyWalk : Result PolicyState :=
  Walk.walk (policyStep der chain) chain.reverse (initialPolicyState policy chain)

end Steps

def WorkingState.tracks : WorkingState ≃ WorkingIssuer × (NameConstraintState × PolicyState) where
  toFun state := (state.issuer, state.names, state.policies)
  invFun parts := ⟨parts.1, parts.2.1, parts.2.2⟩
  left_inv _ := rfl
  right_inv _ := rfl

section Tracks

variable {der : DerCodec} {policy : ValidationPolicy} {verifier : SignatureVerifier}
variable {chain : List Certificate}

theorem linkStep_ok_iff {cert : Certificate} {below : List Certificate}
    {issuer next : WorkingIssuer} :
    linkStep der policy verifier chain cert below issuer = .ok next ↔
      ∃ policies san,
        certChecks der policy verifier cert below.length issuer = .ok () ∧
        certPolicies der cert below.length = .ok policies ∧
        certSubjectAltNames der cert below.length = .ok san ∧
        checkLeaf der policy cert below.length san policies = .ok () ∧
        (below.length ≠ 0 → checkCa der policy cert below.length chain = .ok ()) ∧
        next = issuerOf cert := by
  have guarded (check : Result Unit) :
      (if below.length = 0 then .ok () else check) = .ok () ↔
        (below.length ≠ 0 → check = .ok ()) := by
    by_cases bottom : below.length = 0 <;> simp [bottom]
  simp only [linkStep, Walk.bind_ok, Walk.pure_ok, Unique.exists_iff, guarded]
  constructor
  · rintro ⟨checked, policies, decoded, san, named, leafChecked, caChecked, rfl⟩
    exact ⟨policies, san, checked, decoded, named, leafChecked, caChecked, rfl⟩
  · rintro ⟨policies, san, checked, decoded, named, leafChecked, caChecked, rfl⟩
    exact ⟨checked, policies, decoded, san, named, leafChecked, caChecked, rfl⟩

theorem nameStep_ok_iff {cert : Certificate} {below : List Certificate}
    {names next : NameConstraintState} :
    nameStep der cert below names = .ok next ↔
      ∃ san, certSubjectAltNames der cert below.length = .ok san ∧
        checkNamesUnlessExempt der cert below.length san names = .ok () ∧
        (if below.length = 0 then .ok names else caNamesStep der cert below.length names) =
          .ok next := by
  simp only [nameStep, Walk.bind_ok, Unique.exists_iff]

theorem policyStep_ok_iff {cert : Certificate} {below : List Certificate}
    {state next : PolicyState} :
    policyStep der chain cert below state = .ok next ↔
      ∃ policies, certPolicies der cert below.length = .ok policies ∧
        checkExplicitPolicy below.length (processCertPolicies cert below.length
          (chain.length - below.length) policies state) = .ok () ∧
        (if below.length = 0 then
            .ok (processCertPolicies cert below.length (chain.length - below.length) policies
              state)
          else caPolicyStep der cert below.length (chain.length - below.length) policies
            (processCertPolicies cert below.length (chain.length - below.length) policies
              state)) = .ok next := by
  simp only [policyStep, Walk.bind_ok, Unique.exists_iff]

theorem caStep_ok_iff {cert : Certificate} {index : Nat}
    {policies : Option CertificatePolicies} {state updated : WorkingState} :
    caStep der policy chain cert index policies state = .ok updated ↔
      (index ≠ 0 → checkCa der policy cert index chain = .ok ()) ∧
      (if index = 0 then .ok state.policies
        else caPolicyStep der cert index (chain.length - index) policies state.policies) =
          .ok updated.policies ∧
      (if index = 0 then .ok state.names else caNamesStep der cert index state.names) =
        .ok updated.names ∧
      updated.issuer = state.issuer := by
  obtain ⟨issuer, names, policyState⟩ := updated
  by_cases bottom : index = 0
  · subst bottom
    rw [caStep_leaf]
    obtain ⟨stateIssuer, stateNames, statePolicies⟩ := state
    simp only [WorkingState.mk.injEq, if_true, Except.ok.injEq, ne_eq, not_true_eq_false,
      false_implies, true_and]
    constructor
    · rintro ⟨rfl, rfl, rfl⟩
      exact ⟨rfl, rfl, rfl⟩
    · rintro ⟨rfl, rfl, rfl⟩
      exact ⟨rfl, rfl, rfl⟩
  · rw [caStep_ca_iff bottom]
    simp only [WorkingState.mk.injEq, ne_eq, bottom, not_false_eq_true,
      true_implies]
    constructor
    · rintro ⟨policyState, nameState, checked, mapped, narrowed, rfl, rfl, rfl⟩
      exact ⟨checked, mapped, narrowed, rfl⟩
    · rintro ⟨checked, mapped, narrowed, rfl⟩
      exact ⟨policyState, names, checked, mapped, narrowed, rfl, rfl, rfl⟩

/-- One iteration succeeds exactly when its three parts do. -/
theorem certStep_tracks {cert : Certificate} {below : List Certificate}
    {state next : WorkingState} :
    certStep der policy verifier chain cert below state = .ok next ↔
      linkStep der policy verifier chain cert below state.issuer = .ok next.issuer ∧
      nameStep der cert below state.names = .ok next.names ∧
      policyStep der chain cert below state.policies = .ok next.policies := by
  rw [certStep_ok_iff, linkStep_ok_iff, nameStep_ok_iff, policyStep_ok_iff]
  constructor
  · rintro ⟨policies, san, updated, checked, decoded, explicit, named, constrained,
      leafChecked, advanced, rfl⟩
    obtain ⟨caChecked, mapped, narrowed, _⟩ := caStep_ok_iff.mp advanced
    exact ⟨⟨policies, san, checked, decoded, named, leafChecked, caChecked, rfl⟩,
      ⟨san, named, constrained, narrowed⟩, ⟨policies, decoded, explicit, mapped⟩⟩
  · rintro ⟨⟨policies, san, checked, decoded, named, leafChecked, caChecked, bound⟩,
      ⟨otherSan, sameSan, constrained, narrowed⟩, ⟨otherPolicies, samePolicies, explicit, mapped⟩⟩
    rw [named] at sameSan
    rw [decoded] at samePolicies
    cases sameSan
    cases samePolicies
    refine ⟨policies, san, { next with issuer := state.issuer }, checked, decoded, explicit,
      named, constrained, leafChecked, caStep_ok_iff.mpr ⟨caChecked, mapped, narrowed, rfl⟩, ?_⟩
    rw [← bound]

theorem walkCerts_ok_iff {anchor : TrustAnchor} {final : WorkingState} :
    walkCerts der policy verifier chain anchor = .ok final ↔
      linkWalk der policy verifier chain anchor = .ok final.issuer ∧
      nameWalk der chain anchor = .ok final.names ∧
      policyWalk der policy chain = .ok final.policies := by
  unfold walkCerts
  rw [Walk.walk_tracks WorkingState.tracks (linkStep der policy verifier chain)
    (Walk.both (nameStep der) (policyStep der chain)) ?_, Walk.walk_both]
  · rfl
  · intro cert below state next
    rw [certStep_tracks, Walk.both_ok_iff]
    rfl

/-- What the walk from an anchor decides apart from policies. -/
def OtherChecksPass (der : DerCodec) (policy : ValidationPolicy) (verifier : SignatureVerifier)
    (chain : List Certificate) (anchor : TrustAnchor) : Prop :=
  (∃ issuer, linkWalk der policy verifier chain anchor = .ok issuer) ∧
    ∃ names, nameWalk der chain anchor = .ok names

/-- The policy verdict does not depend on the anchor. -/
theorem chainWalk_accepts_iff {leaf : Certificate} {anchor : TrustAnchor}
    {tree : Option PolicyTree} :
    chainWalk der policy verifier chain leaf anchor = .ok tree ↔
      OtherChecksPass der policy verifier chain anchor ∧
      ∃ state, policyWalk der policy chain = .ok state ∧
        wrapUp der policy chain leaf state = .ok tree := by
  simp only [chainWalk_ok_iff, walkCerts_ok_iff]
  constructor
  · rintro ⟨final, ⟨linked, named, walked⟩, wrapped⟩
    exact ⟨⟨⟨_, linked⟩, ⟨_, named⟩⟩, final.policies, walked, wrapped⟩
  · rintro ⟨⟨⟨issuer, linked⟩, ⟨names, named⟩⟩, state, walked, wrapped⟩
    exact ⟨⟨issuer, names, state⟩, ⟨linked, named, walked⟩, wrapped⟩

/-- Every check that is not about policies passes, from some candidate anchor. -/
def PassesOtherChecks (der : DerCodec) (policy : ValidationPolicy) (verifier : SignatureVerifier)
    (chain : List Certificate) (anchors : List TrustAnchor) : Prop :=
  checkInputs chain anchors = .ok () ∧ checkOidConsistency 0 chain = .ok () ∧
  checkMaxPathLen policy chain = .ok () ∧
  ∃ lastCert, chain.getLast? = some lastCert ∧
    ∃ anchor ∈ anchors, isCandidate lastCert anchor = true ∧
      OtherChecksPass der policy verifier chain anchor

theorem checkInputs_nonempty {anchors : List TrustAnchor}
    (checked : checkInputs chain anchors = .ok ()) : chain ≠ [] := by
  rintro rfl
  simp [checkInputs] at checked

theorem validatePath_accepts_iff_policies {anchors : List TrustAnchor} :
    (∃ path, validatePath der policy verifier chain anchors = .ok path) ↔
      PassesOtherChecks der policy verifier chain anchors ∧
      ∃ leaf state tree, chain.head? = some leaf ∧ policyWalk der policy chain = .ok state ∧
        wrapUp der policy chain leaf state = .ok tree := by
  rw [validatePath_accepts_iff]
  constructor
  · rintro ⟨inputs, oids, short, leaf, lastCert, first, last, anchor, member, candidate, tree,
      walked⟩
    obtain ⟨other, state, policies, wrapped⟩ := chainWalk_accepts_iff.mp walked
    exact ⟨⟨inputs, oids, short, lastCert, last, anchor, member, candidate, other⟩,
      leaf, state, tree, first, policies, wrapped⟩
  · rintro ⟨⟨inputs, oids, short, lastCert, last, anchor, member, candidate, other⟩,
      leaf, state, tree, first, policies, wrapped⟩
    exact ⟨inputs, oids, short, leaf, lastCert, first, last, anchor, member, candidate, tree,
      chainWalk_accepts_iff.mpr ⟨other, state, policies, wrapped⟩⟩

end Tracks

end Pkix.Path
