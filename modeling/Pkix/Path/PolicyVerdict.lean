import Pkix.Path.WalkTracks

/-! Which checks can end in a policy violation. -/

namespace Pkix.Path

def Error.IsPolicyViolation : Error → Prop
  | .policyViolation _ => True
  | _ => False

/-- The outcome is not a policy violation. -/
abbrev NoViolation {α : Type} (outcome : Result α) : Prop :=
  Walk.Avoids Error.IsPolicyViolation outcome

section Checks

variable {der : DerCodec} {policy : ValidationPolicy} {cert : Certificate} {index : Nat}

theorem requireThat_noViolation {condition : Bool} {failure : Error}
    (harmless : ¬failure.IsPolicyViolation) : NoViolation (requireThat condition failure) := by
  unfold requireThat
  split
  · exact Walk.avoids_ok ()
  · exact Walk.avoids_error harmless

theorem tryFindCertExt_noViolation {α : Type} {decode : Bytes → Option α}
    {oid : ObjectIdentifier} : NoViolation (tryFindCertExt decode cert oid index) := by
  unfold tryFindCertExt
  split
  · exact Walk.avoids_ok none
  · split
    · exact Walk.avoids_error id
    · exact Walk.avoids_ok _

theorem certChecks_noViolation {verifier : SignatureVerifier} {issuer : WorkingIssuer} :
    NoViolation (certChecks der policy verifier cert index issuer) := by
  have allowlist : NoViolation (enforceSignatureAlgAllowlist policy cert index) := by
    unfold enforceSignatureAlgAllowlist
    split
    · exact Walk.avoids_ok ()
    · exact requireThat_noViolation id
  have signature : NoViolation (verifyCertSignature der cert index issuer.workingSpki verifier) := by
    unfold verifyCertSignature
    split
    · exact Walk.avoids_error id
    · exact requireThat_noViolation id
  have maxValidity : NoViolation (checkMaxValidity policy cert index) := by
    unfold checkMaxValidity
    split
    · exact Walk.avoids_ok ()
    · exact requireThat_noViolation id
  have rsaBits : NoViolation (checkMinRsaBits der policy cert index) := by
    unfold checkMinRsaBits
    split
    · exact Walk.avoids_ok ()
    · split
      · exact Walk.avoids_ok ()
      · exact requireThat_noViolation id
  apply allowlist.bind
  intro _ _
  apply signature.bind
  intro _ _
  apply Walk.Avoids.bind (requireThat_noViolation id)
  intro _ _
  apply Walk.Avoids.bind (requireThat_noViolation id)
  intro _ _
  apply maxValidity.bind
  intro _ _
  apply rsaBits.bind
  intro _ _
  exact requireThat_noViolation id

theorem checkNames_noViolation {subject : Name} {san : Option SubjectAltName}
    {subtrees : GeneralSubtrees} {mode : CheckMode} {types : NcTypeMask} :
    NoViolation (checkNames subject san subtrees mode types index) := by
  have names : NoViolation (checkSubjectDnAgainstSubtrees subject subtrees mode types index) := by
    unfold checkSubjectDnAgainstSubtrees
    repeat' split
    all_goals first
      | exact Walk.avoids_ok ()
      | exact Walk.avoids_error id
  apply names.bind
  intro _ _
  unfold checkSanAgainstSubtrees
  split
  · exact Walk.avoids_error id
  · exact Walk.avoids_ok ()

theorem checkNamesUnlessExempt_noViolation {san : Option SubjectAltName}
    {state : NameConstraintState} :
    NoViolation (checkNamesUnlessExempt der cert index san state) := by
  have permitted : NoViolation (checkPermittedNames cert.tbsCertificate.subject san state index) := by
    unfold checkPermittedNames
    split
    · exact Walk.avoids_ok ()
    · exact checkNames_noViolation
  unfold checkNamesUnlessExempt
  split
  · apply checkNames_noViolation.bind
    intro _ _
    apply permitted.bind
    intro _ _
    unfold checkSubjectEmails
    split
    · exact Walk.avoids_error id
    · exact Walk.avoids_ok ()
  · exact Walk.avoids_ok ()

theorem checkLeaf_noViolation {san : Option SubjectAltName}
    {policies : Option CertificatePolicies} :
    NoViolation (checkLeaf der policy cert index san policies) := by
  have ekus : NoViolation (checkLeafEku der policy cert) := by
    unfold checkLeafEku
    split
    · exact Walk.avoids_ok ()
    · apply tryFindCertExt_noViolation.bind
      intro _ _
      exact requireThat_noViolation id
  have oids : NoViolation (checkLeafPolicyOids policy policies) := by
    unfold checkLeafPolicyOids
    split
    · exact Walk.avoids_ok ()
    · split
      · exact Walk.avoids_ok ()
      · exact Walk.avoids_error id
  have attributes : NoViolation (checkLeafDnAttrs policy cert) := by
    unfold checkLeafDnAttrs
    split
    · exact Walk.avoids_ok ()
    · exact requireThat_noViolation id
  unfold checkLeaf
  split
  · apply Walk.Avoids.bind (requireThat_noViolation id)
    intro _ _
    apply ekus.bind
    intro _ _
    apply oids.bind
    intro _ _
    apply attributes.bind
    intro _ _
    exact requireThat_noViolation id
  · exact Walk.avoids_ok ()

theorem checkCa_noViolation {chain : List Certificate} :
    NoViolation (checkCa der policy cert index chain) := by
  have certSign : NoViolation (checkKeyCertSign der policy cert index) := by
    unfold checkKeyCertSign
    split
    · apply Walk.Avoids.bind (tryFindCertExt_noViolation.bind fun _ _ => Walk.avoids_ok _)
      intro _ _
      exact requireThat_noViolation id
    · exact Walk.avoids_ok ()
  have crlSign : NoViolation (checkCrlSign der policy cert index) := by
    unfold checkCrlSign
    split
    · apply Walk.Avoids.bind (tryFindCertExt_noViolation.bind fun _ _ => Walk.avoids_ok _)
      intro _ _
      exact requireThat_noViolation id
    · exact Walk.avoids_ok ()
  have pathLen (constraints : Option BasicConstraints) :
      NoViolation (checkPathLen index chain constraints) := by
    unfold checkPathLen
    split
    · exact Walk.avoids_ok ()
    · exact requireThat_noViolation id
  apply tryFindCertExt_noViolation.bind
  intro constraints _
  apply Walk.Avoids.bind (requireThat_noViolation id)
  intro _ _
  apply certSign.bind
  intro _ _
  apply crlSign.bind
  intro _ _
  exact pathLen constraints

theorem caNamesStep_noViolation {state : NameConstraintState} :
    NoViolation (caNamesStep der cert index state) := by
  have content : NoViolation (certNameConstraints der cert index) := by
    unfold certNameConstraints
    split
    · rename_i failure failed
      exact Walk.avoids_error (tryFindCertExt_noViolation failure failed)
    · exact Walk.avoids_ok none
    · split
      · exact Walk.avoids_error id
      · exact Walk.avoids_ok _
  apply content.bind
  intro _ _
  exact Walk.avoids_ok _

/-- Policy processing after the explicit-policy check of a CA without mappings. -/
theorem caPolicyStep_noViolation {depth : Nat} {policies : Option CertificatePolicies}
    {state : PolicyState} (unmapped : findExtension cert oidPolicyMappings = none) :
    NoViolation (caPolicyStep der cert index depth policies state) := by
  unfold caPolicyStep
  rw [tryFindCertExt_absent index unmapped]
  apply tryFindCertExt_noViolation.bind
  intro _ _
  apply tryFindCertExt_noViolation.bind
  intro _ _
  exact Walk.avoids_ok _

end Checks

section Step

variable {der : DerCodec} {policy : ValidationPolicy} {verifier : SignatureVerifier}
variable {chain : List Certificate}

/-- One iteration violates the policy only through the explicit-policy check. -/
theorem certStep_noViolation {cert : Certificate} {below : List Certificate}
    {state : WorkingState} (unmapped : findExtension cert oidPolicyMappings = none)
    (alive : ∀ policies, certPolicies der cert below.length = .ok policies →
      (processCertPolicies cert below.length (chain.length - below.length) policies
        state.policies).policyTree ≠ none) :
    NoViolation (certStep der policy verifier chain cert below state) := by
  have explicit (policies : Option CertificatePolicies)
      (decoded : certPolicies der cert below.length = .ok policies) :
      NoViolation (checkExplicitPolicy below.length
        (processCertPolicies cert below.length (chain.length - below.length) policies
          state.policies)) := by
    have passes : checkExplicitPolicy below.length
        (processCertPolicies cert below.length (chain.length - below.length) policies
          state.policies) = .ok () :=
      requireThat_ok_iff.mpr (policyAllowed_iff.mpr fun null => alive policies decoded null.2)
    rw [passes]
    exact Walk.avoids_ok ()
  have advanced (policies : Option CertificatePolicies) (next : WorkingState) :
      NoViolation (caStep der policy chain cert below.length policies next) := by
    unfold caStep
    split
    · exact Walk.avoids_ok _
    · apply checkCa_noViolation.bind
      intro _ _
      apply (caPolicyStep_noViolation unmapped).bind
      intro _ _
      apply caNamesStep_noViolation.bind
      intro _ _
      exact Walk.avoids_ok _
  apply certChecks_noViolation.bind
  intro _ _
  apply tryFindCertExt_noViolation.bind
  intro policies decoded
  apply (explicit policies decoded).bind
  intro _ _
  apply tryFindCertExt_noViolation.bind
  intro _ _
  apply checkNamesUnlessExempt_noViolation.bind
  intro _ _
  apply checkLeaf_noViolation.bind
  intro _ _
  apply (advanced policies _).bind
  intro _ _
  exact Walk.avoids_ok _

end Step

end Pkix.Path
