import Pkix.Path.ChainSuffix
import Pkix.Path.PolicySoundness

/-! An error of the validator names the certificate that is to blame for it, and what the error
says of that certificate is the case. -/

namespace Pkix.Path

section Faults

variable (der : DerCodec) (cert : Certificate)

/-- The first extension with the OID holds something else. -/
def FailsToDecode {α : Type} (decode : Bytes → Option α) (oid : ObjectIdentifier) : Prop :=
  ∃ extension, findExtension cert oid = some extension ∧ decode extension.extnValue = none

/-- What the validator calls a malformed certificate. -/
inductive Malformed : Prop
  | algorithms (differ : cert.signatureAlgorithm.oid ≠ cert.tbsCertificate.signature.oid)
  | keyUsage (fails : FailsToDecode cert der.keyUsage oidKeyUsage)
  | basicConstraints (fails : FailsToDecode cert der.basicConstraints oidBasicConstraints)
  | subjectAltName (fails : FailsToDecode cert der.subjectAltName oidSubjectAltName)
  | extendedKeyUsage (fails : FailsToDecode cert der.extendedKeyUsage oidExtendedKeyUsage)
  | nameConstraints (fails : FailsToDecode cert der.nameConstraints oidNameConstraints)
  | certificatePolicies (fails : FailsToDecode cert der.certificatePolicies oidCertificatePolicies)
  | policyMappings (fails : FailsToDecode cert der.policyMappings oidPolicyMappings)
  | policyConstraints (fails : FailsToDecode cert der.policyConstraints oidPolicyConstraints)
  | inhibitAnyPolicy (fails : FailsToDecode cert der.inhibitAnyPolicy oidInhibitAnyPolicy)
  | subtreeBounds (nc : NameConstraints) (constrains : caConstraints der cert = some nc)
      (bounded : ∃ subtree ∈ nc.permittedSubtrees.getD [] ++ nc.excludedSubtrees.getD [],
        subtree.minimum ≠ 0 ∨ subtree.maximum.isSome = true)

/-- A name of the certificate is excluded, or has a constrained form and lies in no permitted
subtree, or an address of the subject is or does. -/
def NameOutside (names : NameConstraintState) : Prop :=
  (∃ name ∈ checkedNames der cert, covers names.ncExcluded name = true ∨
    ∃ permitted, names.ncPermitted = some permitted ∧
      names.ncConstrainedTypes.intersects (nameTypeBit name) = true ∧
      covers permitted name = false) ∨
  ∃ ava ∈ cert.tbsCertificate.subject.flatten, emailViolates der names ava = true

/-- A policy is required and none is left, at the certificate or when it is the leaf, or it maps
from or to anyPolicy. -/
inductive PolicyRefused (policy : ValidationPolicy) (length index : Nat) (state : PolicyState) :
    Prop
  | nothingLeft (spent : state.counters.explicitPolicy = 0)
      (gone : (processed der cert index (length - index) state).policyTree = none)
  | nothingWanted (bottom : index = 0)
      (spent : (countersAfter der cert state.counters).explicitPolicy = 0)
      (gone : trimPolicyTree policy.initialPolicySet length
        (processed der cert 0 length state).policyTree = none)
  | anyPolicy (inner : index ≠ 0) (mapped : ¬MappingsAllowed der cert)

end Faults

section Blame

variable (der : DerCodec) (policy : ValidationPolicy) (verifier : SignatureVerifier)
variable (chain : List Certificate) (anchors : List TrustAnchor)

/-- The certificate at the position has the fault. -/
def FaultAt (index : Nat) (fault : Certificate → Prop) : Prop :=
  ∃ cert, chain[index]? = some cert ∧ fault cert

/-- The fault may depend on the anchor that the chain was tried from. -/
def FaultFrom (fault : TrustAnchor → Prop) : Prop := ∃ anchor ∈ anchors, fault anchor

/-- What is the case when the validator gives the error. -/
def Blame : Error → Prop
  | .signatureInvalid index => FaultAt chain index fun cert => FaultFrom anchors fun anchor =>
      ∃ tbsBytes, der.encodeTbs cert.tbsCertificate = .ok tbsBytes ∧
        verifier cert.signatureAlgorithm
          (issuerAbove anchor (chain.drop (index + 1))).workingSpki tbsBytes
          cert.signature.rawBytes = false
  | .malformedCertificate index => FaultAt chain index (Malformed der)
  | .validityPeriod index => FaultAt chain index fun cert => ¬CurrentAt policy.currentTimeUnix cert
  | .chainBroken index => FaultAt chain index fun cert => FaultFrom anchors fun anchor =>
      namesMatch (issuerAbove anchor (chain.drop (index + 1))).workingIssuerName
        cert.tbsCertificate.issuer = false
  | .noTrustedPath => chain = [] ∨ anchors = [] ∨ ∃ lastCert, chain.getLast? = some lastCert ∧
      ∀ anchor ∈ anchors, isCandidate lastCert anchor = false
  | .pathTooLong => policy.maxPathLen < nonSelfIssuedCount (chain.drop 1) ∨
      ∃ index, 0 < index ∧ FaultAt chain index fun cert => ∃ constraints pathLen,
        ExtHolds der.basicConstraints cert oidBasicConstraints (some constraints) ∧
        constraints.pathLenConstraint = some pathLen ∧
        pathLen < nonSelfIssuedCount (intermediatesBelow index chain)
  | .notCA index => 0 < index ∧ FaultAt chain index fun cert => ∃ constraints,
      ExtHolds der.basicConstraints cert oidBasicConstraints constraints ∧
        (constraints.map (·.ca)).getD false = false
  | .keyUsageMissing index => 0 < index ∧ policy.enforceKeyUsage = true ∧
      FaultAt chain index fun cert => ∃ usage,
        ExtHolds der.keyUsage cert oidKeyUsage (some usage) ∧ usage.keyCertSign = false
  | .crlSignMissing index => 0 < index ∧ policy.requireCrlSignOnCas = true ∧
      FaultAt chain index fun cert => ∃ usage,
        ExtHolds der.keyUsage cert oidKeyUsage (some usage) ∧ usage.crlSign = false
  | .unhandledCriticalExtension index => FaultAt chain index fun cert =>
      ∃ extension ∈ cert.extensions, extension.critical = true ∧
        extension.extnId ∉ handledCriticalOids
  | .nameConstraintViolation index => FaultAt chain index fun cert => IsChecked index cert ∧
      FaultFrom anchors fun anchor =>
        NameOutside der cert (namesUnder der anchor (chain.drop (index + 1)))
  | .policyViolation index => FaultAt chain index fun cert =>
      PolicyRefused der cert policy chain.length index
        (policiesUnder der chain.length (initialPolicyState policy chain) (chain.drop (index + 1)))
  | .der failure => ∃ cert ∈ chain, der.encodeTbs cert.tbsCertificate = .error failure
  | .validityPeriodExceedsMax index => FaultAt chain index fun cert => ∃ maxSecs,
      policy.maxValiditySecs = some maxSecs ∧
        timeToUnixSecs cert.tbsCertificate.validity.notBefore + maxSecs <
          timeToUnixSecs cert.tbsCertificate.validity.notAfter
  | .algorithmNotAllowed index => FaultAt chain index fun cert => ∃ allowed,
      policy.allowedSignatureAlgs = some allowed ∧ cert.signatureAlgorithm.oid ∉ allowed
  | .keyTooSmall index => FaultAt chain index fun cert => ∃ minBits bits,
      policy.minRsaKeyBits = some minBits ∧
        rsaPublicKeyBits der cert.tbsCertificate.subjectPublicKeyInfo = some bits ∧ bits < minBits
  | .missingSan => policy.requireSubjectAltName = true ∧ FaultAt chain 0 fun cert => ∃ san,
      ExtHolds der.subjectAltName cert oidSubjectAltName san ∧ san.getD [] = []
  | .missingRfc822San => policy.requireSubjectAltName = true ∧ policy.requireRfc822San = true ∧
      FaultAt chain 0 fun cert => ∃ san, ExtHolds der.subjectAltName cert oidSubjectAltName san ∧
        ∀ name ∈ san.getD [], isRfc822Name name = false
  | .missingEku => FaultAt chain 0 fun cert => ∃ required ekus,
      policy.requiredLeafEku = some required ∧
        ExtHolds der.extendedKeyUsage cert oidExtendedKeyUsage ekus ∧ ¬required ⊆ ekus.getD []
  | .missingLeafPolicyOid oid => FaultAt chain 0 fun cert => ∃ required policies,
      policy.requiredLeafPolicyOids = some required ∧ oid ∈ required ∧
        ExtHolds der.certificatePolicies cert oidCertificatePolicies policies ∧
        oid ∉ (policies.getD []).map (·.policyIdentifier)
  | .subjectDnAttrRuleUnmet => FaultAt chain 0 fun cert => ∃ rule,
      policy.requiredLeafSubjectDnAttrs = some rule ∧
        evaluateDnAttrRule cert.tbsCertificate.subject rule = false
  | .duplicateCertificate first second => first < second ∧ FaultAt chain first fun cert =>
      FaultAt chain second fun other => sameCertificate cert other = true

end Blame

/-- Whatever error the outcome gives is to blame for what it says. -/
abbrev Accounted (good : Error → Prop) {α : Type} (outcome : Result α) : Prop :=
  Walk.Avoids (fun failure => ¬good failure) outcome

section Checks

variable {good : Error → Prop} {der : DerCodec} {policy : ValidationPolicy} {cert : Certificate}
variable {index : Nat}

theorem accounted_error {α : Type} {failure : Error} (holds : good failure) :
    Accounted good (.error failure : Result α) :=
  Walk.avoids_error (not_not_intro holds)

theorem Accounted.blamed {α : Type} {outcome : Result α} {failure : Error}
    (accounted : Accounted good outcome) (failed : outcome = .error failure) : good failure :=
  not_not.mp (accounted failure failed)

theorem requireThat_accounted {condition : Bool} {failure : Error}
    (holds : condition = false → good failure) : Accounted good (requireThat condition failure) := by
  cases condition with
  | true => exact Walk.avoids_ok ()
  | false => exact accounted_error (holds rfl)

theorem tryFindCertExt_accounted {α : Type} {decode : Bytes → Option α} {oid : ObjectIdentifier}
    (holds : FailsToDecode cert decode oid → good (.malformedCertificate index)) :
    Accounted good (tryFindCertExt decode cert oid index) := by
  unfold tryFindCertExt
  cases found : findExtension cert oid with
  | none => exact Walk.avoids_ok none
  | some extension =>
      cases decoded : decode extension.extnValue with
      | none =>
          simp only [decoded]
          exact accounted_error (holds ⟨extension, found, decoded⟩)
      | some content =>
          simp only [decoded]
          exact Walk.avoids_ok (some content)

end Checks

/-- A certificate of the chain as the loop meets it, with the state above it. -/
structure Stands (der : DerCodec) (policy : ValidationPolicy) (chain : List Certificate)
    (anchor : TrustAnchor) (cert : Certificate) (index : Nat) (state : WorkingState) : Prop where
  located : chain[index]? = some cert
  issuer : state.issuer = issuerAbove anchor (chain.drop (index + 1))
  names : state.names = namesUnder der anchor (chain.drop (index + 1))
  policies : state.policies =
    policiesUnder der chain.length (initialPolicyState policy chain) (chain.drop (index + 1))

section Step

variable {der : DerCodec} {policy : ValidationPolicy} {verifier : SignatureVerifier}
variable {chain : List Certificate} {anchors : List TrustAnchor} {anchor : TrustAnchor}
variable {cert : Certificate} {index : Nat} {state : WorkingState}

theorem read_accounted {α : Type} {decode : Bytes → Option α} {oid : ObjectIdentifier}
    (located : chain[index]? = some cert)
    (malformed : FailsToDecode cert decode oid → Malformed der cert) :
    Accounted (Blame der policy verifier chain anchors) (tryFindCertExt decode cert oid index) :=
  tryFindCertExt_accounted fun fails => ⟨cert, located, malformed fails⟩

theorem certChecks_accounted (member : anchor ∈ anchors)
    (stands : Stands der policy chain anchor cert index state) :
    Accounted (Blame der policy verifier chain anchors)
      (certChecks der policy verifier cert index state.issuer) := by
  have at_ {fault : Certificate → Prop} (holds : fault cert) : FaultAt chain index fault :=
    ⟨cert, stands.located, holds⟩
  have allowlist : Accounted (Blame der policy verifier chain anchors)
      (enforceSignatureAlgAllowlist policy cert index) := by
    unfold enforceSignatureAlgAllowlist
    split
    · exact Walk.avoids_ok ()
    · rename_i allowed required
      apply requireThat_accounted
      intro absent
      exact at_ ⟨allowed, required, by simpa using absent⟩
  have signature : Accounted (Blame der policy verifier chain anchors)
      (verifyCertSignature der cert index state.issuer.workingSpki verifier) := by
    unfold verifyCertSignature
    cases encoded : der.encodeTbs cert.tbsCertificate with
    | error failure =>
        apply accounted_error
        exact ⟨cert, List.mem_of_getElem? stands.located, encoded⟩
    | ok tbsBytes =>
        apply requireThat_accounted
        intro refused
        rw [stands.issuer] at refused
        exact at_ ⟨anchor, member, tbsBytes, encoded, refused⟩
  have linkage : Accounted (Blame der policy verifier chain anchors)
      (checkIssuerLinkage cert index state.issuer.workingIssuerName
        state.issuer.workingIssuerIsSanIdentity) := by
    apply requireThat_accounted
    intro broken
    rw [stands.issuer, Bool.or_eq_false_iff] at broken
    exact at_ ⟨anchor, member, broken.2⟩
  have validity : Accounted (Blame der policy verifier chain anchors)
      (checkValidity cert index policy.currentTimeUnix) := by
    apply requireThat_accounted
    intro outside
    exact at_ (of_decide_eq_false outside)
  have lifetime : Accounted (Blame der policy verifier chain anchors)
      (checkMaxValidity policy cert index) := by
    unfold checkMaxValidity
    split
    · exact Walk.avoids_ok ()
    · rename_i maxSecs required
      apply requireThat_accounted
      intro long
      have exceeds := of_decide_eq_false long
      exact at_ ⟨maxSecs, required, by omega⟩
  have keySize : Accounted (Blame der policy verifier chain anchors)
      (checkMinRsaBits der policy cert index) := by
    unfold checkMinRsaBits
    split
    · exact Walk.avoids_ok ()
    · rename_i minBits required
      split
      · exact Walk.avoids_ok ()
      · rename_i bits counted
        apply requireThat_accounted
        intro small
        exact at_ ⟨minBits, bits, required, counted, Nat.not_le.mp (of_decide_eq_false small)⟩
  have critical : Accounted (Blame der policy verifier chain anchors)
      (checkCriticalExtensions cert index) := by
    apply requireThat_accounted
    intro unhandled
    rw [List.all_eq_false] at unhandled
    rcases unhandled with ⟨extension, listed, refused⟩
    exact at_ ⟨extension, listed, by simpa using refused⟩
  apply allowlist.bind
  intro _ _
  apply signature.bind
  intro _ _
  apply linkage.bind
  intro _ _
  apply validity.bind
  intro _ _
  apply lifetime.bind
  intro _ _
  apply keySize.bind
  intro _ _
  exact critical

theorem checkNames_error {subject : Name} {san : Option SubjectAltName}
    {subtrees : GeneralSubtrees} {mode : CheckMode} {types : NcTypeMask} {failure : Error}
    (failed : checkNames subject san subtrees mode types index = .error failure) :
    failure = .nameConstraintViolation index := by
  have violation {check : Bool} {other : Error}
      (stopped : (if check then .error (.nameConstraintViolation index) else .ok () : Result Unit) =
        .error other) : other = .nameConstraintViolation index := by
    cases check with
    | false => cases stopped
    | true => exact (Except.error.inj stopped).symm
  rcases Walk.bind_error.mp failed with stopped | ⟨_, _, stopped⟩
  · unfold checkSubjectDnAgainstSubtrees at stopped
    split at stopped
    · cases stopped
    · cases mode with
      | excluded => exact violation stopped
      | permitted => exact violation stopped
  · exact violation stopped

theorem checkNamesUnlessExempt_accounted (member : anchor ∈ anchors)
    (stands : Stands der policy chain anchor cert index state) {san : Option SubjectAltName}
    (decoded : certSubjectAltNames der cert index = .ok san) :
    Accounted (Blame der policy verifier chain anchors)
      (checkNamesUnlessExempt der cert index san state.names) := by
  have presented : presentedNames cert.tbsCertificate.subject san = checkedNames der cert := by
    unfold checkedNames
    rw [tryFindCertExt_ok decoded]
  have blamed (checked : IsChecked index cert) (outside : NameOutside der cert state.names) :
      Blame der policy verifier chain anchors (.nameConstraintViolation index) := by
    rw [stands.names] at outside
    exact ⟨cert, stands.located, checked, anchor, member, outside⟩
  have names {subtrees : GeneralSubtrees} {mode : CheckMode} {types : NcTypeMask}
      {failure : Error}
      (failed : checkNames cert.tbsCertificate.subject san subtrees mode types index =
        .error failure) :
      failure = .nameConstraintViolation index ∧ ∃ name ∈ checkedNames der cert,
        sanEntryViolates subtrees mode types name = true := by
    refine ⟨checkNames_error failed, ?_⟩
    by_contra clear
    have passes : checkNames cert.tbsCertificate.subject san subtrees mode types index =
        .ok () := by
      rw [checkNames_ok_iff, presented]
      intro name listed
      rw [← Bool.not_eq_true]
      exact fun violates => clear ⟨name, listed, violates⟩
    rw [passes] at failed
    cases failed
  unfold checkNamesUnlessExempt
  split
  · rename_i checked
    apply Walk.Avoids.bind
    · intro failure failed
      rcases names failed with ⟨rfl, name, listed, violates⟩
      exact not_not_intro (blamed checked (.inl ⟨name, listed, .inl violates⟩))
    · intro _ _
      apply Walk.Avoids.bind
      · unfold checkPermittedNames
        split
        · exact Walk.avoids_ok ()
        · rename_i permitted held
          intro failure failed
          rcases names failed with ⟨rfl, name, listed, violates⟩
          apply not_not_intro
          apply blamed checked
          simp only [sanEntryViolates, Bool.and_eq_true, Bool.not_eq_true'] at violates
          exact .inl ⟨name, listed, .inr ⟨permitted, held, violates⟩⟩
      · intro _ _
        unfold checkSubjectEmails
        split
        · rename_i found
          apply accounted_error
          apply blamed checked
          simp only [Bool.and_eq_true, List.any_eq_true] at found
          exact .inr found.2
        · exact Walk.avoids_ok ()
  · exact Walk.avoids_ok ()

theorem checkLeaf_accounted (located : chain[index]? = some cert) {san : Option SubjectAltName}
    {policies : Option CertificatePolicies}
    (names : certSubjectAltNames der cert index = .ok san)
    (decoded : certPolicies der cert index = .ok policies) :
    Accounted (Blame der policy verifier chain anchors)
      (checkLeaf der policy cert index san policies) := by
  unfold checkLeaf
  split
  · rename_i bottom
    subst bottom
    have at_ {fault : Certificate → Prop} (holds : fault cert) : FaultAt chain 0 fault :=
      ⟨cert, located, holds⟩
    have named := tryFindCertExt_ok_iff.mp names
    have ekus : Accounted (Blame der policy verifier chain anchors)
        (checkLeafEku der policy cert) := by
      unfold checkLeafEku
      split
      · exact Walk.avoids_ok ()
      · rename_i required asked
        apply (read_accounted located .extendedKeyUsage).bind
        intro found read
        apply requireThat_accounted
        intro missing
        refine at_ ⟨required, found, asked, tryFindCertExt_ok_iff.mp read, ?_⟩
        intro contained
        have all : required.all (fun eku => (found.getD []).contains eku) = true := by
          rw [List.all_eq_true]
          intro eku listed
          rw [List.contains_iff_mem]
          exact contained listed
        rw [all] at missing
        cases missing
    have oids : Accounted (Blame der policy verifier chain anchors)
        (checkLeafPolicyOids policy policies) := by
      unfold checkLeafPolicyOids
      split
      · exact Walk.avoids_ok ()
      · rename_i required asked
        split
        · exact Walk.avoids_ok ()
        · rename_i oid missing
          apply accounted_error
          refine at_ ⟨required, policies, asked, List.mem_of_find?_eq_some missing,
            tryFindCertExt_ok_iff.mp decoded, ?_⟩
          have absent := List.find?_some missing
          simpa using absent
    have attributes : Accounted (Blame der policy verifier chain anchors)
        (checkLeafDnAttrs policy cert) := by
      unfold checkLeafDnAttrs
      split
      · exact Walk.avoids_ok ()
      · rename_i rule asked
        apply requireThat_accounted
        intro unmet
        exact at_ ⟨rule, asked, unmet⟩
    have present : Accounted (Blame der policy verifier chain anchors)
        (checkLeafSan policy san) := by
      apply requireThat_accounted
      intro missing
      simp only [Bool.or_eq_false_iff, Bool.not_eq_false', List.isEmpty_iff] at missing
      exact ⟨missing.1, at_ ⟨san, named, missing.2⟩⟩
    have mailbox : Accounted (Blame der policy verifier chain anchors)
        (checkLeafRfc822San policy san) := by
      apply requireThat_accounted
      intro missing
      simp only [Bool.or_eq_false_iff, Bool.not_eq_false', Bool.and_eq_true,
        List.any_eq_false, Bool.not_eq_true] at missing
      exact ⟨missing.1.1, missing.1.2, at_ ⟨san, named, missing.2⟩⟩
    apply present.bind
    intro _ _
    apply ekus.bind
    intro _ _
    apply oids.bind
    intro _ _
    apply attributes.bind
    intro _ _
    exact mailbox
  · exact Walk.avoids_ok ()

theorem checkCa_accounted (located : chain[index]? = some cert) (inner : 0 < index) :
    Accounted (Blame der policy verifier chain anchors) (checkCa der policy cert index chain) := by
  have at_ {fault : Certificate → Prop} (holds : fault cert) : FaultAt chain index fault :=
    ⟨cert, located, holds⟩
  -- A key usage bit that is asked for is missing only from an extension that is there.
  have missing (bit : KeyUsage → Bool) {failure : Error}
      (blamed : (∃ usage, ExtHolds der.keyUsage cert oidKeyUsage (some usage) ∧
        bit usage = false) → Blame der policy verifier chain anchors failure) :
      Accounted (Blame der policy verifier chain anchors) (do
        let found ← (do
          let usage ← tryFindCertExt der.keyUsage cert oidKeyUsage index
          pure (usage.map bit) : Result (Option Bool))
        requireThat (found != some false) failure) := by
    apply Walk.Avoids.bind
    · apply (read_accounted located .keyUsage).bind
      intro _ _
      exact Walk.avoids_ok _
    · intro found read
      rcases Walk.bind_ok.mp read with ⟨usage, holds, same⟩
      cases Walk.pure_ok.mp same
      apply requireThat_accounted
      intro cleared
      have bitCleared : usage.map bit = some false := by simpa using cleared
      rcases Option.map_eq_some_iff.mp bitCleared with ⟨value, rfl, off⟩
      exact blamed ⟨value, tryFindCertExt_ok_iff.mp holds, off⟩
  have certSign : Accounted (Blame der policy verifier chain anchors)
      (checkKeyCertSign der policy cert index) := by
    unfold checkKeyCertSign
    split
    · rename_i enforced
      exact missing (·.keyCertSign) fun fault => ⟨inner, enforced, at_ fault⟩
    · exact Walk.avoids_ok ()
  have crlSign : Accounted (Blame der policy verifier chain anchors)
      (checkCrlSign der policy cert index) := by
    unfold checkCrlSign
    split
    · rename_i enforced
      exact missing (·.crlSign) fun fault => ⟨inner, enforced, at_ fault⟩
    · exact Walk.avoids_ok ()
  apply (read_accounted located .basicConstraints).bind
  intro constraints decoded
  have holds := tryFindCertExt_ok_iff.mp decoded
  have flagged : Accounted (Blame der policy verifier chain anchors)
      (requireThat ((constraints.map (·.ca)).getD false) (.notCA index)) :=
    requireThat_accounted fun unset => ⟨inner, at_ ⟨constraints, holds, unset⟩⟩
  have pathLen : Accounted (Blame der policy verifier chain anchors)
      (checkPathLen index chain constraints) := by
    unfold checkPathLen
    split
    · exact Walk.avoids_ok ()
    · rename_i pathLen bounded
      apply requireThat_accounted
      intro long
      rcases Option.bind_eq_some_iff.mp bounded with ⟨value, rfl, bound⟩
      exact .inr ⟨index, inner, at_ ⟨value, pathLen, holds, bound,
        Nat.not_le.mp (of_decide_eq_false long)⟩⟩
  apply flagged.bind
  intro _ _
  apply certSign.bind
  intro _ _
  apply crlSign.bind
  intro _ _
  exact pathLen

theorem caPolicyStep_accounted (located : chain[index]? = some cert) (inner : 0 < index)
    {depth : Nat} {policies : Option CertificatePolicies} {before : PolicyState} :
    Accounted (Blame der policy verifier chain anchors)
      (caPolicyStep der cert index depth policies before) := by
  apply (read_accounted located .policyMappings).bind
  intro mappings decoded
  have mapped : Accounted (Blame der policy verifier chain anchors)
      (mapPolicies index depth policies mappings before) := by
    unfold mapPolicies
    split
    · exact Walk.avoids_ok _
    · rename_i pairs
      split
      · rename_i mapsAny
        apply accounted_error
        refine ⟨cert, located, .anyPolicy (Nat.ne_of_gt inner) ?_⟩
        intro allowed
        have none_ := allowed pairs (tryFindCertExt_ok decoded)
        rw [mapsAny] at none_
        cases none_
      · exact Walk.avoids_ok _
  apply mapped.bind
  intro _ _
  apply (read_accounted located .policyConstraints).bind
  intro _ _
  apply (read_accounted located .inhibitAnyPolicy).bind
  intro _ _
  exact Walk.avoids_ok _

theorem caNamesStep_accounted (located : chain[index]? = some cert)
    {names : NameConstraintState} :
    Accounted (Blame der policy verifier chain anchors) (caNamesStep der cert index names) := by
  have content : Accounted (Blame der policy verifier chain anchors)
      (certNameConstraints der cert index) := by
    unfold certNameConstraints
    split
    · rename_i failure failed
      exact Walk.avoids_error (read_accounted located .nameConstraints failure failed)
    · exact Walk.avoids_ok none
    · rename_i nc decoded
      split
      · rename_i bounded
        apply accounted_error
        rcases List.any_eq_true.mp bounded with ⟨subtree, listed, limited⟩
        exact ⟨cert, located, .subtreeBounds nc (tryFindCertExt_ok decoded)
          ⟨subtree, listed, by simpa using limited⟩⟩
      · exact Walk.avoids_ok _
  apply content.bind
  intro _ _
  exact Walk.avoids_ok _

theorem certStep_accounted (member : anchor ∈ anchors) {below : List Certificate}
    (stands : Stands der policy chain anchor cert below.length state) :
    Accounted (Blame der policy verifier chain anchors)
      (certStep der policy verifier chain cert below state) := by
  have located := stands.located
  apply (certChecks_accounted member stands).bind
  intro _ _
  apply (read_accounted located .certificatePolicies).bind
  intro policies decoded
  have explicit : Accounted (Blame der policy verifier chain anchors)
      (checkExplicitPolicy below.length (processCertPolicies cert below.length
        (chain.length - below.length) policies state.policies)) := by
    apply requireThat_accounted
    intro refused
    simp only [Bool.not_eq_false', Bool.and_eq_true, beq_iff_eq,
      Option.isNone_iff_eq_none] at refused
    have listed : listedPolicies der cert = policies := tryFindCertExt_ok decoded
    refine ⟨cert, located, .nothingLeft ?_ ?_⟩
    · rw [← stands.policies]
      exact refused.1
    · rw [← stands.policies, processed, listed]
      exact refused.2
  apply explicit.bind
  intro _ _
  apply (read_accounted located .subjectAltName).bind
  intro san named
  apply (checkNamesUnlessExempt_accounted member stands named).bind
  intro _ _
  apply (checkLeaf_accounted located named decoded).bind
  intro _ _
  apply Walk.Avoids.bind
  · unfold caStep
    split
    · exact Walk.avoids_ok _
    · rename_i inner
      apply (checkCa_accounted located (Nat.pos_of_ne_zero inner)).bind
      intro _ _
      apply (caPolicyStep_accounted located (Nat.pos_of_ne_zero inner)).bind
      intro _ _
      apply (caNamesStep_accounted located).bind
      intro _ _
      exact Walk.avoids_ok _
  · intro _ _
    exact Walk.avoids_ok _

end Step

section Walk

variable {der : DerCodec} {policy : ValidationPolicy} {verifier : SignatureVerifier}
variable {chain : List Certificate} {anchors : List TrustAnchor} {anchor : TrustAnchor}

/-- The issuer and the names of a reached state are those of the certificates done. -/
theorem reached_tracks {above pending : List Certificate} {state : WorkingState}
    (reached : Walk.Reached (certStep der policy verifier chain) chain.reverse
      (initialState policy chain anchor) above pending state) (more : pending ≠ []) :
    state.issuer = issuerAbove anchor above.reverse ∧
      state.names = namesUnder der anchor above.reverse := by
  induction reached with
  | start => exact ⟨rfl, rfl⟩
  | @step above cert below state next earlier taken ih =>
      have inner : below.length ≠ 0 := mt List.length_eq_zero_iff.mp more
      rcases certStep_tracks.mp taken with ⟨linked, named, _⟩
      rcases linkStep_ok_iff.mp linked with ⟨_, _, _, _, _, _, _, issuer⟩
      have names := ((nameStep_ca_ok_iff inner).mp named).2
      rw [List.reverse_append, List.reverse_singleton, List.singleton_append]
      exact ⟨issuer, by rw [names, (ih (List.cons_ne_nil _ _)).2, namesUnder_cons]⟩

/-- In every state that the loop reaches the next certificate stands under those done. -/
theorem stands_of_reached {above below : List Certificate} {cert : Certificate}
    {state : WorkingState}
    (reached : Walk.Reached (certStep der policy verifier chain) chain.reverse
      (initialState policy chain anchor) above (cert :: below) state) :
    Stands der policy chain anchor cert below.length state := by
  rcases reached_policies reached with ⟨split, _, policies, _⟩
  have position : below.reverse.length = below.length := List.length_reverse
  have located : chain[below.length]? = some cert := by
    rw [split, ← position, List.getElem?_append_right (Nat.le_refl _)]
    simp
  have upper : chain.drop (below.length + 1) = above.reverse := by
    rw [split, ← position, List.drop_append]
    simp
  have tracks := reached_tracks reached (List.cons_ne_nil _ _)
  exact ⟨located, by rw [upper]; exact tracks.1, by rw [upper]; exact tracks.2,
    by rw [upper]; exact policies⟩

theorem walkCerts_accounted (member : anchor ∈ anchors) :
    Accounted (Blame der policy verifier chain anchors)
      (walkCerts der policy verifier chain anchor) := by
  apply Walk.walk_avoids
  intro above cert below state reached
  exact certStep_accounted member (stands_of_reached reached)

/-- The leaf under the CAs of the chain, in the state that the loop ends in. -/
theorem wrapUp_accounted {leaf : Certificate} (first : chain.head? = some leaf)
    {state : PolicyState} (walked : policyWalk der policy chain = .ok state) :
    Accounted (Blame der policy verifier chain anchors) (wrapUp der policy chain leaf state) := by
  cases chain with
  | nil => cases first
  | cons head upper =>
      cases Option.some.inj first
      have located : (leaf :: upper)[0]? = some leaf := rfl
      have finished := (policyWalk_ok_iff.mp walked).2.2
      apply Walk.Avoids.bind
      · apply (read_accounted located .policyConstraints).bind
        intro _ _
        exact Walk.avoids_ok _
      · intro explicitPolicy counted
        rcases Walk.bind_ok.mp counted with ⟨constraints, decoded, same⟩
        cases Walk.pure_ok.mp same
        apply Walk.Avoids.bind
        · apply requireThat_accounted
          intro refused
          simp only [Bool.not_eq_false', Bool.and_eq_true, beq_iff_eq,
            Option.isNone_iff_eq_none] at refused
          refine ⟨leaf, located, .nothingWanted rfl ?_ ?_⟩
          · rw [countersAfter_explicit, requiredSkip, tryFindCertExt_ok decoded]
            rw [finished] at refused
            exact refused.1
          · rw [finished] at refused
            exact refused.2
        · intro _ _
          exact Walk.avoids_ok _

theorem chainWalk_accounted (member : anchor ∈ anchors) {leaf : Certificate}
    (first : chain.head? = some leaf) :
    Accounted (Blame der policy verifier chain anchors)
      (chainWalk der policy verifier chain leaf anchor) := by
  apply (walkCerts_accounted member).bind
  intro final walked
  exact wrapUp_accounted first (walkCerts_ok_iff.mp walked).2.2

theorem checkDuplicatesOf_accounted {cert : Certificate} {first second : Nat}
    (located : chain[first]? = some cert) (after : first < second) (rest : List Certificate)
    (tail : chain.drop second = rest) :
    Accounted (Blame der policy verifier chain anchors)
      (checkDuplicatesOf cert first second rest) := by
  induction rest generalizing second with
  | nil => exact Walk.avoids_ok ()
  | cons other rest ih =>
      have there : chain[second]? = some other := by
        rw [← List.head?_drop, tail]
        rfl
      have next : chain.drop (second + 1) = rest := by
        rw [← List.tail_drop, tail]
        rfl
      unfold checkDuplicatesOf
      cases same : sameCertificate cert other with
      | true => exact accounted_error ⟨after, cert, located, other, there, same⟩
      | false => exact ih (Nat.lt_succ_of_lt after) next

theorem checkDuplicates_accounted {first : Nat} (certs : List Certificate)
    (tail : chain.drop first = certs) :
    Accounted (Blame der policy verifier chain anchors) (checkDuplicates first certs) := by
  induction certs generalizing first with
  | nil => exact Walk.avoids_ok ()
  | cons cert rest ih =>
      have located : chain[first]? = some cert := by
        rw [← List.head?_drop, tail]
        rfl
      have next : chain.drop (first + 1) = rest := by
        rw [← List.tail_drop, tail]
        rfl
      apply (checkDuplicatesOf_accounted located (Nat.lt_succ_self first) rest next).bind
      intro _ _
      exact ih next

theorem checkOidConsistency_accounted {first : Nat} (certs : List Certificate)
    (tail : chain.drop first = certs) :
    Accounted (Blame der policy verifier chain anchors) (checkOidConsistency first certs) := by
  induction certs generalizing first with
  | nil => exact Walk.avoids_ok ()
  | cons cert rest ih =>
      have located : chain[first]? = some cert := by
        rw [← List.head?_drop, tail]
        rfl
      have next : chain.drop (first + 1) = rest := by
        rw [← List.tail_drop, tail]
        rfl
      unfold checkOidConsistency
      split
      · exact ih next
      · rename_i differ
        exact accounted_error ⟨cert, located, .algorithms differ⟩

theorem tryAnchors_accounted {leaf lastCert : Certificate} (first : chain.head? = some leaf)
    (last : chain.getLast? = some lastCert) :
    Accounted (Blame der policy verifier chain anchors)
      (tryAnchors der policy verifier chain leaf lastCert 0 .noTrustedPath anchors) := by
  intro failure failed
  apply not_not_intro
  have kept := (tryAnchors_error_iff.mp failed).2
  cases chosen : lastCandidate lastCert anchors with
  | none =>
      rw [chosen] at kept
      subst kept
      refine .inr (.inr ⟨lastCert, last, ?_⟩)
      intro anchor member
      rw [← Bool.not_eq_true]
      intro candidate
      rcases lastCandidate_isSome member candidate with ⟨other, found⟩
      rw [chosen] at found
      cases found
  | some anchor =>
      rw [chosen] at kept
      have member : anchor ∈ anchors := (List.mem_filter.mp (List.mem_of_getLast? chosen)).1
      exact (chainWalk_accounted member first).blamed kept

theorem validatePath_accounted :
    Accounted (Blame der policy verifier chain anchors)
      (validatePath der policy verifier chain anchors) := by
  have inputs : Accounted (Blame der policy verifier chain anchors)
      (checkInputs chain anchors) := by
    unfold checkInputs
    split
    · rename_i empty
      apply accounted_error
      simp only [Bool.or_eq_true, List.isEmpty_iff] at empty
      exact empty.imp id .inl
    · exact checkDuplicates_accounted chain rfl
  have short : Accounted (Blame der policy verifier chain anchors)
      (checkMaxPathLen policy chain) := by
    apply requireThat_accounted
    intro long
    exact .inl (Nat.not_le.mp (of_decide_eq_false long))
  apply inputs.bind
  intro _ _
  apply (checkOidConsistency_accounted chain rfl).bind
  intro _ _
  apply short.bind
  intro _ _
  cases chain with
  | nil => exact accounted_error (.inl rfl)
  | cons leaf upper =>
      cases last : (leaf :: upper).getLast? with
      | none => simp at last
      | some lastCert =>
          simp only [List.head?_cons]
          exact tryAnchors_accounted rfl last

end Walk

/-- Every error that the validator gives is the fault of the certificate that it names, tried
from some anchor where the check depends on one. -/
theorem validatePath_error_blames (der : DerCodec) (policy : ValidationPolicy)
    (verifier : SignatureVerifier) (chain : List Certificate) (anchors : List TrustAnchor)
    (failure : Error) (failed : validatePath der policy verifier chain anchors = .error failure) :
    Blame der policy verifier chain anchors failure :=
  validatePath_accounted.blamed failed

open Concrete in
/-- In 1970 the CA of the chain is not valid yet. -/
theorem validatePath_error_blames_example :
    Blame (policyCodec [[testPolicy 1]]) (ValidationPolicy.new 0) keyCopyVerifier
      (policyChain [testPolicy 1] [testPolicy 1]) policyAnchors (.validityPeriod 1) := by
  apply validatePath_error_blames
  decide +kernel

end Pkix.Path
