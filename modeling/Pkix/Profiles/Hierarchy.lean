import Pkix.Path.Relaxation
import Pkix.Profiles.ProfilePolicies

/-! Which profiles overlay which: the chains of one are always chains of the other. -/

namespace Pkix.Profiles

open Pkix.Path

namespace Profile

/-- The profiles that a profile overlays, itself included. -/
def baselines : Profile → List Profile
  | .rfc5280 => [.rfc5280]
  | .basicTls => [.basicTls, .rfc5280]
  | .basicTlsClient => [.basicTlsClient, .rfc5280]
  | .basicSmime => [.basicSmime, .rfc5280]
  | .basicCodeSigning => [.basicCodeSigning, .rfc5280]
  | .basicTimeStamping => [.basicTimeStamping, .rfc5280]
  | .basicOcspResponder => [.basicOcspResponder, .rfc5280]
  | .webPki => [.webPki, .basicTls, .rfc5280]
  | .smime => [.smime, .basicSmime, .rfc5280]
  | .smimeIndividualValidated => [.smimeIndividualValidated, .smime, .basicSmime, .rfc5280]
  | .smimeIndividualValidatedMultipurpose =>
      [.smimeIndividualValidatedMultipurpose, .smime, .basicSmime, .rfc5280]
  | .smimeSponsorValidated => [.smimeSponsorValidated, .smime, .basicSmime, .rfc5280]
  | .smimeSponsorValidatedMultipurpose =>
      [.smimeSponsorValidatedMultipurpose, .smime, .basicSmime, .rfc5280]
  | .codeSigning => [.codeSigning, .basicCodeSigning, .rfc5280]

def all : List Profile :=
  [.rfc5280, .basicTls, .basicTlsClient, .basicSmime, .basicCodeSigning, .basicTimeStamping,
   .basicOcspResponder, .webPki, .smime, .smimeIndividualValidated,
   .smimeIndividualValidatedMultipurpose, .smimeSponsorValidated,
   .smimeSponsorValidatedMultipurpose, .codeSigning]

theorem mem_all (profile : Profile) : profile ∈ all := by
  cases profile <;> decide

end Profile

section Order

variable (nowUnix : Nat)

/-- Every requirement of the laxer policy is one of the stricter policy, word for word. -/
theorem stricter_of_fields {strict lax : ValidationPolicy}
    (maxPathLen : strict.maxPathLen = lax.maxPathLen)
    (current : strict.currentTimeUnix = lax.currentTimeUnix)
    (keyUsage : strict.enforceKeyUsage = lax.enforceKeyUsage)
    (crlSign : strict.requireCrlSignOnCas = lax.requireCrlSignOnCas)
    (lifetime : lax.maxValiditySecs = none ∨ lax.maxValiditySecs = strict.maxValiditySecs)
    (algorithms : lax.allowedSignatureAlgs = none ∨
      lax.allowedSignatureAlgs = strict.allowedSignatureAlgs)
    (keySize : lax.minRsaKeyBits = none ∨ lax.minRsaKeyBits = strict.minRsaKeyBits)
    (san : lax.requireSubjectAltName = true → strict.requireSubjectAltName = true)
    (rfc822San : lax.requireRfc822San = true → strict.requireRfc822San = true)
    (eku : lax.requiredLeafEku = none ∨ lax.requiredLeafEku = strict.requiredLeafEku)
    (policyOids : lax.requiredLeafPolicyOids = none)
    (dnAttrs : lax.requiredLeafSubjectDnAttrs = none) : Stricter strict lax := by
  have bound {α : Type} {wanted own : Option α} (either : wanted = none ∨ wanted = own)
      (value : α) (asked : wanted = some value) : own = some value := by
    rcases either with absent | same
    · rw [absent] at asked
      cases asked
    · rw [← same, asked]
  exact
    { maxPathLen := Nat.le_of_eq maxPathLen
      current := current
      keyUsage := fun asked => keyUsage.trans asked
      crlSign := fun asked => crlSign.trans asked
      lifetime := fun value asked => ⟨value, bound lifetime value asked, Nat.le_refl _⟩
      algorithms := fun value asked => ⟨value, bound algorithms value asked, List.Subset.refl _⟩
      keySize := fun value asked => ⟨value, bound keySize value asked, Nat.le_refl _⟩
      san := san
      rfc822San := rfc822San
      eku := fun value asked => ⟨value, bound eku value asked, List.Subset.refl _⟩
      policyOids := fun value asked => by simp [policyOids] at asked
      dnAttrs := fun value asked => by simp [dnAttrs] at asked }

theorem stricter_of_mem_baselines {a b : Profile} (listed : b ∈ a.baselines) :
    Stricter (a.policy nowUnix) (b.policy nowUnix) := by
  by_cases same : a = b
  · rw [same]
    exact Stricter.refl _
  · cases a <;> simp [Profile.baselines] at listed <;>
      rcases listed with rfl | rfl | rfl | rfl <;>
      first
        | exact absurd rfl same
        | (apply stricter_of_fields <;>
            simp [Profile.policy, rfc5280Policy, basicTlsPolicy, basicTlsClientPolicy,
              basicSmimePolicy, basicCodeSigningPolicy, basicTimeStampingPolicy,
              basicOcspResponderPolicy, webPkiPolicy, smimePolicy, smimeIndividualPolicy,
              smimeIndividualMultipurposePolicy, smimeSponsorPolicy,
              smimeSponsorMultipurposePolicy, codeSigningPolicy, ValidationPolicy.new])

end Order

section Samples

open Concrete

/-- What a leaf shows of itself. -/
structure Sample where
  ekus : List ObjectIdentifier
  altName : Option GeneralName
  policies : List ObjectIdentifier
  subject : Name
  algorithm : ObjectIdentifier
  notAfter : DateTime

def mailbox : GeneralName := .rfc822Name ⟨[97, 64, 98], by simp⟩

def hostName : GeneralName := dnsName [97] (by simp)

def ekuContent (ekus : List ObjectIdentifier) : Bytes := tlv 0x30 (ekus.flatMap encodeOid)

def altNameContent : GeneralName → Bytes
  | .rfc822Name text => tlv 0x30 (tlv 0x81 text.bytes)
  | .dnsName text => tlv 0x30 (tlv 0x82 text.bytes)
  | _ => []

def sha1WithRsa : ObjectIdentifier := ⟨[1, 2, 840, 113549, 1, 1, 5]⟩

def namePart (oid : ObjectIdentifier) : RelativeDistinguishedName :=
  [⟨oid, ⟨.utf8String, [67]⟩⟩]

def may2027 : DateTime := ⟨2027, 5, 11, 1, 46, 40, 1810000000⟩

def september2026 : DateTime := ⟨2026, 9, 21, 14, 13, 20, 1790000000⟩

def Sample.leaf (sample : Sample) : Certificate :=
  let bare := issue 2 (commonName [65]) sample.subject [1, 2, 3] [6]
    ((if sample.ekus.isEmpty then [] else [⟨oidExtendedKeyUsage, false, ekuContent sample.ekus⟩]) ++
      (sample.altName.map (fun name =>
        (⟨oidSubjectAltName, false, altNameContent name⟩ : Extension))).toList ++
      (if sample.policies.isEmpty then [] else [policiesExtension sample.policies]))
  { bare with
    signatureAlgorithm := ⟨sample.algorithm, none⟩
    tbsCertificate :=
      { bare.tbsCertificate with
        signature := ⟨sample.algorithm, none⟩
        validity := ⟨.utcTime september2026, .utcTime sample.notAfter⟩ } }

/-- A leaf that has what the profile asks for and nothing else. -/
def Profile.sample : Profile → Sample
  | .rfc5280 => ⟨[], none, [], commonName [67], sha1WithRsa, newYear2035⟩
  | .basicTls => ⟨[idKpServerAuth], some hostName, [], commonName [67], sha1WithRsa, newYear2035⟩
  | .basicTlsClient => ⟨[idKpClientAuth], none, [], commonName [67], sha1WithRsa, newYear2035⟩
  | .basicSmime =>
      ⟨[idKpEmailProtection], some mailbox, [], commonName [67], sha1WithRsa, newYear2035⟩
  | .basicCodeSigning => ⟨[idKpCodeSigning], none, [], commonName [67], sha1WithRsa, newYear2035⟩
  | .basicTimeStamping => ⟨[idKpTimeStamping], none, [], commonName [67], sha1WithRsa, newYear2035⟩
  | .basicOcspResponder =>
      ⟨[idKpOcspSigning], none, [], commonName [67], sha1WithRsa, newYear2035⟩
  | .webPki => ⟨[idKpServerAuth], some hostName, [], commonName [67], ecdsaWithSha256, newYear2035⟩
  | .smime => ⟨[idKpEmailProtection], some mailbox, [], commonName [67], ecdsaWithSha256, may2027⟩
  | .smimeIndividualValidated =>
      ⟨[idKpEmailProtection], some mailbox, [cabfSmimeIndividualValidatedStrictPolicy],
        [namePart oidPseudonym], ecdsaWithSha256, may2027⟩
  | .smimeIndividualValidatedMultipurpose =>
      ⟨[idKpEmailProtection], some mailbox, [cabfSmimeIndividualValidatedMultipurposePolicy],
        [namePart oidPseudonym], ecdsaWithSha256, may2027⟩
  | .smimeSponsorValidated =>
      ⟨[idKpEmailProtection], some mailbox, [cabfSmimeSponsorValidatedStrictPolicy],
        [namePart oidOrganizationName, namePart oidOrganizationIdentifier, namePart oidPseudonym],
        ecdsaWithSha256, may2027⟩
  | .smimeSponsorValidatedMultipurpose =>
      ⟨[idKpEmailProtection], some mailbox, [cabfSmimeSponsorValidatedMultipurposePolicy],
        [namePart oidOrganizationName, namePart oidOrganizationIdentifier, namePart oidPseudonym],
        ecdsaWithSha256, may2027⟩
  | .codeSigning => ⟨[idKpCodeSigning], none, [], commonName [67], ecdsaWithSha256, may2027⟩

def singleEkus : List (List ObjectIdentifier) :=
  [[idKpServerAuth], [idKpClientAuth], [idKpCodeSigning], [idKpEmailProtection],
   [idKpTimeStamping], [idKpOcspSigning]]

def sampleCodec : DerCodec :=
  { tableCodec
      { subjectAltName := [mailbox, hostName].map (fun name => (altNameContent name, [name]))
        certificatePolicies := policiesTable
          [[cabfSmimeIndividualValidatedStrictPolicy],
           [cabfSmimeIndividualValidatedMultipurposePolicy],
           [cabfSmimeSponsorValidatedStrictPolicy],
           [cabfSmimeSponsorValidatedMultipurposePolicy]] } with
    extendedKeyUsage := ((singleEkus.map (fun ekus => (ekuContent ekus, ekus))).lookup ·) }

def Profile.validatesSampleOf (profile other : Profile) : Bool :=
  (validatePath sampleCodec (profile.policy 1800000000) keyCopyVerifier [other.sample.leaf]
    policyAnchors).toOption.isSome

/-- The sample of a profile tells it from every profile that it does not overlay. -/
theorem sample_separates :
    ∀ a ∈ Profile.all, a.validatesSampleOf a = true ∧
      ∀ b ∈ Profile.all, b ∉ a.baselines → b.validatesSampleOf a = false := by
  decide +kernel

end Samples

/-- A profile overlays another exactly when the other validates every chain that it does, to
the same path. -/
theorem overlays_iff_validates (a b : Profile) :
    b ∈ a.baselines ↔
      ∀ (der : DerCodec) (verifier : SignatureVerifier) (chain : List Certificate)
        (anchors : List TrustAnchor) (nowUnix : Nat) (path : ValidatedPath),
        validatePath der (a.policy nowUnix) verifier chain anchors = .ok path →
        validatePath der (b.policy nowUnix) verifier chain anchors = .ok path := by
  constructor
  · intro listed der verifier chain anchors nowUnix path accepted
    rcases a.policy_inputs nowUnix with ⟨explicitPolicy, anyPolicy, mapping, policySet⟩
    rcases b.policy_inputs nowUnix with ⟨explicitPolicy', anyPolicy', mapping', policySet'⟩
    have shared : SamePolicyInputs (a.policy nowUnix) (b.policy nowUnix) :=
      ⟨explicitPolicy.trans explicitPolicy'.symm, anyPolicy.trans anyPolicy'.symm,
        mapping.trans mapping'.symm, policySet.trans policySet'.symm⟩
    have stricter := stricter_of_mem_baselines nowUnix listed
    exact validatePath_exchange shared ((meets_of_validatePath accepted).relax stricter) accepted
  · intro follows
    by_contra unlisted
    rcases sample_separates a a.mem_all with ⟨own, others⟩
    have rejected := others b b.mem_all unlisted
    rcases Concrete.ok_of_isSome own with ⟨path, accepted⟩
    have validated := follows _ _ _ _ _ path accepted
    unfold Profile.validatesSampleOf at rejected
    rw [validated] at rejected
    cases rejected

end Pkix.Profiles
