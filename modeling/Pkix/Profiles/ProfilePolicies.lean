import Pkix.Path.ChainWalk

/-! The validation policies of the bundled profiles: the RFC baselines and the overlays of the
CA/Browser Forum. -/

namespace Pkix.Profiles

open Pkix.Path

section Identifiers

def idKpServerAuth : ObjectIdentifier := ⟨[1, 3, 6, 1, 5, 5, 7, 3, 1]⟩
def idKpClientAuth : ObjectIdentifier := ⟨[1, 3, 6, 1, 5, 5, 7, 3, 2]⟩
def idKpCodeSigning : ObjectIdentifier := ⟨[1, 3, 6, 1, 5, 5, 7, 3, 3]⟩
def idKpEmailProtection : ObjectIdentifier := ⟨[1, 3, 6, 1, 5, 5, 7, 3, 4]⟩
def idKpTimeStamping : ObjectIdentifier := ⟨[1, 3, 6, 1, 5, 5, 7, 3, 8]⟩
def idKpOcspSigning : ObjectIdentifier := ⟨[1, 3, 6, 1, 5, 5, 7, 3, 9]⟩

def sha256WithRsa : ObjectIdentifier := ⟨[1, 2, 840, 113549, 1, 1, 11]⟩
def sha384WithRsa : ObjectIdentifier := ⟨[1, 2, 840, 113549, 1, 1, 12]⟩
def sha512WithRsa : ObjectIdentifier := ⟨[1, 2, 840, 113549, 1, 1, 13]⟩
def ecdsaWithSha256 : ObjectIdentifier := ⟨[1, 2, 840, 10045, 4, 3, 2]⟩
def ecdsaWithSha384 : ObjectIdentifier := ⟨[1, 2, 840, 10045, 4, 3, 3]⟩
def ecdsaWithSha512 : ObjectIdentifier := ⟨[1, 2, 840, 10045, 4, 3, 4]⟩

def cabfTlsBrAllowedAlgs : List ObjectIdentifier :=
  [sha256WithRsa, sha384WithRsa, sha512WithRsa, ecdsaWithSha256, ecdsaWithSha384, ecdsaWithSha512]

def cabfSmimeBrAllowedAlgs : List ObjectIdentifier :=
  [sha256WithRsa, sha384WithRsa, sha512WithRsa, ecdsaWithSha256, ecdsaWithSha384, ecdsaWithSha512]

def cabfCsBrAllowedAlgs : List ObjectIdentifier :=
  [sha256WithRsa, sha384WithRsa, sha512WithRsa, ecdsaWithSha256, ecdsaWithSha384, ecdsaWithSha512]

def oidSurname : ObjectIdentifier := ⟨[2, 5, 4, 4]⟩
def oidOrganizationName : ObjectIdentifier := ⟨[2, 5, 4, 10]⟩
def oidGivenName : ObjectIdentifier := ⟨[2, 5, 4, 42]⟩
def oidPseudonym : ObjectIdentifier := ⟨[2, 5, 4, 65]⟩
def oidOrganizationIdentifier : ObjectIdentifier := ⟨[2, 5, 4, 97]⟩

def cabfSmimeSponsorValidatedStrictPolicy : ObjectIdentifier := ⟨[2, 23, 140, 1, 5, 3, 3]⟩
def cabfSmimeIndividualValidatedStrictPolicy : ObjectIdentifier := ⟨[2, 23, 140, 1, 5, 4, 3]⟩
def cabfSmimeIndividualValidatedMultipurposePolicy : ObjectIdentifier :=
  ⟨[2, 23, 140, 1, 5, 4, 2]⟩
def cabfSmimeSponsorValidatedMultipurposePolicy : ObjectIdentifier := ⟨[2, 23, 140, 1, 5, 3, 2]⟩

def secsPerDay : Nat := 86400

end Identifiers

section Baselines

variable (nowUnix : Nat)

def rfc5280Policy : ValidationPolicy := .new nowUnix

def basicTlsPolicy : ValidationPolicy :=
  { ValidationPolicy.new nowUnix with
    requireSubjectAltName := true
    requiredLeafEku := some [idKpServerAuth] }

/-- No SubjectAltName is required: the identity may stand in the subject. -/
def basicTlsClientPolicy : ValidationPolicy :=
  { ValidationPolicy.new nowUnix with
    requiredLeafEku := some [idKpClientAuth] }

def basicSmimePolicy : ValidationPolicy :=
  { ValidationPolicy.new nowUnix with
    requiredLeafEku := some [idKpEmailProtection]
    requireSubjectAltName := true
    requireRfc822San := true }

def basicCodeSigningPolicy : ValidationPolicy :=
  { ValidationPolicy.new nowUnix with
    requiredLeafEku := some [idKpCodeSigning] }

def basicTimeStampingPolicy : ValidationPolicy :=
  { ValidationPolicy.new nowUnix with
    requiredLeafEku := some [idKpTimeStamping] }

def basicOcspResponderPolicy : ValidationPolicy :=
  { ValidationPolicy.new nowUnix with
    requiredLeafEku := some [idKpOcspSigning] }

end Baselines

section Overlays

variable (nowUnix : Nat)

/-- The cap on the lifetime is left to the lints. -/
def webPkiPolicy : ValidationPolicy :=
  { ValidationPolicy.new nowUnix with
    allowedSignatureAlgs := some cabfTlsBrAllowedAlgs
    minRsaKeyBits := some 2048
    requireSubjectAltName := true
    requiredLeafEku := some [idKpServerAuth] }

def smimePolicy : ValidationPolicy :=
  { ValidationPolicy.new nowUnix with
    maxValiditySecs := some (825 * secsPerDay)
    allowedSignatureAlgs := some cabfSmimeBrAllowedAlgs
    minRsaKeyBits := some 2048
    requireSubjectAltName := true
    requireRfc822San := true
    requiredLeafEku := some [idKpEmailProtection] }

def individualRule : DnAttrRule :=
  .anyOf [.field oidPseudonym, .allOf [.field oidGivenName, .field oidSurname]]

def sponsorRule : DnAttrRule :=
  .allOf [.field oidOrganizationName, .field oidOrganizationIdentifier,
    .anyOf [.field oidPseudonym, .allOf [.field oidGivenName, .field oidSurname]]]

def smimeIndividualPolicy : ValidationPolicy :=
  { ValidationPolicy.new nowUnix with
    maxValiditySecs := some (825 * secsPerDay)
    allowedSignatureAlgs := some cabfSmimeBrAllowedAlgs
    minRsaKeyBits := some 2048
    requireSubjectAltName := true
    requireRfc822San := true
    requiredLeafEku := some [idKpEmailProtection]
    requiredLeafPolicyOids := some [cabfSmimeIndividualValidatedStrictPolicy]
    requiredLeafSubjectDnAttrs := some individualRule }

def smimeIndividualMultipurposePolicy : ValidationPolicy :=
  { ValidationPolicy.new nowUnix with
    maxValiditySecs := some (825 * secsPerDay)
    allowedSignatureAlgs := some cabfSmimeBrAllowedAlgs
    minRsaKeyBits := some 2048
    requireSubjectAltName := true
    requireRfc822San := true
    requiredLeafEku := some [idKpEmailProtection]
    requiredLeafPolicyOids := some [cabfSmimeIndividualValidatedMultipurposePolicy]
    requiredLeafSubjectDnAttrs := some individualRule }

def smimeSponsorPolicy : ValidationPolicy :=
  { ValidationPolicy.new nowUnix with
    maxValiditySecs := some (825 * secsPerDay)
    allowedSignatureAlgs := some cabfSmimeBrAllowedAlgs
    minRsaKeyBits := some 2048
    requireSubjectAltName := true
    requireRfc822San := true
    requiredLeafEku := some [idKpEmailProtection]
    requiredLeafPolicyOids := some [cabfSmimeSponsorValidatedStrictPolicy]
    requiredLeafSubjectDnAttrs := some sponsorRule }

def smimeSponsorMultipurposePolicy : ValidationPolicy :=
  { ValidationPolicy.new nowUnix with
    maxValiditySecs := some (825 * secsPerDay)
    allowedSignatureAlgs := some cabfSmimeBrAllowedAlgs
    minRsaKeyBits := some 2048
    requireSubjectAltName := true
    requireRfc822San := true
    requiredLeafEku := some [idKpEmailProtection]
    requiredLeafPolicyOids := some [cabfSmimeSponsorValidatedMultipurposePolicy]
    requiredLeafSubjectDnAttrs := some sponsorRule }

def codeSigningPolicy : ValidationPolicy :=
  { ValidationPolicy.new nowUnix with
    maxValiditySecs := some (460 * secsPerDay)
    allowedSignatureAlgs := some cabfCsBrAllowedAlgs
    minRsaKeyBits := some 3072
    requireSubjectAltName := false
    requiredLeafEku := some [idKpCodeSigning] }

end Overlays

inductive Profile
  | rfc5280
  | basicTls
  | basicTlsClient
  | basicSmime
  | basicCodeSigning
  | basicTimeStamping
  | basicOcspResponder
  | webPki
  | smime
  | smimeIndividualValidated
  | smimeIndividualValidatedMultipurpose
  | smimeSponsorValidated
  | smimeSponsorValidatedMultipurpose
  | codeSigning
  deriving DecidableEq, Repr

namespace Profile

def policy : Profile → (nowUnix : Nat) → ValidationPolicy
  | .rfc5280 => rfc5280Policy
  | .basicTls => basicTlsPolicy
  | .basicTlsClient => basicTlsClientPolicy
  | .basicSmime => basicSmimePolicy
  | .basicCodeSigning => basicCodeSigningPolicy
  | .basicTimeStamping => basicTimeStampingPolicy
  | .basicOcspResponder => basicOcspResponderPolicy
  | .webPki => webPkiPolicy
  | .smime => smimePolicy
  | .smimeIndividualValidated => smimeIndividualPolicy
  | .smimeIndividualValidatedMultipurpose => smimeIndividualMultipurposePolicy
  | .smimeSponsorValidated => smimeSponsorPolicy
  | .smimeSponsorValidatedMultipurpose => smimeSponsorMultipurposePolicy
  | .codeSigning => codeSigningPolicy

/-- A profile only adds requirements: the policy processing starts as RFC 5280 has it. -/
theorem policy_inputs (profile : Profile) (nowUnix : Nat) :
    (profile.policy nowUnix).initialExplicitPolicy = false ∧
    (profile.policy nowUnix).initialAnyPolicyInhibit = false ∧
    (profile.policy nowUnix).initialPolicyMappingInhibit = false ∧
    (profile.policy nowUnix).initialPolicySet = [] := by
  cases profile <;> exact ⟨rfl, rfl, rfl, rfl⟩

end Profile

end Pkix.Profiles
