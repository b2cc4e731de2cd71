import Pkix.Revocation.CrlFacts
import Pkix.Revocation.ConcreteOcsp

/-! The two entry points of a checker, for an issuer certificate and for the trust anchor
with its name and key: they differ in the KeyUsage an anchor does not have. -/

namespace Pkix.Revocation

open Pkix.Path

def anchorOf (issuer : Certificate) : TrustAnchor :=
  { subject := issuer.tbsCertificate.subject
    subjectPublicKeyInfo := issuer.tbsCertificate.subjectPublicKeyInfo
    nameConstraints := none }

/-- KeyUsage is absent or has cRLSign set. -/
def MaySignCrls (der : CrlCodec) (issuer : Certificate) : Prop :=
  findIn issuer.extensions oidKeyUsageCrl = none ∨
    ∃ extension usage, findIn issuer.extensions oidKeyUsageCrl = some extension ∧
      der.keyUsage extension.extnValue = some usage ∧ usage.crlSign = true

section Crl

variable {der : CrlCodec} {checker : CrlChecker} {cert issuer : Certificate}

theorem checkCrlSign_of_maySignCrls (may : MaySignCrls der issuer) :
    checkCrlSign der issuer = .ok () := by
  unfold checkCrlSign
  rcases may with absent | ⟨extension, usage, located, decoded, signs⟩
  · rw [absent]
  · rw [located]
    dsimp only
    rw [decoded]
    exact requireThat_ok_iff.mpr signs

theorem checkAgainstSigner_sameKey {parsedIdp : Option IssuingDistributionPoint}
    {signer other : Signer} (subject : other.subject = signer.subject)
    (spki : other.spki = signer.spki) :
    checkAgainstSigner der checker cert parsedIdp other =
      checkAgainstSigner der checker cert parsedIdp signer := by
  unfold checkAgainstSigner collectDeltaEntries
  rw [subject, spki]

/-- Two direct issuers of one name and key, the second of which may sign CRLs. -/
theorem settles_of_sameKey {direct other : Signer} {settled : Verdict}
    (subject : other.subject = direct.subject) (spki : other.spki = direct.spki)
    (may : checkSignerCrlSign der other = .ok ())
    (settles : Settles der checker cert direct settled) :
    Settles der checker cert other settled := by
  rcases settles with ⟨parsedIdp, signer, admits, tail⟩
  have issuerNamed : namesMatch other.subject cert.tbsCertificate.issuer = true := by
    rw [subject]
    exact admits.issuerNamed
  rcases selectSigner_ok_iff.mp admits.selected with
    ⟨stored, isStored, chosen, isSigner⟩ | ⟨noStored, isDirectCrl, isSigner⟩
  · have selected : selectSigner checker (declaresIndirect parsedIdp) other = .ok signer :=
      selectSigner_ok_iff.mpr (.inl ⟨stored, isStored, chosen, isSigner⟩)
    exact ⟨parsedIdp, signer, ⟨admits.parsed, selected, admits.signerNamed, issuerNamed,
      admits.covered, admits.crlSign⟩, tail⟩
  · have selected : selectSigner checker (declaresIndirect parsedIdp) other = .ok other :=
      selectSigner_ok_iff.mpr (.inr ⟨noStored, isDirectCrl, rfl⟩)
    have signerNamed := admits.signerNamed
    rw [isSigner, ← subject] at signerNamed
    rw [isSigner, ← checkAgainstSigner_sameKey subject spki] at tail
    exact ⟨parsedIdp, other, ⟨admits.parsed, selected, signerNamed, issuerNamed,
      admits.covered, may⟩, tail⟩

theorem settles_anchorOf_iff {settled : Verdict} (may : MaySignCrls der issuer) :
    Settles der checker cert (anchorSigner (anchorOf issuer)) settled ↔
      Settles der checker cert (certSigner issuer) settled := by
  have subject : (certSigner issuer).subject = (anchorSigner (anchorOf issuer)).subject := rfl
  have spki : (certSigner issuer).spki = (anchorSigner (anchorOf issuer)).spki := rfl
  constructor
  · intro settles
    exact settles_of_sameKey subject spki (checkCrlSign_of_maySignCrls may) settles
  · intro settles
    exact settles_of_sameKey subject.symm spki.symm rfl settles

theorem crl_verdict_anchorOf (may : MaySignCrls der issuer) :
    verdict (checkRevocation der checker cert issuer) =
      verdict (checkRevocationAgainstAnchor der checker cert (anchorOf issuer)) := by
  apply verdict_ext
  intro settled decided
  rw [checkRevocation_verdict_iff decided, checkRevocationAgainstAnchor_verdict_iff decided,
    settles_anchorOf_iff may]

end Crl

theorem ocsp_outcome_anchorOf {der : OcspCodec} {checker : OcspChecker}
    {cert issuer : Certificate} :
    checker.checkRevocation der cert issuer =
      checker.checkRevocationAgainstAnchor der cert (anchorOf issuer) := rfl

/-- Both checkers give one verdict on a certificate, whether its issuer is handed over as a
certificate that may sign CRLs or as the anchor with the same name and key. -/
theorem entry_points_agree (crlDer : CrlCodec) (ocspDer : OcspCodec) (cert issuer : Certificate)
    (may : MaySignCrls crlDer issuer) :
    (∀ checker : CrlChecker, verdict (checkRevocation crlDer checker cert issuer) =
      verdict (checkRevocationAgainstAnchor crlDer checker cert (anchorOf issuer))) ∧
    (∀ checker : OcspChecker, verdict (checker.checkRevocation ocspDer cert issuer) =
      verdict (checker.checkRevocationAgainstAnchor ocspDer cert (anchorOf issuer))) := by
  constructor
  · intro checker
    exact crl_verdict_anchorOf may
  · intro checker
    rw [ocsp_outcome_anchorOf]

namespace SigningIssuer

open Pkix.Path.Concrete
open Pkix.Revocation.Concrete

/-- KeyUsage with keyCertSign and cRLSign. -/
def usageContent : Bytes := [0x03, 0x02, 0x01, 0x06]

def issuer : Certificate :=
  issue 1 (commonName [65]) (commonName [65]) [1, 2, 3] [1, 2, 3]
    [caExtension, ⟨oidKeyUsageCrl, true, usageContent⟩]

def leaf : Certificate := issue 2 (commonName [65]) (commonName [67]) [1, 2, 3] [6] []

def codec : CrlCodec :=
  crlCodec { keyUsage := [(usageContent, ⟨true, true⟩)], basicConstraints := caTable }

def checker : CrlChecker :=
  { crl := crlBy (commonName [65]) [1, 2, 3] [] [], deltaCrl := none, crlIssuerCert := none
    signerDiscovered := false, nowUnix := summer2026, verifier := keyCopyVerifier }

end SigningIssuer

theorem entry_points_agree_example :
    verdict (checkRevocation SigningIssuer.codec SigningIssuer.checker SigningIssuer.leaf
        SigningIssuer.issuer) =
      verdict (checkRevocationAgainstAnchor SigningIssuer.codec SigningIssuer.checker
        SigningIssuer.leaf (anchorOf SigningIssuer.issuer)) :=
  (entry_points_agree SigningIssuer.codec (Concrete.ocspCodec {}) SigningIssuer.leaf
    SigningIssuer.issuer
    (.inr ⟨⟨oidKeyUsageCrl, true, SigningIssuer.usageContent⟩, ⟨true, true⟩, by decide, by decide,
      rfl⟩)).1 SigningIssuer.checker

end Pkix.Revocation
