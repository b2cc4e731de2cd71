import Pkix.Revocation.CrlFacts
import Pkix.Revocation.ConcreteCrl

/-! The issuer a CRL vouches for. Both entry points compare the certificate's issuer with
that of the CRL, one directly and one through the anchor's name, except for a CRL whose
signer was discovered: there no name ties the CRL to the certificate. -/

namespace Pkix.Revocation

open Pkix.Path

section Covers

variable {der : CrlCodec} {checker : CrlChecker} {cert : Certificate}

def CoversIssuer (der : CrlCodec) (checker : CrlChecker) (cert : Certificate) : Prop :=
  namesMatch cert.tbsCertificate.issuer checker.crl.tbsCertList.issuer = true ∨
    ∃ idp, parseIssuingDp der checker.crl = .ok (some idp) ∧ idp.indirectCrl = true

/-- A direct CRL of another issuer whose discovered signer passes every check, for a
certificate whose issuer is called by the name given. -/
structure ForeignDirect (der : CrlCodec) (checker : CrlChecker) (cert : Certificate)
    (issuerName : Name) (signer : Certificate) (parsedIdp : Option IssuingDistributionPoint)
    (deltaEntries : List RevokedCert) : Prop where
  discovered : checker.signerDiscovered = true
  stored : checker.crlIssuerCert = some signer
  foreign : namesMatch cert.tbsCertificate.issuer checker.crl.tbsCertList.issuer = false
  direct : declaresIndirect parsedIdp = false
  parsed : parseIssuingDp der checker.crl = .ok parsedIdp
  signerNamed : namesMatch checker.crl.tbsCertList.issuer signer.tbsCertificate.subject = true
  issuerNamed : namesMatch issuerName cert.tbsCertificate.issuer = true
  crlSign : checkCrlSign der signer = .ok ()
  window : checkCrlWindow checker.nowUnix checker.crl = .ok ()
  signed : verifyCrlSignature der checker.verifier checker.crl
    signer.tbsCertificate.subjectPublicKeyInfo = .ok ()
  scope : checkScope der cert parsedIdp signer.tbsCertificate.subject = .ok ()
  delta : collectDeltaEntries der checker (certSigner signer) = .ok deltaEntries
  unlisted : checkRevocationStatusIndirect der cert deltaEntries checker.crl true = .ok ()

def AcceptsForeignDirect (der : CrlCodec) (checker : CrlChecker) (cert : Certificate)
    (issuerName : Name) : Prop :=
  ∃ signer parsedIdp deltaEntries,
    ForeignDirect der checker cert issuerName signer parsedIdp deltaEntries

theorem declaresIndirect_iff {parsedIdp : Option IssuingDistributionPoint} :
    declaresIndirect parsedIdp = true ↔ ∃ idp, parsedIdp = some idp ∧ idp.indirectCrl = true := by
  cases parsedIdp <;> simp [declaresIndirect]

theorem coversIssuer_iff {parsedIdp : Option IssuingDistributionPoint}
    (parsed : parseIssuingDp der checker.crl = .ok parsedIdp) :
    CoversIssuer der checker cert ↔
      namesMatch cert.tbsCertificate.issuer checker.crl.tbsCertList.issuer = true ∨
        declaresIndirect parsedIdp = true := by
  unfold CoversIssuer
  rw [parsed, declaresIndirect_iff]
  simp

theorem not_covers_of_foreignDirect {issuerName : Name}
    (accepts : AcceptsForeignDirect der checker cert issuerName) :
    ¬CoversIssuer der checker cert := by
  rcases accepts with ⟨signer, parsedIdp, deltaEntries, accepts⟩
  rw [coversIssuer_iff accepts.parsed, accepts.foreign, accepts.direct]
  simp

/-- Without a signer of its own the CRL names the certificate's issuer, and an explicit
signer needs an indirect CRL. -/
theorem covers_or_foreignDirect {direct : Signer}
    (accepted : Settles der checker cert direct .notRevoked) :
    CoversIssuer der checker cert ∨ AcceptsForeignDirect der checker cert direct.subject := by
  rcases accepted with ⟨parsedIdp, signer, admits, tail⟩
  by_cases covers : CoversIssuer der checker cert
  · exact .inl covers
  · apply Or.inr
    rw [coversIssuer_iff admits.parsed] at covers
    rcases not_or.mp covers with ⟨otherName, notIndirect⟩
    rcases selectSigner_ok_iff.mp admits.selected with
      ⟨stored, isStored, chosen, isSigner⟩ | ⟨noStored, _, _⟩
    · have discovered := chosen.resolve_left notIndirect
      rw [isSigner] at tail
      rcases (checkAgainstSigner_verdict_iff (by decide)).mp tail with
        ⟨window, signed, scope, deltaEntries, delta, unlisted⟩
      rw [isStored] at unlisted
      have signerNamed := admits.signerNamed
      have crlSign := admits.crlSign
      rw [isSigner] at signerNamed crlSign
      exact ⟨stored, parsedIdp, deltaEntries, discovered, isStored,
        Bool.eq_false_iff.mpr otherName, Bool.eq_false_iff.mpr notIndirect, admits.parsed,
        signerNamed, admits.issuerNamed, crlSign, window, signed, scope, delta,
        verdict_notRevoked_iff.mp unlisted⟩
    · have compared := admits.covered
      rw [noStored] at compared
      exact absurd compared otherName

theorem settles_of_foreignDirect {direct : Signer}
    (accepts : AcceptsForeignDirect der checker cert direct.subject) :
    Settles der checker cert direct .notRevoked := by
  rcases accepts with ⟨signer, parsedIdp, deltaEntries, accepts⟩
  have selected : selectSigner checker (declaresIndirect parsedIdp) direct =
      .ok (certSigner signer) :=
    selectSigner_ok_iff.mpr (.inl ⟨signer, accepts.stored, .inr accepts.discovered, rfl⟩)
  have covered : (checker.crlIssuerCert.isSome || namesMatch cert.tbsCertificate.issuer
      checker.crl.tbsCertList.issuer) = true := by
    rw [accepts.stored]
    rfl
  have unlisted : verdict (checkRevocationStatusIndirect der cert deltaEntries checker.crl
      checker.crlIssuerCert.isSome) = .notRevoked := by
    rw [accepts.stored]
    exact verdict_notRevoked_iff.mpr accepts.unlisted
  have tail : verdict (checkAgainstSigner der checker cert parsedIdp (certSigner signer)) =
      .notRevoked :=
    (checkAgainstSigner_verdict_iff (by decide)).mpr
      ⟨accepts.window, accepts.signed, accepts.scope, deltaEntries, accepts.delta, unlisted⟩
  exact ⟨parsedIdp, certSigner signer,
    ⟨accepts.parsed, selected, accepts.signerNamed, accepts.issuerNamed, covered,
      accepts.crlSign⟩, tail⟩

/-- The other constructors leave the flag clear, so their checkers vouch for no issuer but
the one the CRL covers. -/
theorem covers_issuer_of_not_discovered (clear : checker.signerDiscovered = false) :
    (∀ issuer, checkRevocation der checker cert issuer = .ok () →
      CoversIssuer der checker cert) ∧
    (∀ anchor, checkRevocationAgainstAnchor der checker cert anchor = .ok () →
      CoversIssuer der checker cert) := by
  have noForeign : ∀ issuerName, ¬AcceptsForeignDirect der checker cert issuerName := by
    intro issuerName accepts
    rcases accepts with ⟨signer, parsedIdp, deltaEntries, accepts⟩
    have discovered := accepts.discovered
    rw [clear] at discovered
    cases discovered
  constructor
  · intro issuer accepted
    exact (covers_or_foreignDirect (checkRevocation_ok_iff.mp accepted)).resolve_right
      (noForeign _)
  · intro anchor accepted
    exact (covers_or_foreignDirect
      (checkRevocationAgainstAnchor_ok_iff.mp accepted)).resolve_right (noForeign _)

/-- A CRL vouches for the issuer it covers unless its signer was discovered and passes for
a direct CRL of another issuer. -/
theorem crl_covers_issuer_iff (der : CrlCodec) (checker : CrlChecker) (cert : Certificate) :
    (∀ issuer, (checkRevocation der checker cert issuer = .ok () →
        CoversIssuer der checker cert) ↔
      ¬AcceptsForeignDirect der checker cert issuer.tbsCertificate.subject) ∧
    (∀ anchor, (checkRevocationAgainstAnchor der checker cert anchor = .ok () →
        CoversIssuer der checker cert) ↔
      ¬AcceptsForeignDirect der checker cert anchor.subject) := by
  have exactAt : ∀ direct : Signer,
      (Settles der checker cert direct .notRevoked → CoversIssuer der checker cert) ↔
        ¬AcceptsForeignDirect der checker cert direct.subject := by
    intro direct
    constructor
    · intro covers accepts
      exact not_covers_of_foreignDirect accepts (covers (settles_of_foreignDirect accepts))
    · intro noForeign accepted
      exact (covers_or_foreignDirect accepted).resolve_right noForeign
  constructor
  · intro issuer
    rw [checkRevocation_ok_iff]
    exact exactAt (certSigner issuer)
  · intro anchor
    rw [checkRevocationAgainstAnchor_ok_iff]
    exact exactAt (anchorSigner anchor)

end Covers

namespace Foreign

open Pkix.Path.Concrete
open Pkix.Revocation.Concrete

def signer : Certificate :=
  issue 1 (commonName [65]) (commonName [65]) [1, 2, 3] [1, 2, 3] [caExtension]

def otherIssuer : Certificate :=
  issue 1 (commonName [66]) (commonName [66]) [4, 5] [4, 5] [caExtension]

def leaf : Certificate := issue 2 (commonName [66]) (commonName [67]) [4, 5] [6] []

def crl : CertificateList := crlBy (commonName [65]) [1, 2, 3] [] []

def codec : CrlCodec := crlCodec { basicConstraints := caTable, crls := [crl] }

def checker : CrlChecker :=
  { crl, deltaCrl := none, crlIssuerCert := some signer, signerDiscovered := true
    nowUnix := summer2026, verifier := keyCopyVerifier }

end Foreign

theorem foreign_direct_crl_accepted :
    ∃ checker,
      CrlChecker.newWithSignerDiscovery Foreign.codec Concrete.summer2026
        Path.Concrete.keyCopyVerifier (Concrete.encodeCertificateList Foreign.crl)
        [Foreign.signer] Foreign.leaf = .ok checker ∧
      checkRevocation Foreign.codec checker Foreign.leaf Foreign.otherIssuer = .ok () ∧
      ¬CoversIssuer Foreign.codec checker Foreign.leaf := by
  have noIdp : parseIssuingDp Foreign.codec Foreign.checker.crl = .ok none := by
    decide +kernel
  refine ⟨Foreign.checker, by rfl, by decide +kernel, ?_⟩
  rw [coversIssuer_iff noIdp]
  decide +kernel

end Pkix.Revocation
