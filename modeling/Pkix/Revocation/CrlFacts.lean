import Pkix.Revocation.CrlChecker

/-! What a verdict of the CRL checker tells: only the lookup reports a revocation, so a
settled verdict means that every check before it passed. -/

namespace Pkix.Revocation

open Pkix.Path

section Verdicts

def IsRevoked : Error → Prop
  | .revoked _ _ => True
  | _ => False

theorem verdict_notRevoked_iff {outcome : Result Unit} :
    verdict outcome = .notRevoked ↔ outcome = .ok () := by
  cases outcome with
  | ok value => simp [verdict]
  | error failure => cases failure <;> simp [verdict]

theorem verdict_error {failure : Error} (harmless : ¬IsRevoked failure) :
    verdict (.error failure) = .undetermined := by
  cases failure with
  | revoked serial reason => exact absurd trivial harmless
  | _ => rfl

/-- The bind rule: a step that reports no revocation has passed when the verdict is settled. -/
theorem verdict_bind {α : Type} {first : Result α} {next : α → Result Unit} {settled : Verdict}
    (harmless : Walk.Avoids IsRevoked first) (decided : settled ≠ .undetermined) :
    verdict (first >>= next) = settled ↔
      ∃ value, first = .ok value ∧ verdict (next value) = settled := by
  cases first with
  | ok value => simp [bind, Except.bind]
  | error failure =>
      have undetermined : verdict ((.error failure : Result α) >>= next) = .undetermined :=
        verdict_error (harmless failure rfl)
      rw [undetermined]
      simp [decided.symm]

theorem verdict_then {first : Result Unit} {next : Unit → Result Unit} {settled : Verdict}
    (harmless : Walk.Avoids IsRevoked first) (decided : settled ≠ .undetermined) :
    verdict (first >>= next) = settled ↔ first = .ok () ∧ verdict (next ()) = settled := by
  rw [verdict_bind harmless decided]
  constructor
  · intro settles
    rcases settles with ⟨⟨⟩, passed, outcome⟩
    exact ⟨passed, outcome⟩
  · intro settles
    exact ⟨(), settles⟩

/-- Outcomes settled alike have one verdict. -/
theorem verdict_ext {left right : Result Unit}
    (same : ∀ settled, settled ≠ Verdict.undetermined →
      (verdict left = settled ↔ verdict right = settled)) :
    verdict left = verdict right := by
  by_cases here : verdict left = .undetermined
  · by_cases there : verdict right = .undetermined
    · rw [here, there]
    · exact (same _ there).mpr rfl
  · exact ((same _ here).mp rfl).symm

theorem requireThat_harmless {condition : Bool} {failure : Error}
    (harmless : ¬IsRevoked failure) : Walk.Avoids IsRevoked (requireThat condition failure) := by
  unfold requireThat
  split
  · exact Walk.avoids_ok ()
  · exact Walk.avoids_error harmless

theorem issuerMismatch_harmless {condition : Bool} :
    Walk.Avoids IsRevoked (requireThat condition .crlIssuerMismatch) :=
  requireThat_harmless id

theorem orCrlParseError_harmless {α : Type} (outcome : Except DerError α) :
    Walk.Avoids IsRevoked (orCrlParseError outcome) := by
  cases outcome with
  | ok value => exact Walk.avoids_ok value
  | error failure => exact Walk.avoids_error id

end Verdicts

section Harmless

variable {der : CrlCodec} {checker : CrlChecker}

theorem parseIssuingDp_harmless {crl : CertificateList} :
    Walk.Avoids IsRevoked (parseIssuingDp der crl) := by
  unfold parseIssuingDp
  split
  · exact Walk.avoids_ok none
  · exact (orCrlParseError_harmless _).bind fun value _ => Walk.avoids_ok (some value)

theorem selectSigner_harmless {indirect : Bool} {direct : Signer} :
    Walk.Avoids IsRevoked (selectSigner checker indirect direct) := by
  unfold selectSigner
  split
  · exact Walk.avoids_ok _
  · split
    · exact Walk.avoids_ok _
    · exact Walk.avoids_error id
  · exact Walk.avoids_error id
  · exact Walk.avoids_ok _

theorem checkCrlSign_harmless {cert : Certificate} :
    Walk.Avoids IsRevoked (checkCrlSign der cert) := by
  unfold checkCrlSign
  split
  · exact Walk.avoids_ok ()
  · split
    · exact Walk.avoids_error id
    · exact requireThat_harmless id

theorem checkSignerCrlSign_harmless {signer : Signer} :
    Walk.Avoids IsRevoked (checkSignerCrlSign der signer) := by
  unfold checkSignerCrlSign
  split
  · exact Walk.avoids_ok ()
  · exact checkCrlSign_harmless

theorem checkCrlWindow_harmless {nowUnix : Nat} {crl : CertificateList} :
    Walk.Avoids IsRevoked (checkCrlWindow nowUnix crl) := by
  apply (requireThat_harmless id).bind
  intro _ _
  split
  · exact Walk.avoids_error id
  · exact requireThat_harmless id

theorem verifyCrlSignature_harmless {verifier : SignatureVerifier} {crl : CertificateList}
    {spki : SubjectPublicKeyInfo} :
    Walk.Avoids IsRevoked (verifyCrlSignature der verifier crl spki) :=
  (orCrlParseError_harmless _).bind fun _ _ => requireThat_harmless id

theorem certCrlDistributionPoints_harmless {cert : Certificate} :
    Walk.Avoids IsRevoked (certCrlDistributionPoints der cert) := by
  unfold certCrlDistributionPoints
  split
  · exact Walk.avoids_ok none
  · exact (orCrlParseError_harmless _).bind fun value _ => Walk.avoids_ok (some value)

theorem certIsCaCert_harmless {cert : Certificate} :
    Walk.Avoids IsRevoked (certIsCaCert der cert) := by
  unfold certIsCaCert
  split
  · exact Walk.avoids_ok false
  · split
    · exact Walk.avoids_error id
    · exact Walk.avoids_ok _

theorem checkIdpDpScope_harmless {cert : Certificate} {idp : IssuingDistributionPoint}
    {certIssuer crlSignerSubject : Name} :
    Walk.Avoids IsRevoked (checkIdpDpScope der cert idp certIssuer crlSignerSubject) := by
  apply certCrlDistributionPoints_harmless.bind
  intro points _
  split
  · exact Walk.avoids_ok ()
  · exact Walk.avoids_error id
  · exact requireThat_harmless id

theorem checkScope_harmless {cert : Certificate} {parsedIdp : Option IssuingDistributionPoint}
    {crlSignerSubject : Name} :
    Walk.Avoids IsRevoked (checkScope der cert parsedIdp crlSignerSubject) := by
  unfold checkScope
  split
  · exact Walk.avoids_ok ()
  · apply (requireThat_harmless id).bind
    intro _ _
    apply certIsCaCert_harmless.bind
    intro _ _
    apply (requireThat_harmless id).bind
    intro _ _
    apply (requireThat_harmless id).bind
    intro _ _
    exact checkIdpDpScope_harmless

theorem collectDeltaEntries_harmless {signer : Signer} :
    Walk.Avoids IsRevoked (collectDeltaEntries der checker signer) := by
  unfold collectDeltaEntries
  split
  · exact Walk.avoids_ok []
  · apply (requireThat_harmless id).bind
    intro _ _
    apply (requireThat_harmless id).bind
    intro _ _
    apply checkCrlWindow_harmless.bind
    intro _ _
    exact verifyCrlSignature_harmless.bind fun _ _ => Walk.avoids_ok _

theorem parseCertificateIssuerDn_harmless {content : Bytes} :
    Walk.Avoids IsRevoked (parseCertificateIssuerDn der content) := by
  apply (orCrlParseError_harmless _).bind
  intro names _
  split
  · exact Walk.avoids_ok _
  · exact Walk.avoids_error id

theorem effectiveIssuer_harmless {isIndirect : Bool} {effective : Name} {entry : RevokedCert} :
    Walk.Avoids IsRevoked (effectiveIssuer der isIndirect effective entry) := by
  unfold effectiveIssuer
  split
  · split
    · exact Walk.avoids_ok _
    · exact parseCertificateIssuerDn_harmless
  · exact Walk.avoids_ok _

theorem findMatchingEntry_harmless {certIssuer : Name} {certSerial : Bytes} {isIndirect : Bool}
    {effective : Name} {entries : List RevokedCert} :
    Walk.Avoids IsRevoked
      (findMatchingEntry der certIssuer certSerial isIndirect effective entries) := by
  induction entries generalizing effective with
  | nil => exact Walk.avoids_ok none
  | cons entry rest ih =>
      apply effectiveIssuer_harmless.bind
      intro next _
      split
      · exact Walk.avoids_ok _
      · exact ih

end Harmless

section Inversion

variable {der : CrlCodec} {checker : CrlChecker} {settled : Verdict}

/-- What the lookup finds for a certificate in a list of entries of the checker's CRLs. -/
def lookup (der : CrlCodec) (checker : CrlChecker) (cert : Certificate)
    (entries : List RevokedCert) : Result (Option RevokedCert) :=
  findMatchingEntry der cert.tbsCertificate.issuer cert.tbsCertificate.serialNumber
    checker.crlIssuerCert.isSome checker.crl.tbsCertList.issuer entries

def revokedBy (der : CrlCodec) (cert : Certificate) (entry : RevokedCert) : Verdict :=
  .revoked cert.tbsCertificate.serialNumber (extractReasonCode der entry)

def deltaVerdict (der : CrlCodec) (cert : Certificate) (entry : RevokedCert) : Verdict :=
  if extractReasonCode der entry = some .removeFromCrl then .notRevoked
  else revokedBy der cert entry

def baseVerdict (der : CrlCodec) (cert : Certificate) : Option RevokedCert → Verdict
  | some entry => revokedBy der cert entry
  | none => .notRevoked

theorem checkRevocationStatusIndirect_verdict_iff {cert : Certificate}
    {deltaEntries : List RevokedCert} (decided : settled ≠ .undetermined) :
    verdict (checkRevocationStatusIndirect der cert deltaEntries checker.crl
        checker.crlIssuerCert.isSome) = settled ↔
      (∃ entry, lookup der checker cert deltaEntries = .ok (some entry) ∧
        deltaVerdict der cert entry = settled) ∨
      (lookup der checker cert deltaEntries = .ok none ∧
        ∃ found, lookup der checker cert checker.crl.entries = .ok found ∧
          baseVerdict der cert found = settled) := by
  have base : verdict (checkBaseEntries der cert checker.crl checker.crlIssuerCert.isSome) =
        settled ↔
      ∃ found, lookup der checker cert checker.crl.entries = .ok found ∧
        baseVerdict der cert found = settled := by
    unfold checkBaseEntries
    rw [verdict_bind findMatchingEntry_harmless decided]
    apply exists_congr
    intro found
    apply and_congr_right
    intro _
    cases found <;> rfl
  unfold checkRevocationStatusIndirect
  rw [verdict_bind findMatchingEntry_harmless decided]
  constructor
  · intro settles
    rcases settles with ⟨found, looked, outcome⟩
    cases found with
    | none => exact .inr ⟨looked, base.mp outcome⟩
    | some entry =>
        refine .inl ⟨entry, looked, ?_⟩
        rw [← outcome, deltaVerdict]
        dsimp only
        split <;> rfl
  · intro settles
    rcases settles with ⟨entry, looked, outcome⟩ | ⟨looked, outcome⟩
    · refine ⟨some entry, looked, ?_⟩
      rw [← outcome, deltaVerdict]
      dsimp only
      split <;> rfl
    · exact ⟨none, looked, base.mpr outcome⟩

theorem checkAgainstSigner_verdict_iff {cert : Certificate}
    {parsedIdp : Option IssuingDistributionPoint} {signer : Signer}
    (decided : settled ≠ .undetermined) :
    verdict (checkAgainstSigner der checker cert parsedIdp signer) = settled ↔
      checkCrlWindow checker.nowUnix checker.crl = .ok () ∧
      verifyCrlSignature der checker.verifier checker.crl signer.spki = .ok () ∧
      checkScope der cert parsedIdp signer.subject = .ok () ∧
      ∃ deltaEntries, collectDeltaEntries der checker signer = .ok deltaEntries ∧
        verdict (checkRevocationStatusIndirect der cert deltaEntries checker.crl
          checker.crlIssuerCert.isSome) = settled := by
  unfold checkAgainstSigner
  rw [verdict_then checkCrlWindow_harmless decided,
    verdict_then verifyCrlSignature_harmless decided, verdict_then checkScope_harmless decided,
    verdict_bind collectDeltaEntries_harmless decided]

/-- The signer is the stored certificate, or the direct issuer of a direct CRL. -/
theorem selectSigner_ok_iff {indirect : Bool} {direct signer : Signer} :
    selectSigner checker indirect direct = .ok signer ↔
      (∃ stored, checker.crlIssuerCert = some stored ∧
        (indirect = true ∨ checker.signerDiscovered = true) ∧ signer = certSigner stored) ∨
      (checker.crlIssuerCert = none ∧ indirect = false ∧ signer = direct) := by
  unfold selectSigner
  cases checker.crlIssuerCert with
  | none => cases indirect <;> simp [eq_comm (a := signer)]
  | some stored =>
      cases indirect with
      | true => simp [eq_comm (a := signer)]
      | false => cases checker.signerDiscovered <;> simp [eq_comm (a := signer)]

/-- What an entry point checks before the CRL itself, for a certificate under the direct
issuer given. -/
structure Admits (der : CrlCodec) (checker : CrlChecker) (cert : Certificate) (direct : Signer)
    (parsedIdp : Option IssuingDistributionPoint) (signer : Signer) : Prop where
  parsed : parseIssuingDp der checker.crl = .ok parsedIdp
  selected : selectSigner checker (declaresIndirect parsedIdp) direct = .ok signer
  signerNamed : namesMatch checker.crl.tbsCertList.issuer signer.subject = true
  issuerNamed : namesMatch direct.subject cert.tbsCertificate.issuer = true
  covered : (checker.crlIssuerCert.isSome ||
    namesMatch cert.tbsCertificate.issuer checker.crl.tbsCertList.issuer) = true
  crlSign : checkSignerCrlSign der signer = .ok ()

/-- The common form of the two entry points. -/
def Settles (der : CrlCodec) (checker : CrlChecker) (cert : Certificate) (direct : Signer)
    (settled : Verdict) : Prop :=
  ∃ parsedIdp signer, Admits der checker cert direct parsedIdp signer ∧
    verdict (checkAgainstSigner der checker cert parsedIdp signer) = settled

theorem checkRevocation_verdict_iff {cert issuer : Certificate}
    (decided : settled ≠ .undetermined) :
    verdict (checkRevocation der checker cert issuer) = settled ↔
      Settles der checker cert (certSigner issuer) settled := by
  unfold checkRevocation
  simp only [verdict_bind parseIssuingDp_harmless decided,
    verdict_bind selectSigner_harmless decided,
    verdict_then issuerMismatch_harmless decided,
    verdict_then checkSignerCrlSign_harmless decided, requireThat_ok_iff]
  constructor
  · intro settles
    rcases settles with ⟨parsedIdp, parsed, signer, selected, signerNamed, issuerNamed, covered,
      crlSign, tail⟩
    exact ⟨parsedIdp, signer,
      ⟨parsed, selected, signerNamed, issuerNamed, covered, crlSign⟩, tail⟩
  · intro settles
    rcases settles with ⟨parsedIdp, signer, admits, tail⟩
    exact ⟨parsedIdp, admits.parsed, signer, admits.selected, admits.signerNamed,
      admits.issuerNamed, admits.covered, admits.crlSign, tail⟩

/-- Without an issuer of its own the CRL has the anchor's name, so that the comparison the
anchor's entry point leaves out would pass. -/
theorem covered_of_anchor {cert : Certificate} {anchor : TrustAnchor} {indirect : Bool}
    {signer : Signer}
    (selected : selectSigner checker indirect (anchorSigner anchor) = .ok signer)
    (signerNamed : namesMatch checker.crl.tbsCertList.issuer signer.subject = true)
    (issuerNamed : namesMatch cert.tbsCertificate.issuer anchor.subject = true) :
    (checker.crlIssuerCert.isSome ||
      namesMatch cert.tbsCertificate.issuer checker.crl.tbsCertList.issuer) = true := by
  rcases selectSigner_ok_iff.mp selected with ⟨stored, isStored, _, _⟩ | ⟨_, _, isDirect⟩
  · rw [isStored]
    rfl
  · rw [isDirect, namesMatch_comm] at signerNamed
    rw [namesMatch_trans issuerNamed signerNamed, Bool.or_true]

theorem checkRevocationAgainstAnchor_verdict_iff {cert : Certificate} {anchor : TrustAnchor}
    (decided : settled ≠ .undetermined) :
    verdict (checkRevocationAgainstAnchor der checker cert anchor) = settled ↔
      Settles der checker cert (anchorSigner anchor) settled := by
  unfold checkRevocationAgainstAnchor
  simp only [verdict_bind parseIssuingDp_harmless decided,
    verdict_bind selectSigner_harmless decided,
    verdict_then issuerMismatch_harmless decided,
    verdict_then checkSignerCrlSign_harmless decided, requireThat_ok_iff]
  constructor
  · intro settles
    rcases settles with ⟨parsedIdp, parsed, signer, selected, signerNamed, issuerNamed, crlSign,
      tail⟩
    have covered := covered_of_anchor selected signerNamed issuerNamed
    rw [namesMatch_comm] at issuerNamed
    exact ⟨parsedIdp, signer,
      ⟨parsed, selected, signerNamed, issuerNamed, covered, crlSign⟩, tail⟩
  · intro settles
    rcases settles with ⟨parsedIdp, signer, admits, tail⟩
    have issuerNamed := admits.issuerNamed
    rw [namesMatch_comm] at issuerNamed
    exact ⟨parsedIdp, admits.parsed, signer, admits.selected, admits.signerNamed, issuerNamed,
      admits.crlSign, tail⟩

theorem checkRevocation_ok_iff {cert issuer : Certificate} :
    checkRevocation der checker cert issuer = .ok () ↔
      Settles der checker cert (certSigner issuer) .notRevoked := by
  rw [← verdict_notRevoked_iff]
  exact checkRevocation_verdict_iff (by decide)

theorem checkRevocationAgainstAnchor_ok_iff {cert : Certificate} {anchor : TrustAnchor} :
    checkRevocationAgainstAnchor der checker cert anchor = .ok () ↔
      Settles der checker cert (anchorSigner anchor) .notRevoked := by
  rw [← verdict_notRevoked_iff]
  exact checkRevocationAgainstAnchor_verdict_iff (by decide)

/-- The checks of a delta CRL, before its entries are given out. -/
def checkDelta (der : CrlCodec) (checker : CrlChecker) (signer : Signer)
    (deltaCrl : CertificateList) : Result Unit := do
  requireThat (namesMatch deltaCrl.tbsCertList.issuer checker.crl.tbsCertList.issuer)
    .crlIssuerMismatch
  requireThat (namesMatch deltaCrl.tbsCertList.issuer signer.subject) .crlIssuerMismatch
  checkCrlWindow checker.nowUnix deltaCrl
  verifyCrlSignature der checker.verifier deltaCrl signer.spki

theorem collectDeltaEntries_eq {signer : Signer} {deltaCrl : CertificateList}
    (held : checker.deltaCrl = some deltaCrl) :
    collectDeltaEntries der checker signer =
      checkDelta der checker signer deltaCrl >>= fun _ => .ok deltaCrl.entries := by
  unfold collectDeltaEntries
  rw [held]
  simp only [verifyDeltaCrlAndCollect, checkDelta, bind_assoc]
  rfl

/-- The entries of the delta CRL, none without one. -/
def deltaListed (checker : CrlChecker) : List RevokedCert :=
  (checker.deltaCrl.map (·.entries)).getD []

theorem collectDeltaEntries_ok_iff {signer : Signer} {deltaEntries : List RevokedCert} :
    collectDeltaEntries der checker signer = .ok deltaEntries ↔
      (∀ deltaCrl, checker.deltaCrl = some deltaCrl →
        checkDelta der checker signer deltaCrl = .ok ()) ∧
      deltaEntries = deltaListed checker := by
  unfold deltaListed
  cases held : checker.deltaCrl with
  | none =>
      unfold collectDeltaEntries
      rw [held]
      simp [eq_comm]
  | some deltaCrl =>
      rw [collectDeltaEntries_eq held, Walk.then_ok]
      simp [eq_comm]

end Inversion

end Pkix.Revocation
