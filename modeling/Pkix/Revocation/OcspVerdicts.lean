import Pkix.Revocation.CrlFacts
import Pkix.Revocation.OcspSoundness

/-! What a verdict of the OCSP checker tells, good or revoked: the response is signed for the
issuer and its entry for the certificate is current. -/

namespace Pkix.Revocation

open Pkix.Path

section Harmless

variable {der : OcspCodec} {checker : OcspChecker} {cert : Certificate} {issuerSubject : Name}
variable {issuerSpki : SubjectPublicKeyInfo}

theorem orOcspParseError_harmless {α : Type} (outcome : Except DerError α) :
    Walk.Avoids IsRevoked (orOcspParseError outcome) := by
  cases outcome with
  | ok value => exact Walk.avoids_ok value
  | error failure => exact Walk.avoids_error id

theorem certHasOcspSigningEku_harmless {delegate : Certificate} :
    Walk.Avoids IsRevoked (certHasOcspSigningEku der delegate) := by
  unfold certHasOcspSigningEku
  split
  · exact Walk.avoids_ok _
  · split
    · exact Walk.avoids_error id
    · exact Walk.avoids_ok _

theorem validateDelegateResponderCert_harmless {verifier : SignatureVerifier}
    {delegate : Certificate} {producedAtUnix : Nat} :
    Walk.Avoids IsRevoked (validateDelegateResponderCert der verifier delegate issuerSubject
      issuerSpki producedAtUnix) := by
  apply Walk.Avoids.bind (requireThat_harmless id)
  intro _ _
  apply Walk.Avoids.bind certHasOcspSigningEku_harmless
  intro _ _
  apply Walk.Avoids.bind (requireThat_harmless id)
  intro _ _
  apply Walk.Avoids.bind (requireThat_harmless id)
  intro _ _
  apply Walk.Avoids.bind (orOcspParseError_harmless _)
  intro _ _
  exact requireThat_harmless id

theorem resolveDelegate_harmless {verifier : SignatureVerifier} {id : ResponderId}
    {producedAtUnix : Nat} {certs : List Certificate} :
    Walk.Avoids IsRevoked (resolveDelegate der verifier id issuerSubject issuerSpki producedAtUnix
      certs) := by
  induction certs with
  | nil => exact Walk.avoids_error (fun revoked => revoked)
  | cons delegate rest ih =>
      unfold resolveDelegate
      split
      · apply Walk.Avoids.bind validateDelegateResponderCert_harmless
        intro _ _
        exact Walk.avoids_ok _
      · exact ih

theorem resolveSigningKey_harmless {verifier : SignatureVerifier} {producedAtUnix : Nat} :
    Walk.Avoids IsRevoked (resolveSigningKeyForResponse der checker.basic issuerSubject issuerSpki
      verifier producedAtUnix) := by
  unfold resolveSigningKeyForResponse
  split
  · exact Walk.avoids_ok _
  · exact resolveDelegate_harmless

theorem verifyResponseSignature_harmless {spki : SubjectPublicKeyInfo} :
    Walk.Avoids IsRevoked (verifyResponseSignature der checker spki) := by
  apply Walk.Avoids.bind (orOcspParseError_harmless _)
  intro _ _
  exact requireThat_harmless id

theorem findSingle_harmless : Walk.Avoids IsRevoked (findSingle checker cert) := by
  unfold findSingle
  split
  · exact Walk.avoids_error id
  · exact Walk.avoids_ok _

theorem hashCertidInput_harmless {oid : ObjectIdentifier} {data : Bytes} :
    Walk.Avoids IsRevoked (hashCertidInput der oid data) := by
  unfold hashCertidInput
  repeat' split
  all_goals first | exact Walk.avoids_ok _ | exact Walk.avoids_error id

theorem checkCertIdHashes_harmless {single : SingleResponse} :
    Walk.Avoids IsRevoked (checkCertIdHashes der single issuerSubject issuerSpki) := by
  apply Walk.Avoids.bind (orOcspParseError_harmless _)
  intro _ _
  apply Walk.Avoids.bind hashCertidInput_harmless
  intro _ _
  apply Walk.Avoids.bind hashCertidInput_harmless
  intro _ _
  exact requireThat_harmless id

theorem checkResponseWindow_harmless {single : SingleResponse} :
    Walk.Avoids IsRevoked (checkResponseWindow checker single) := by
  apply Walk.Avoids.bind (requireThat_harmless id)
  intro _ _
  apply Walk.Avoids.bind (requireThat_harmless id)
  intro _ _
  split
  · exact Walk.avoids_error id
  · exact requireThat_harmless id

end Harmless

section Settled

variable {der : OcspCodec} {checker : OcspChecker} {cert : Certificate} {issuerSubject : Name}
variable {issuerSpki : SubjectPublicKeyInfo}

/-- A current entry of the response for the certificate under the issuer. -/
structure CurrentSingle (der : OcspCodec) (checker : OcspChecker) (cert : Certificate)
    (issuerSubject : Name) (issuerSpki : SubjectPublicKeyInfo) (single : SingleResponse) :
    Prop where
  listed : single ∈ checker.basic.tbsResponseData.responses
  serial : single.certId.serialNumber = cert.tbsCertificate.serialNumber
  nameHash : ∃ nameDer, der.encodeName issuerSubject = .ok nameDer ∧
    hashCertidInput der single.certId.hashAlgorithm.oid nameDer = .ok single.certId.issuerNameHash
  keyHash : hashCertidInput der single.certId.hashAlgorithm.oid
    issuerSpki.subjectPublicKey.rawBytes = .ok single.certId.issuerKeyHash
  updated : single.thisUpdate.unixDuration ≤ checker.nowUnix
  current : ∃ nextUpdate, single.nextUpdate = some nextUpdate ∧
    checker.nowUnix ≤ nextUpdate.unixDuration

theorem checkResponse_settled
    (settled : verdict (checkResponse der checker cert issuerSubject issuerSpki) ≠ .undetermined) :
    SignedForIssuer der checker issuerSubject issuerSpki ∧
      ∃ single, CurrentSingle der checker cert issuerSubject issuerSpki single := by
  rcases (verdict_bind resolveSigningKey_harmless settled).mp rfl with ⟨spki, resolved, rest⟩
  rcases (verdict_then verifyResponseSignature_harmless settled).mp rest with ⟨verified, rest⟩
  rcases (verdict_bind findSingle_harmless settled).mp rest with ⟨single, found, rest⟩
  rcases (verdict_then checkCertIdHashes_harmless settled).mp rest with ⟨hashes, rest⟩
  rcases (verdict_then checkResponseWindow_harmless settled).mp rest with ⟨window, _⟩
  rcases findSingle_ok found with ⟨listed, serial⟩
  rcases checkCertIdHashes_ok hashes with ⟨nameHash, keyHash⟩
  rcases checkResponseWindow_ok window with ⟨_, updated, current⟩
  exact ⟨resolveSigningKey_signed resolved verified, single,
    { listed, serial, nameHash, keyHash, updated, current }⟩

theorem ocspVerdict_settled {issuer : Certificate}
    (settled : verdict (checker.checkRevocation der cert issuer) ≠ .undetermined) :
    SignedForIssuer der checker issuer.tbsCertificate.subject
        issuer.tbsCertificate.subjectPublicKeyInfo ∧
      ∃ single, CurrentSingle der checker cert issuer.tbsCertificate.subject
        issuer.tbsCertificate.subjectPublicKeyInfo single := by
  rcases (verdict_then (requireThat_harmless id) settled).mp rfl with ⟨_, checked⟩
  apply checkResponse_settled
  rw [checked]
  exact settled

end Settled

section CrlSettled

variable {der : CrlCodec} {checker : CrlChecker} {cert issuer : Certificate}

/-- A settled verdict of the CRL checker rests on a signature it verified. -/
theorem crlVerdict_settled (settled : verdict (checkRevocation der checker cert issuer) ≠
    .undetermined) :
    ∃ parsedIdp signer, Admits der checker cert (certSigner issuer) parsedIdp signer ∧
      checkCrlWindow checker.nowUnix checker.crl = .ok () ∧
      verifyCrlSignature der checker.verifier checker.crl signer.spki = .ok () := by
  rcases (checkRevocation_verdict_iff settled).mp rfl with ⟨parsedIdp, signer, admits, tail⟩
  rcases (checkAgainstSigner_verdict_iff settled).mp tail with ⟨window, verified, _⟩
  exact ⟨parsedIdp, signer, admits, window, verified⟩

end CrlSettled

end Pkix.Revocation
