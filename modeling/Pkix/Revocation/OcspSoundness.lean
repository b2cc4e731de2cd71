import Pkix.Lib.Walk
import Pkix.Revocation.ConcreteOcsp

/-! What an accepted OCSP response proves: a signature of the issuer or of a responder it
designated, and a current entry that reports the certificate as good. -/

namespace Pkix.Revocation

open Pkix.Path

section Soundness

variable {der : OcspCodec} {checker : OcspChecker} {cert : Certificate} {issuerSubject : Name}
  {issuerSpki : SubjectPublicKeyInfo}

def ResponseSigned (der : OcspCodec) (checker : OcspChecker) (spki : SubjectPublicKeyInfo) :
    Prop :=
  ∃ tbsBytes, der.encodeResponseData checker.basic.tbsResponseData = .ok tbsBytes ∧
    checker.verifier checker.basic.signatureAlgorithm spki tbsBytes
      checker.basic.signature.rawBytes = true

/-- A certificate that the issuer gave a responder for the time of the response. -/
structure Designated (der : OcspCodec) (checker : OcspChecker) (issuerSubject : Name)
    (issuerSpki : SubjectPublicKeyInfo) (delegate : Certificate) : Prop where
  issuedBy : namesMatch delegate.tbsCertificate.issuer issuerSubject = true
  certSigned : ∃ tbsBytes, der.encodeTbs delegate.tbsCertificate = .ok tbsBytes ∧
    checker.verifier delegate.signatureAlgorithm issuerSpki tbsBytes
      delegate.signature.rawBytes = true
  ocspSigning : ∃ extension usages,
    findIn delegate.extensions oidExtendedKeyUsage = some extension ∧
      der.extendedKeyUsage extension.extnValue = some usages ∧ oidKpOcspSigning ∈ usages
  begun : timeToUnixSecs delegate.tbsCertificate.validity.notBefore ≤
    checker.basic.tbsResponseData.producedAt.unixDuration
  notEnded : checker.basic.tbsResponseData.producedAt.unixDuration ≤
    timeToUnixSecs delegate.tbsCertificate.validity.notAfter

def SignedForIssuer (der : OcspCodec) (checker : OcspChecker) (issuerSubject : Name)
    (issuerSpki : SubjectPublicKeyInfo) : Prop :=
  ResponseSigned der checker issuerSpki ∨
    ∃ delegate ∈ checker.basic.certs.getD [],
      Designated der checker issuerSubject issuerSpki delegate ∧
        ResponseSigned der checker delegate.tbsCertificate.subjectPublicKeyInfo

/-- A current entry for the certificate with status good. -/
structure GoodSingle (der : OcspCodec) (checker : OcspChecker) (cert : Certificate)
    (issuerSubject : Name) (issuerSpki : SubjectPublicKeyInfo) (single : SingleResponse) :
    Prop where
  listed : single ∈ checker.basic.tbsResponseData.responses
  serial : single.certId.serialNumber = cert.tbsCertificate.serialNumber
  nameHash : ∃ nameDer, der.encodeName issuerSubject = .ok nameDer ∧
    hashCertidInput der single.certId.hashAlgorithm.oid nameDer = .ok single.certId.issuerNameHash
  keyHash : hashCertidInput der single.certId.hashAlgorithm.oid
    issuerSpki.subjectPublicKey.rawBytes = .ok single.certId.issuerKeyHash
  good : single.certStatus = .good
  produced : checker.basic.tbsResponseData.producedAt.unixDuration ≤ checker.nowUnix
  updated : single.thisUpdate.unixDuration ≤ checker.nowUnix
  current : ∃ nextUpdate, single.nextUpdate = some nextUpdate ∧
    checker.nowUnix ≤ nextUpdate.unixDuration

theorem certHasOcspSigningEku_ok {delegate : Certificate}
    (has : certHasOcspSigningEku der delegate = .ok true) :
    ∃ extension usages, findIn delegate.extensions oidExtendedKeyUsage = some extension ∧
      der.extendedKeyUsage extension.extnValue = some usages ∧ oidKpOcspSigning ∈ usages := by
  unfold certHasOcspSigningEku at has
  cases located : findIn delegate.extensions oidExtendedKeyUsage with
  | none =>
      rw [located] at has
      cases has
  | some extension =>
      rw [located] at has
      dsimp only at has
      cases decoded : der.extendedKeyUsage extension.extnValue with
      | none =>
          rw [decoded] at has
          cases has
      | some usages =>
          rw [decoded] at has
          have member : usages.contains oidKpOcspSigning = true := Except.ok.inj has
          exact ⟨extension, usages, rfl, decoded, List.contains_iff_mem.mp member⟩

theorem validateDelegateResponderCert_ok {delegate : Certificate}
    (valid : validateDelegateResponderCert der checker.verifier delegate issuerSubject issuerSpki
      checker.basic.tbsResponseData.producedAt.unixDuration = .ok ()) :
    Designated der checker issuerSubject issuerSpki delegate := by
  unfold validateDelegateResponderCert at valid
  rcases Walk.then_ok.mp valid with ⟨issuedBy, valid⟩
  rcases Walk.bind_ok.mp valid with ⟨hasEku, eku, valid⟩
  rcases Walk.then_ok.mp valid with ⟨isTrue, valid⟩
  rcases Walk.then_ok.mp valid with ⟨window, valid⟩
  rcases Walk.bind_ok.mp valid with ⟨tbsBytes, encoded, verified⟩
  rw [requireThat_ok_iff.mp isTrue] at eku
  have within := requireThat_ok_iff.mp window
  rw [Bool.and_eq_true, decide_eq_true_iff, decide_eq_true_iff] at within
  exact
    { issuedBy := requireThat_ok_iff.mp issuedBy
      certSigned := ⟨tbsBytes, orOcspParseError_ok_iff.mp encoded,
        requireThat_ok_iff.mp verified⟩
      ocspSigning := certHasOcspSigningEku_ok eku
      begun := within.1
      notEnded := within.2 }

/-- Whatever certificates stand before it, the one whose key is used was validated. -/
theorem resolveDelegate_ok {id : ResponderId} {certs : List Certificate}
    {spki : SubjectPublicKeyInfo}
    (resolved : resolveDelegate der checker.verifier id issuerSubject issuerSpki
      checker.basic.tbsResponseData.producedAt.unixDuration certs = .ok spki) :
    ∃ delegate ∈ certs, Designated der checker issuerSubject issuerSpki delegate ∧
      delegate.tbsCertificate.subjectPublicKeyInfo = spki := by
  induction certs with
  | nil => cases resolved
  | cons head rest ih =>
      unfold resolveDelegate at resolved
      split at resolved
      · rcases Walk.then_ok.mp resolved with ⟨valid, given⟩
        exact ⟨head, List.mem_cons_self, validateDelegateResponderCert_ok valid,
          Walk.pure_ok.mp given⟩
      · rcases ih resolved with ⟨delegate, member, designated⟩
        exact ⟨delegate, List.mem_cons_of_mem head member, designated⟩

theorem verifyResponseSignature_ok {spki : SubjectPublicKeyInfo}
    (verified : verifyResponseSignature der checker spki = .ok ()) :
    ResponseSigned der checker spki := by
  rcases Walk.bind_ok.mp verified with ⟨tbsBytes, encoded, accepted⟩
  exact ⟨tbsBytes, orOcspParseError_ok_iff.mp encoded, requireThat_ok_iff.mp accepted⟩

theorem resolveSigningKey_signed {spki : SubjectPublicKeyInfo}
    (resolved : resolveSigningKeyForResponse der checker.basic issuerSubject issuerSpki
      checker.verifier checker.basic.tbsResponseData.producedAt.unixDuration = .ok spki)
    (verified : verifyResponseSignature der checker spki = .ok ()) :
    SignedForIssuer der checker issuerSubject issuerSpki := by
  have signed := verifyResponseSignature_ok verified
  unfold resolveSigningKeyForResponse at resolved
  split at resolved
  · cases resolved
    exact .inl signed
  · rcases resolveDelegate_ok resolved with ⟨delegate, member, designated, isKey⟩
    rw [← isKey] at signed
    exact .inr ⟨delegate, member, designated, signed⟩

theorem findSingle_ok {single : SingleResponse} (found : findSingle checker cert = .ok single) :
    single ∈ checker.basic.tbsResponseData.responses ∧
      single.certId.serialNumber = cert.tbsCertificate.serialNumber := by
  unfold findSingle at found
  split at found
  · cases found
  · rename_i other located
    cases found
    exact ⟨List.mem_of_find?_eq_some located, by simpa using List.find?_some located⟩

theorem checkCertIdHashes_ok {single : SingleResponse}
    (checked : checkCertIdHashes der single issuerSubject issuerSpki = .ok ()) :
    (∃ nameDer, der.encodeName issuerSubject = .ok nameDer ∧
      hashCertidInput der single.certId.hashAlgorithm.oid nameDer =
        .ok single.certId.issuerNameHash) ∧
    hashCertidInput der single.certId.hashAlgorithm.oid
      issuerSpki.subjectPublicKey.rawBytes = .ok single.certId.issuerKeyHash := by
  rcases Walk.bind_ok.mp checked with ⟨nameDer, encoded, checked⟩
  rcases Walk.bind_ok.mp checked with ⟨nameHash, nameHashed, checked⟩
  rcases Walk.bind_ok.mp checked with ⟨keyHash, keyHashed, compared⟩
  have equal := requireThat_ok_iff.mp compared
  rw [Bool.and_eq_true, beq_iff_eq, beq_iff_eq] at equal
  rw [← equal.1] at nameHashed
  rw [← equal.2] at keyHashed
  exact ⟨⟨nameDer, orOcspParseError_ok_iff.mp encoded, nameHashed⟩, keyHashed⟩

theorem checkResponseWindow_ok {single : SingleResponse}
    (checked : checkResponseWindow checker single = .ok ()) :
    checker.basic.tbsResponseData.producedAt.unixDuration ≤ checker.nowUnix ∧
      single.thisUpdate.unixDuration ≤ checker.nowUnix ∧
      ∃ nextUpdate, single.nextUpdate = some nextUpdate ∧
        checker.nowUnix ≤ nextUpdate.unixDuration := by
  rcases Walk.then_ok.mp checked with ⟨produced, checked⟩
  rcases Walk.then_ok.mp checked with ⟨updated, checked⟩
  have producedBefore := of_decide_eq_true (requireThat_ok_iff.mp produced)
  have updatedBefore := of_decide_eq_true (requireThat_ok_iff.mp updated)
  split at checked
  · cases checked
  · rename_i nextUpdate present
    have notPast := of_decide_eq_true (requireThat_ok_iff.mp checked)
    exact ⟨producedBefore, updatedBefore, nextUpdate, present, notPast⟩

theorem reportStatus_ok {serial : Bytes} {status : CertStatus}
    (reported : reportStatus serial status = .ok ()) : status = .good := by
  cases status with
  | good => rfl
  | revoked info => cases reported
  | unknown => cases reported

theorem checkResponse_ok
    (accepted : checkResponse der checker cert issuerSubject issuerSpki = .ok ()) :
    SignedForIssuer der checker issuerSubject issuerSpki ∧
      ∃ single, GoodSingle der checker cert issuerSubject issuerSpki single := by
  rcases Walk.bind_ok.mp accepted with ⟨spki, resolved, accepted⟩
  rcases Walk.then_ok.mp accepted with ⟨verified, accepted⟩
  rcases Walk.bind_ok.mp accepted with ⟨single, found, accepted⟩
  rcases Walk.then_ok.mp accepted with ⟨hashes, accepted⟩
  rcases Walk.then_ok.mp accepted with ⟨window, reported⟩
  rcases findSingle_ok found with ⟨listed, serial⟩
  rcases checkCertIdHashes_ok hashes with ⟨nameHash, keyHash⟩
  rcases checkResponseWindow_ok window with ⟨produced, updated, current⟩
  refine ⟨resolveSigningKey_signed resolved verified, single, ?_⟩
  exact
    { listed, serial, nameHash, keyHash, good := reportStatus_ok reported, produced, updated,
      current }

end Soundness

/-- A response that either entry point accepts is signed for the issuer and reports the
certificate as good at the checker's time. -/
theorem ocsp_good_sound (der : OcspCodec) (checker : OcspChecker) (cert : Certificate) :
    (∀ issuer, checker.checkRevocation der cert issuer = .ok () →
      SignedForIssuer der checker issuer.tbsCertificate.subject
          issuer.tbsCertificate.subjectPublicKeyInfo ∧
        ∃ single, GoodSingle der checker cert issuer.tbsCertificate.subject
          issuer.tbsCertificate.subjectPublicKeyInfo single) ∧
    (∀ anchor, checker.checkRevocationAgainstAnchor der cert anchor = .ok () →
      SignedForIssuer der checker anchor.subject anchor.subjectPublicKeyInfo ∧
        ∃ single, GoodSingle der checker cert anchor.subject anchor.subjectPublicKeyInfo
          single) := by
  constructor
  · intro issuer accepted
    rcases Walk.then_ok.mp accepted with ⟨_, checked⟩
    exact checkResponse_ok checked
  · intro anchor accepted
    rcases Walk.then_ok.mp accepted with ⟨_, checked⟩
    exact checkResponse_ok checked

namespace Delegated

open Pkix.Path.Concrete
open Pkix.Revocation.Concrete

def issuer : Certificate :=
  issue 1 (commonName [65]) (commonName [65]) [1, 2, 3] [1, 2, 3] [caExtension]

def leaf : Certificate := issue 2 (commonName [65]) (commonName [67]) [1, 2, 3] [6] []

def ekuContent : Bytes := tlv 0x30 (encodeOid oidKpOcspSigning)

def responder : Certificate :=
  issue 3 (commonName [65]) (commonName [68]) [1, 2, 3] [7, 8]
    [⟨oidExtendedKeyUsage, false, ekuContent⟩]

def june : DateTime := ⟨2026, 6, 1, 0, 0, 0, 1780272000⟩
def september : DateTime := ⟨2026, 9, 1, 0, 0, 0, 1788220800⟩

/-- A response for the leaf by the responder, which the issuer's own key did not sign. -/
def basic : BasicOcspResponse :=
  { tbsResponseData :=
      { version := .v1
        responderId := .byName (commonName [68])
        producedAt := june
        responses :=
          [{ certId := ⟨⟨oidSha1, none⟩, nameDigest, keyDigest, [2]⟩
             certStatus := .good
             thisUpdate := june
             nextUpdate := some september
             singleExtensions := none }]
        responseExtensions := none }
    signatureAlgorithm := ecdsaWithSha256
    signature := ⟨0, [7, 8]⟩
    certs := some [responder] }

def codec : OcspCodec :=
  ocspCodec
    { extendedKeyUsage := [(ekuContent, [oidKpOcspSigning])]
      sha1 := sha1Table }

def checker : OcspChecker :=
  { basic, nowUnix := summer2026, verifier := keyCopyVerifier }

end Delegated

theorem ocsp_good_sound_example :
    SignedForIssuer Delegated.codec Delegated.checker
        Delegated.issuer.tbsCertificate.subject
        Delegated.issuer.tbsCertificate.subjectPublicKeyInfo ∧
      ∃ single, GoodSingle Delegated.codec Delegated.checker Delegated.leaf
        Delegated.issuer.tbsCertificate.subject
        Delegated.issuer.tbsCertificate.subjectPublicKeyInfo single :=
  (ocsp_good_sound Delegated.codec Delegated.checker Delegated.leaf).1 Delegated.issuer
    (by decide +kernel)

end Pkix.Revocation
