import Pkix.Revocation.OcspSoundness

/-! When exactly the checker accepts a response: who may sign it, and which of its entries
counts. -/

namespace Pkix.Revocation

open Pkix.Path

section Checker

variable (der : OcspCodec) (checker : OcspChecker) (cert : Certificate) (issuerSubject : Name)
variable (issuerSpki : SubjectPublicKeyInfo)

/-- The key of the issuer where the response names it, else that of the first certificate in the
response that its name fits, which the issuer has to have made a responder. -/
inductive AnswersWith : SubjectPublicKeyInfo → Prop
  | issuer (named : responderIdMatches der checker.basic.tbsResponseData.responderId issuerSubject
      issuerSpki.subjectPublicKey.rawBytes = true) : AnswersWith issuerSpki
  | delegate (delegate : Certificate)
      (other : responderIdMatches der checker.basic.tbsResponseData.responderId issuerSubject
        issuerSpki.subjectPublicKey.rawBytes = false)
      (first : (checker.basic.certs.getD []).find?
        (delegateMatches der checker.basic.tbsResponseData.responderId) = some delegate)
      (designated : Designated der checker issuerSubject issuerSpki delegate) :
      AnswersWith delegate.tbsCertificate.subjectPublicKeyInfo

/-- The response is signed for the issuer, and its first entry with the serial number of the
certificate is about it, in force and good. -/
structure Attests : Prop where
  signed : ∃ spki, AnswersWith der checker issuerSubject issuerSpki spki ∧
    ResponseSigned der checker spki
  good : ∃ single, checker.basic.tbsResponseData.responses.find?
      (fun single => single.certId.serialNumber == cert.tbsCertificate.serialNumber) =
        some single ∧
    GoodSingle der checker cert issuerSubject issuerSpki single

end Checker

section Exactness

variable {der : OcspCodec} {checker : OcspChecker} {cert : Certificate} {issuerSubject : Name}
variable {issuerSpki : SubjectPublicKeyInfo}

theorem certHasOcspSigningEku_true_iff {delegate : Certificate} :
    certHasOcspSigningEku der delegate = .ok true ↔
      ∃ extension usages, findIn delegate.extensions oidExtendedKeyUsage = some extension ∧
        der.extendedKeyUsage extension.extnValue = some usages ∧ oidKpOcspSigning ∈ usages := by
  constructor
  · exact certHasOcspSigningEku_ok
  · intro ⟨extension, usages, located, decoded, listed⟩
    simp [certHasOcspSigningEku, located, decoded, listed]

theorem validateDelegateResponderCert_ok_iff {delegate : Certificate} :
    validateDelegateResponderCert der checker.verifier delegate issuerSubject issuerSpki
        checker.basic.tbsResponseData.producedAt.unixDuration = .ok () ↔
      Designated der checker issuerSubject issuerSpki delegate := by
  constructor
  · exact validateDelegateResponderCert_ok
  · intro designated
    rcases designated.certSigned with ⟨tbsBytes, encoded, verified⟩
    have eku := certHasOcspSigningEku_true_iff.mpr designated.ocspSigning
    have within : (decide (timeToUnixSecs delegate.tbsCertificate.validity.notBefore ≤
          checker.basic.tbsResponseData.producedAt.unixDuration) &&
        decide (checker.basic.tbsResponseData.producedAt.unixDuration ≤
          timeToUnixSecs delegate.tbsCertificate.validity.notAfter)) = true := by
      simp [designated.begun, designated.notEnded]
    unfold validateDelegateResponderCert
    apply Walk.then_ok.mpr
    refine ⟨requireThat_ok_iff.mpr designated.issuedBy, Walk.bind_ok.mpr ⟨true, eku, ?_⟩⟩
    apply Walk.then_ok.mpr
    refine ⟨requireThat_ok_iff.mpr rfl, Walk.then_ok.mpr ⟨requireThat_ok_iff.mpr within, ?_⟩⟩
    apply Walk.bind_ok.mpr
    exact ⟨tbsBytes, orOcspParseError_ok_iff.mpr encoded, requireThat_ok_iff.mpr verified⟩

theorem resolveDelegate_ok_iff {id : ResponderId} {certs : List Certificate}
    {spki : SubjectPublicKeyInfo} :
    resolveDelegate der checker.verifier id issuerSubject issuerSpki
        checker.basic.tbsResponseData.producedAt.unixDuration certs = .ok spki ↔
      ∃ delegate, certs.find? (delegateMatches der id) = some delegate ∧
        Designated der checker issuerSubject issuerSpki delegate ∧
        delegate.tbsCertificate.subjectPublicKeyInfo = spki := by
  induction certs with
  | nil => simp [resolveDelegate]
  | cons head rest ih =>
      unfold resolveDelegate
      cases fits : delegateMatches der id head with
      | false =>
          rw [if_neg Bool.false_ne_true, ih, List.find?_cons_of_neg (by simp [fits])]
      | true =>
          rw [if_pos rfl, List.find?_cons_of_pos fits, Walk.then_ok, Walk.pure_ok,
            validateDelegateResponderCert_ok_iff]
          simp

theorem resolveSigningKey_ok_iff {spki : SubjectPublicKeyInfo} :
    resolveSigningKeyForResponse der checker.basic issuerSubject issuerSpki checker.verifier
        checker.basic.tbsResponseData.producedAt.unixDuration = .ok spki ↔
      AnswersWith der checker issuerSubject issuerSpki spki := by
  unfold resolveSigningKeyForResponse
  cases named : responderIdMatches der checker.basic.tbsResponseData.responderId issuerSubject
      issuerSpki.subjectPublicKey.rawBytes with
  | true =>
      rw [if_pos rfl, Except.ok.injEq]
      constructor
      · intro same
        rw [← same]
        exact .issuer named
      · intro answers
        cases answers with
        | issuer => rfl
        | delegate _ other => simp [named] at other
  | false =>
      rw [if_neg Bool.false_ne_true, resolveDelegate_ok_iff]
      constructor
      · intro ⟨delegate, first, designated, same⟩
        rw [← same]
        exact .delegate delegate named first designated
      · intro answers
        cases answers with
        | issuer other => simp [named] at other
        | delegate delegate _ first designated => exact ⟨delegate, first, designated, rfl⟩

theorem verifyResponseSignature_ok_iff {spki : SubjectPublicKeyInfo} :
    verifyResponseSignature der checker spki = .ok () ↔ ResponseSigned der checker spki := by
  simp only [verifyResponseSignature, ResponseSigned, Walk.bind_ok, orOcspParseError_ok_iff,
    requireThat_ok_iff]

theorem findSingle_ok_iff {single : SingleResponse} :
    findSingle checker cert = .ok single ↔
      checker.basic.tbsResponseData.responses.find?
        (fun single => single.certId.serialNumber == cert.tbsCertificate.serialNumber) =
          some single := by
  unfold findSingle
  split
  · next none => simp [none]
  · next found => simp [found]

theorem checkCertIdHashes_ok_iff {single : SingleResponse} :
    checkCertIdHashes der single issuerSubject issuerSpki = .ok () ↔
      (∃ nameDer, der.encodeName issuerSubject = .ok nameDer ∧
        hashCertidInput der single.certId.hashAlgorithm.oid nameDer =
          .ok single.certId.issuerNameHash) ∧
      hashCertidInput der single.certId.hashAlgorithm.oid
        issuerSpki.subjectPublicKey.rawBytes = .ok single.certId.issuerKeyHash := by
  constructor
  · exact checkCertIdHashes_ok
  · intro ⟨⟨nameDer, encoded, nameHash⟩, keyHash⟩
    unfold checkCertIdHashes
    apply Walk.bind_ok.mpr
    refine ⟨nameDer, orOcspParseError_ok_iff.mpr encoded, Walk.bind_ok.mpr ⟨_, nameHash, ?_⟩⟩
    apply Walk.bind_ok.mpr
    exact ⟨_, keyHash, requireThat_ok_iff.mpr (by simp)⟩

theorem checkResponseWindow_ok_iff {single : SingleResponse} :
    checkResponseWindow checker single = .ok () ↔
      checker.basic.tbsResponseData.producedAt.unixDuration ≤ checker.nowUnix ∧
        single.thisUpdate.unixDuration ≤ checker.nowUnix ∧
        ∃ nextUpdate, single.nextUpdate = some nextUpdate ∧
          checker.nowUnix ≤ nextUpdate.unixDuration := by
  unfold checkResponseWindow
  rw [Walk.then_ok, Walk.then_ok, requireThat_ok_iff, requireThat_ok_iff, decide_eq_true_iff,
    decide_eq_true_iff]
  apply and_congr_right
  intro _
  apply and_congr_right
  intro _
  cases single.nextUpdate <;> simp

theorem reportStatus_ok_iff {serial : Bytes} {status : CertStatus} :
    reportStatus serial status = .ok () ↔ status = .good := by
  cases status <;> simp [reportStatus]

/-- The response vouches for the certificate exactly when it attests to it. -/
theorem checkResponse_ok_iff :
    checkResponse der checker cert issuerSubject issuerSpki = .ok () ↔
      Attests der checker cert issuerSubject issuerSpki := by
  constructor
  · intro accepted
    rcases Walk.bind_ok.mp accepted with ⟨spki, resolved, accepted⟩
    rcases Walk.then_ok.mp accepted with ⟨verified, accepted⟩
    rcases Walk.bind_ok.mp accepted with ⟨single, found, accepted⟩
    rcases Walk.then_ok.mp accepted with ⟨hashes, accepted⟩
    rcases Walk.then_ok.mp accepted with ⟨window, reported⟩
    rcases findSingle_ok found with ⟨listed, serial⟩
    rcases checkCertIdHashes_ok hashes with ⟨nameHash, keyHash⟩
    rcases checkResponseWindow_ok window with ⟨produced, updated, current⟩
    exact
      { signed := ⟨spki, resolveSigningKey_ok_iff.mp resolved,
          verifyResponseSignature_ok verified⟩
        good := ⟨single, findSingle_ok_iff.mp found,
          { listed, serial, nameHash, keyHash, good := reportStatus_ok reported, produced,
            updated, current }⟩ }
  · intro attests
    rcases attests.signed with ⟨spki, answers, signed⟩
    rcases attests.good with ⟨single, found, good⟩
    unfold checkResponse
    apply Walk.bind_ok.mpr
    refine ⟨spki, resolveSigningKey_ok_iff.mpr answers, Walk.then_ok.mpr ⟨?_, ?_⟩⟩
    · exact verifyResponseSignature_ok_iff.mpr signed
    apply Walk.bind_ok.mpr
    refine ⟨single, findSingle_ok_iff.mpr found, Walk.then_ok.mpr ⟨?_, Walk.then_ok.mpr ⟨?_, ?_⟩⟩⟩
    · exact checkCertIdHashes_ok_iff.mpr ⟨good.nameHash, good.keyHash⟩
    · exact checkResponseWindow_ok_iff.mpr ⟨good.produced, good.updated, good.current⟩
    · exact reportStatus_ok_iff.mpr good.good

end Exactness

end Pkix.Revocation
