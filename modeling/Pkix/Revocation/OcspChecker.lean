import Pkix.Revocation.Types

/-! The offline OCSP checker. `OcspCodec` stands for the decoders, the encoders and the hash
functions of other crates. -/

namespace Pkix.Revocation

open Pkix.Path

inductive ResponderId
  | byName (name : Name)
  | byKey (keyHash : Bytes)
  deriving DecidableEq, Repr

structure CertId where
  hashAlgorithm : AlgorithmIdentifier
  issuerNameHash : Bytes
  issuerKeyHash : Bytes
  serialNumber : Bytes
  deriving DecidableEq, Repr

structure RevokedInfo where
  revocationTime : DateTime
  revocationReason : Option CrlReason
  deriving DecidableEq, Repr

inductive CertStatus
  | good
  | revoked (info : RevokedInfo)
  | unknown
  deriving DecidableEq, Repr

structure SingleResponse where
  certId : CertId
  certStatus : CertStatus
  thisUpdate : DateTime
  nextUpdate : Option DateTime
  singleExtensions : Option (List Extension)
  deriving DecidableEq, Repr

inductive OcspVersion
  | v1
  deriving DecidableEq, Repr

structure ResponseData where
  version : OcspVersion
  responderId : ResponderId
  producedAt : DateTime
  responses : List SingleResponse
  responseExtensions : Option (List Extension)
  deriving DecidableEq, Repr

structure BasicOcspResponse where
  tbsResponseData : ResponseData
  signatureAlgorithm : AlgorithmIdentifier
  signature : BitString
  certs : Option (List Certificate)
  deriving DecidableEq, Repr

inductive OcspResponseStatus
  | successful
  | malformedRequest
  | internalError
  | tryLater
  | sigRequired
  | unauthorized
  deriving DecidableEq, Repr

structure ResponseBytes where
  responseType : ObjectIdentifier
  response : Bytes
  deriving DecidableEq, Repr

structure OcspResponse where
  responseStatus : OcspResponseStatus
  responseBytes : Option ResponseBytes
  deriving DecidableEq, Repr

structure OcspCodec extends DerCodec where
  ocspResponse : Bytes → Except DerError OcspResponse
  basicOcspResponse : Bytes → Except DerError BasicOcspResponse
  encodeResponseData : ResponseData → Except DerError Bytes
  encodeName : Name → Except DerError Bytes
  sha1 : Bytes → Bytes
  sha256 : Bytes → Bytes
  sha384 : Bytes → Bytes
  sha512 : Bytes → Bytes

def oidPkixOcspBasic : ObjectIdentifier := ⟨[1, 3, 6, 1, 5, 5, 7, 48, 1, 1]⟩
def oidSha1 : ObjectIdentifier := ⟨[1, 3, 14, 3, 2, 26]⟩
def oidSha256 : ObjectIdentifier := ⟨[2, 16, 840, 1, 101, 3, 4, 2, 1]⟩
def oidSha384 : ObjectIdentifier := ⟨[2, 16, 840, 1, 101, 3, 4, 2, 2]⟩
def oidSha512 : ObjectIdentifier := ⟨[2, 16, 840, 1, 101, 3, 4, 2, 3]⟩
def oidKpOcspSigning : ObjectIdentifier := ⟨[1, 3, 6, 1, 5, 5, 7, 3, 9]⟩

structure OcspChecker where
  basic : BasicOcspResponse
  nowUnix : Nat
  verifier : SignatureVerifier

/-- A decoding or encoding step of the OCSP checker. -/
def orOcspParseError {α : Type} : Except DerError α → Result α
  | .error failure => .error (.ocspParseError failure)
  | .ok value => .ok value

@[simp] theorem orOcspParseError_ok_iff {α : Type} {outcome : Except DerError α} {value : α} :
    orOcspParseError outcome = .ok value ↔ outcome = .ok value := by
  cases outcome <;> simp [orOcspParseError]

section Responder

variable (der : OcspCodec)

def parseBasicResponse (responseDer : Bytes) : Result BasicOcspResponse := do
  let response ← orOcspParseError (der.ocspResponse responseDer)
  requireThat (response.responseStatus == .successful) .ocspMalformed
  match response.responseBytes with
  | none => .error .ocspMalformed
  | some bytes => do
      requireThat (bytes.responseType == oidPkixOcspBasic) .ocspMalformed
      orOcspParseError (der.basicOcspResponse bytes.response)

def OcspChecker.new (nowUnix : Nat) (verifier : SignatureVerifier) (responseDer : Bytes) :
    Result OcspChecker := do
  let basic ← parseBasicResponse der responseDer
  pure { basic, nowUnix, verifier }

def hashCertidInput (oid : ObjectIdentifier) (data : Bytes) : Result Bytes :=
  if oid = oidSha1 then .ok (der.sha1 data)
  else if oid = oidSha256 then .ok (der.sha256 data)
  else if oid = oidSha384 then .ok (der.sha384 data)
  else if oid = oidSha512 then .ok (der.sha512 data)
  else .error .ocspMalformed

def responderIdMatches (id : ResponderId) (subject : Name) (spkiRaw : Bytes) : Bool :=
  match id with
  | .byName name => namesMatch name subject
  | .byKey keyHash => keyHash == der.sha1 spkiRaw

def certHasOcspSigningEku (cert : Certificate) : Result Bool :=
  match findIn cert.extensions oidExtendedKeyUsage with
  | none => .ok false
  | some extension =>
      match der.extendedKeyUsage extension.extnValue with
      | none => .error .ocspResponderEkuMalformed
      | some usages => .ok (usages.contains oidKpOcspSigning)

def validateDelegateResponderCert (verifier : SignatureVerifier) (delegate : Certificate)
    (issuerSubject : Name) (issuerSpki : SubjectPublicKeyInfo) (producedAtUnix : Nat) :
    Result Unit := do
  requireThat (namesMatch delegate.tbsCertificate.issuer issuerSubject)
    .ocspResponderCertNotIssuedByCa
  let hasEku ← certHasOcspSigningEku der delegate
  requireThat hasEku .ocspResponderEkuMissing
  requireThat
    (decide (timeToUnixSecs delegate.tbsCertificate.validity.notBefore ≤ producedAtUnix) &&
      decide (producedAtUnix ≤ timeToUnixSecs delegate.tbsCertificate.validity.notAfter))
    .ocspResponderCertExpired
  let tbsBytes ← orOcspParseError (der.encodeTbs delegate.tbsCertificate)
  requireThat
    (verifier delegate.signatureAlgorithm issuerSpki tbsBytes delegate.signature.rawBytes)
    .ocspResponderCertSigInvalid

def delegateMatches (id : ResponderId) (delegate : Certificate) : Bool :=
  responderIdMatches der id delegate.tbsCertificate.subject
    delegate.tbsCertificate.subjectPublicKeyInfo.subjectPublicKey.rawBytes

/-- The first certificate that matches has to be a valid responder; no later one is tried. -/
def resolveDelegate (verifier : SignatureVerifier) (id : ResponderId) (issuerSubject : Name)
    (issuerSpki : SubjectPublicKeyInfo) (producedAtUnix : Nat) :
    List Certificate → Result SubjectPublicKeyInfo
  | [] => .error .ocspResponderIdMismatch
  | delegate :: rest =>
      if delegateMatches der id delegate then do
        validateDelegateResponderCert der verifier delegate issuerSubject issuerSpki
          producedAtUnix
        pure delegate.tbsCertificate.subjectPublicKeyInfo
      else resolveDelegate verifier id issuerSubject issuerSpki producedAtUnix rest

def resolveSigningKeyForResponse (basic : BasicOcspResponse) (issuerSubject : Name)
    (issuerSpki : SubjectPublicKeyInfo) (verifier : SignatureVerifier) (producedAtUnix : Nat) :
    Result SubjectPublicKeyInfo :=
  if responderIdMatches der basic.tbsResponseData.responderId issuerSubject
      issuerSpki.subjectPublicKey.rawBytes then
    .ok issuerSpki
  else
    resolveDelegate der verifier basic.tbsResponseData.responderId issuerSubject issuerSpki
      producedAtUnix (basic.certs.getD [])

end Responder

section Checks

variable (der : OcspCodec) (checker : OcspChecker)

def verifyResponseSignature (signingSpki : SubjectPublicKeyInfo) : Result Unit := do
  let tbsBytes ← orOcspParseError (der.encodeResponseData checker.basic.tbsResponseData)
  requireThat
    (checker.verifier checker.basic.signatureAlgorithm signingSpki tbsBytes
      checker.basic.signature.rawBytes)
    .ocspSignatureInvalid

def findSingle (cert : Certificate) : Result SingleResponse :=
  match checker.basic.tbsResponseData.responses.find?
      (fun single => single.certId.serialNumber == cert.tbsCertificate.serialNumber) with
  | none => .error .ocspStatusUnknown
  | some single => .ok single

def checkCertIdHashes (single : SingleResponse) (issuerSubject : Name)
    (issuerSpki : SubjectPublicKeyInfo) : Result Unit := do
  let nameDer ← orOcspParseError (der.encodeName issuerSubject)
  let expectedNameHash ← hashCertidInput der single.certId.hashAlgorithm.oid nameDer
  let expectedKeyHash ←
    hashCertidInput der single.certId.hashAlgorithm.oid issuerSpki.subjectPublicKey.rawBytes
  requireThat
    (single.certId.issuerNameHash == expectedNameHash &&
      single.certId.issuerKeyHash == expectedKeyHash)
    .ocspCertIdMismatch

/-- An absent nextUpdate counts as expired. -/
def checkResponseWindow (single : SingleResponse) : Result Unit := do
  requireThat
    (decide (checker.basic.tbsResponseData.producedAt.unixDuration ≤ checker.nowUnix))
    .ocspMalformed
  requireThat (decide (single.thisUpdate.unixDuration ≤ checker.nowUnix)) .ocspExpired
  match single.nextUpdate with
  | none => .error .ocspExpired
  | some nextUpdate =>
      requireThat (decide (checker.nowUnix ≤ nextUpdate.unixDuration)) .ocspExpired

def reportStatus (serial : Bytes) : CertStatus → Result Unit
  | .good => .ok ()
  | .revoked info => .error (.revoked serial info.revocationReason)
  | .unknown => .error .ocspStatusUnknown

/-- From the signing key to the status: the two entry points repeat these steps for the name
and key of the issuer and of the anchor. -/
def checkResponse (cert : Certificate) (issuerSubject : Name)
    (issuerSpki : SubjectPublicKeyInfo) : Result Unit := do
  let signingSpki ← resolveSigningKeyForResponse der checker.basic issuerSubject issuerSpki
    checker.verifier checker.basic.tbsResponseData.producedAt.unixDuration
  verifyResponseSignature der checker signingSpki
  let single ← findSingle checker cert
  checkCertIdHashes der single issuerSubject issuerSpki
  checkResponseWindow checker single
  reportStatus cert.tbsCertificate.serialNumber single.certStatus

def OcspChecker.checkRevocation (cert issuer : Certificate) : Result Unit := do
  requireThat (namesMatch issuer.tbsCertificate.subject cert.tbsCertificate.issuer)
    .ocspIssuerCertMismatch
  checkResponse der checker cert issuer.tbsCertificate.subject
    issuer.tbsCertificate.subjectPublicKeyInfo

def OcspChecker.checkRevocationAgainstAnchor (cert : Certificate) (anchor : TrustAnchor) :
    Result Unit := do
  requireThat (namesMatch anchor.subject cert.tbsCertificate.issuer) .ocspIssuerCertMismatch
  checkResponse der checker cert anchor.subject anchor.subjectPublicKeyInfo

end Checks

end Pkix.Revocation
