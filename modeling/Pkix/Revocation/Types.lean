import Pkix.Path.ChainWalk

/-! The values the revocation checkers read, and their errors. Decoding and encoding DER
is the work of other crates: `CrlCodec` stands for what the CRL checker calls of them. -/

namespace Pkix.Revocation

open Pkix.Path

inductive CrlReason
  | unspecified
  | keyCompromise
  | caCompromise
  | affiliationChanged
  | superseded
  | cessationOfOperation
  | certificateHold
  | removeFromCrl
  | privilegeWithdrawn
  | aaCompromise
  deriving DecidableEq, Repr

structure RevokedCert where
  serialNumber : Bytes
  revocationDate : Time
  crlEntryExtensions : Option (List Extension)
  deriving DecidableEq, Repr

structure TbsCertList where
  version : Version
  signature : AlgorithmIdentifier
  issuer : Name
  thisUpdate : Time
  nextUpdate : Option Time
  revokedCertificates : Option (List RevokedCert)
  crlExtensions : Option (List Extension)
  deriving DecidableEq, Repr

structure CertificateList where
  tbsCertList : TbsCertList
  signatureAlgorithm : AlgorithmIdentifier
  signature : BitString
  deriving DecidableEq, Repr

/-- One bit for each reason. -/
structure ReasonFlags where
  bits : Nat
  deriving DecidableEq, Repr

inductive DistributionPointName
  | fullName (names : List GeneralName)
  | nameRelativeToCrlIssuer (rdn : RelativeDistinguishedName)
  deriving DecidableEq, Repr

structure DistributionPoint where
  distributionPoint : Option DistributionPointName
  reasons : Option ReasonFlags
  crlIssuer : Option (List GeneralName)
  deriving DecidableEq, Repr

abbrev CrlDistributionPoints := List DistributionPoint

structure IssuingDistributionPoint where
  distributionPoint : Option DistributionPointName
  onlyContainsUserCerts : Bool
  onlyContainsCaCerts : Bool
  onlySomeReasons : Option ReasonFlags
  indirectCrl : Bool
  onlyContainsAttributeCerts : Bool
  deriving DecidableEq, Repr

structure AuthorityKeyIdentifier where
  keyIdentifier : Option Bytes
  authorityCertIssuer : Option (List GeneralName)
  authorityCertSerialNumber : Option Bytes
  deriving DecidableEq, Repr

/-- What the CRL checker calls besides. `uint` gives the octets of a nonnegative INTEGER
without a sign octet; the last three are the errors of a KeyUsage that does not decode, of
a number too large and of a value that is not allowed. -/
structure CrlCodec extends DerCodec where
  certificateList : Bytes → Except DerError CertificateList
  encodeTbsCertList : TbsCertList → Except DerError Bytes
  issuingDistributionPoint : Bytes → Except DerError IssuingDistributionPoint
  crlDistributionPoints : Bytes → Except DerError CrlDistributionPoints
  generalNames : Bytes → Except DerError (List GeneralName)
  crlReason : Bytes → Option CrlReason
  uint : Bytes → Except DerError Bytes
  authorityKeyIdentifier : Bytes → Option AuthorityKeyIdentifier
  subjectKeyIdentifier : Bytes → Option Bytes
  keyUsageFailure : Bytes → DerError
  overflow : DerError
  badValue : DerError

inductive OutOfScopeReason
  | crlOnlyAttributeCerts
  | crlOnlyUserCerts
  | crlOnlyCaCerts
  | crlIdpDistributionPointMismatch
  deriving DecidableEq, Repr

inductive Error
  | revoked (serial : Bytes) (reasonCode : Option CrlReason)
  | crlExpired
  | crlIssuerMismatch
  | crlSignatureInvalid
  | crlParseError (error : DerError)
  | ocspSignatureInvalid
  | ocspResponderIdMismatch
  | ocspCertIdMismatch
  | ocspIssuerCertMismatch
  | ocspStatusUnknown
  | ocspExpired
  | ocspParseError (error : DerError)
  | ocspMalformed
  | ocspResponderEkuMissing
  | ocspResponderEkuMalformed
  | ocspResponderCertNotIssuedByCa
  | ocspResponderCertExpired
  | ocspResponderCertSigInvalid
  | indirectCrlIssuerMissing
  | indirectCrlIssuerUnexpected
  | crlSignMissing
  | crlSignerNotFound
  | crlSignerNotTrusted
  | deltaCrlBaseMismatch
  | crlNumberMismatch
  | malformedCertificate
  | outOfScope (reason : OutOfScopeReason)
  | revocationFetchFailed (description : String)
  deriving DecidableEq, Repr

abbrev Result (α : Type) := Except Error α

def requireThat (condition : Bool) (failure : Error) : Result Unit :=
  if condition then .ok () else .error failure

@[simp] theorem requireThat_ok_iff {condition : Bool} {failure : Error} {result : Unit} :
    requireThat condition failure = .ok result ↔ condition = true := by
  unfold requireThat
  cases condition <;> simp

/-- A decoding step of the CRL checker. -/
def orCrlParseError {α : Type} : Except DerError α → Result α
  | .error failure => .error (.crlParseError failure)
  | .ok value => .ok value

@[simp] theorem orCrlParseError_ok_iff {α : Type} {outcome : Except DerError α} {value : α} :
    orCrlParseError outcome = .ok value ↔ outcome = .ok value := by
  cases outcome <;> simp [orCrlParseError]

/-- What a caller can tell from an outcome. -/
inductive Verdict
  | notRevoked
  | revoked (serial : Bytes) (reasonCode : Option CrlReason)
  | undetermined
  deriving DecidableEq, Repr

def verdict : Result Unit → Verdict
  | .ok _ => .notRevoked
  | .error (.revoked serial reasonCode) => .revoked serial reasonCode
  | .error _ => .undetermined

def oidCrlReasons : ObjectIdentifier := ⟨[2, 5, 29, 21]⟩
def oidCrlNumber : ObjectIdentifier := ⟨[2, 5, 29, 20]⟩
def oidDeltaCrlIndicator : ObjectIdentifier := ⟨[2, 5, 29, 27]⟩
def oidIssuingDistributionPoint : ObjectIdentifier := ⟨[2, 5, 29, 28]⟩
def oidCrlDistributionPoints : ObjectIdentifier := ⟨[2, 5, 29, 31]⟩
def oidKeyUsageCrl : ObjectIdentifier := ⟨[2, 5, 29, 15]⟩
def oidCertificateIssuer : ObjectIdentifier := ⟨[2, 5, 29, 29]⟩
def oidAuthorityKeyIdentifier : ObjectIdentifier := ⟨[2, 5, 29, 35]⟩
def oidSubjectKeyIdentifier : ObjectIdentifier := ⟨[2, 5, 29, 14]⟩

def CertificateList.extensions (crl : CertificateList) : List Extension :=
  crl.tbsCertList.crlExtensions.getD []

def CertificateList.entries (crl : CertificateList) : List RevokedCert :=
  crl.tbsCertList.revokedCertificates.getD []

def RevokedCert.extensions (entry : RevokedCert) : List Extension :=
  entry.crlEntryExtensions.getD []

def findIn (extensions : List Extension) (oid : ObjectIdentifier) : Option Extension :=
  extensions.find? (fun extension => extension.extnId == oid)

end Pkix.Revocation
