import Pkix.Revocation.SignerDiscovery

/-! The offline CRL checker: its constructors and its two entry points. -/

namespace Pkix.Revocation

open Pkix.Path

structure CrlChecker where
  crl : CertificateList
  deltaCrl : Option CertificateList
  crlIssuerCert : Option Certificate
  signerDiscovered : Bool
  nowUnix : Nat
  verifier : SignatureVerifier

section Extensions

variable (der : CrlCodec)

/-- Big-endian octets, at most eight of them. -/
def uintToU64 (octets : Bytes) : Option Nat :=
  if octets.length > 8 then none
  else some (octets.foldl (fun value octet => value * 256 + octet.toNat) 0)

def numberIn (extension : Extension) : Except DerError Nat :=
  match der.uint extension.extnValue with
  | .error failure => .error failure
  | .ok octets =>
      match uintToU64 octets with
      | none => .error der.overflow
      | some number => .ok number

def crlNumber (crl : CertificateList) : Option (Except DerError Nat) :=
  (findIn crl.extensions oidCrlNumber).map (numberIn der)

def hasDeltaCrlIndicator (crl : CertificateList) : Bool :=
  crl.extensions.any (fun extension => extension.extnId == oidDeltaCrlIndicator)

def baseCrlNumber (crl : CertificateList) : Option (Except DerError Nat) :=
  (findIn crl.extensions oidDeltaCrlIndicator).map (numberIn der)

def checkCrlSign (cert : Certificate) : Result Unit :=
  match findIn cert.extensions oidKeyUsageCrl with
  | none => .ok ()
  | some extension =>
      match der.keyUsage extension.extnValue with
      | none => .error (.crlParseError (der.keyUsageFailure extension.extnValue))
      | some usage => requireThat usage.crlSign .crlSignMissing

def extractReasonCode (entry : RevokedCert) : Option CrlReason :=
  (findIn entry.extensions oidCrlReasons).bind (fun extension =>
    der.crlReason extension.extnValue)

def parseIssuingDp (crl : CertificateList) : Result (Option IssuingDistributionPoint) :=
  match findIn crl.extensions oidIssuingDistributionPoint with
  | none => .ok none
  | some extension => do
      let idp ← orCrlParseError (der.issuingDistributionPoint extension.extnValue)
      pure (some idp)

def certCrlDistributionPoints (cert : Certificate) : Result (Option CrlDistributionPoints) :=
  match findIn cert.extensions oidCrlDistributionPoints with
  | none => .ok none
  | some extension => do
      let points ← orCrlParseError (der.crlDistributionPoints extension.extnValue)
      pure (some points)

def certIsCaCert (cert : Certificate) : Result Bool :=
  match findIn cert.extensions oidBasicConstraints with
  | none => .ok false
  | some extension =>
      match der.basicConstraints extension.extnValue with
      | none => .error .malformedCertificate
      | some constraints => .ok constraints.ca

end Extensions

section Scope

def dpnToGeneralNames (baseDn : Name) : DistributionPointName → List GeneralName
  | .fullName names => names
  | .nameRelativeToCrlIssuer rdn => [.directoryName (baseDn ++ [rdn])]

def generalNameMatches (a b : GeneralName) : Bool :=
  match a, b with
  | .directoryName aDn, .directoryName bDn => namesMatch aDn bDn
  | _, _ => a == b

def generalNamesIntersect (a b : List GeneralName) : Bool :=
  a.any (fun ga => b.any (fun gb => generalNameMatches ga gb))

variable (der : CrlCodec)

def pointMatches (certIssuer : Name) (idpNames : List GeneralName) (point : DistributionPoint) :
    Bool :=
  match point.distributionPoint with
  | none => false
  | some name => generalNamesIntersect (dpnToGeneralNames certIssuer name) idpNames

def checkIdpDpScope (cert : Certificate) (idp : IssuingDistributionPoint)
    (certIssuer crlSignerSubject : Name) : Result Unit := do
  let certCdps ← certCrlDistributionPoints der cert
  match certCdps, idp.distributionPoint with
  | _, none => .ok ()
  | none, some _ => .error (.outOfScope .crlIdpDistributionPointMismatch)
  | some points, some idpName =>
      requireThat
        (points.any (pointMatches certIssuer (dpnToGeneralNames crlSignerSubject idpName)))
        (.outOfScope .crlIdpDistributionPointMismatch)

def checkIdpScope (cert : Certificate) (idp : IssuingDistributionPoint)
    (crlSignerSubject : Name) : Result Unit := do
  requireThat (!idp.onlyContainsAttributeCerts) (.outOfScope .crlOnlyAttributeCerts)
  let certIsCa ← certIsCaCert der cert
  requireThat (!(idp.onlyContainsUserCerts && certIsCa)) (.outOfScope .crlOnlyUserCerts)
  requireThat (!(idp.onlyContainsCaCerts && !certIsCa)) (.outOfScope .crlOnlyCaCerts)
  checkIdpDpScope der cert idp cert.tbsCertificate.issuer crlSignerSubject

def checkScope (cert : Certificate) (parsedIdp : Option IssuingDistributionPoint)
    (crlSignerSubject : Name) : Result Unit :=
  match parsedIdp with
  | none => .ok ()
  | some idp => checkIdpScope der cert idp crlSignerSubject

end Scope

section Lookup

variable (der : CrlCodec)

def firstDirectoryName : List GeneralName → Option Name
  | [] => none
  | .directoryName name :: _ => some name
  | _ :: rest => firstDirectoryName rest

def parseCertificateIssuerDn (content : Bytes) : Result Name := do
  let names ← orCrlParseError (der.generalNames content)
  match firstDirectoryName names with
  | some name => .ok name
  | none => .error (.crlParseError der.badValue)

/-- The issuer an entry stands for, given that of the entry before it. -/
def effectiveIssuer (isIndirect : Bool) (effective : Name) (entry : RevokedCert) : Result Name :=
  if isIndirect then
    match findIn entry.extensions oidCertificateIssuer with
    | none => .ok effective
    | some extension => parseCertificateIssuerDn der extension.extnValue
  else .ok effective

def findMatchingEntry (certIssuer : Name) (certSerial : Bytes) (isIndirect : Bool) :
    (effective : Name) → List RevokedCert → Result (Option RevokedCert)
  | _, [] => .ok none
  | effective, entry :: rest => do
      let effective ← effectiveIssuer der isIndirect effective entry
      if entry.serialNumber == certSerial && namesMatch effective certIssuer then
        .ok (some entry)
      else findMatchingEntry certIssuer certSerial isIndirect effective rest

def checkBaseEntries (cert : Certificate) (crl : CertificateList) (isIndirect : Bool) :
    Result Unit := do
  let found ← findMatchingEntry der cert.tbsCertificate.issuer cert.tbsCertificate.serialNumber
    isIndirect crl.tbsCertList.issuer crl.entries
  match found with
  | some entry => .error (.revoked cert.tbsCertificate.serialNumber (extractReasonCode der entry))
  | none => .ok ()

def checkRevocationStatusIndirect (cert : Certificate) (deltaEntries : List RevokedCert)
    (crl : CertificateList) (isIndirect : Bool) : Result Unit := do
  let found ← findMatchingEntry der cert.tbsCertificate.issuer cert.tbsCertificate.serialNumber
    isIndirect crl.tbsCertList.issuer deltaEntries
  match found with
  | some entry =>
      if extractReasonCode der entry = some .removeFromCrl then .ok ()
      else .error (.revoked cert.tbsCertificate.serialNumber (extractReasonCode der entry))
  | none => checkBaseEntries der cert crl isIndirect

end Lookup

section Checks

variable (der : CrlCodec)

/-- A CRL without nextUpdate counts as expired. -/
def checkCrlWindow (nowUnix : Nat) (crl : CertificateList) : Result Unit := do
  requireThat (decide (timeToUnixSecs crl.tbsCertList.thisUpdate ≤ nowUnix)) .crlExpired
  match crl.tbsCertList.nextUpdate with
  | none => .error .crlExpired
  | some nextUpdate => requireThat (decide (nowUnix ≤ timeToUnixSecs nextUpdate)) .crlExpired

def verifyCrlSignature (verifier : SignatureVerifier) (crl : CertificateList)
    (spki : SubjectPublicKeyInfo) : Result Unit := do
  let tbsBytes ← orCrlParseError (der.encodeTbsCertList crl.tbsCertList)
  requireThat (verifier crl.signatureAlgorithm spki tbsBytes crl.signature.rawBytes)
    .crlSignatureInvalid

def verifyDeltaCrlAndCollect (verifier : SignatureVerifier) (deltaCrl : CertificateList)
    (issuerSpki : SubjectPublicKeyInfo) (expectedIssuerName : Name) (nowUnix : Nat) :
    Result (List RevokedCert) := do
  requireThat (namesMatch deltaCrl.tbsCertList.issuer expectedIssuerName) .crlIssuerMismatch
  checkCrlWindow nowUnix deltaCrl
  verifyCrlSignature der verifier deltaCrl issuerSpki
  pure deltaCrl.entries

/-- The key and name a CRL is checked against, and the certificate whose KeyUsage has to
allow it, if there is one. -/
structure Signer where
  subject : Name
  spki : SubjectPublicKeyInfo
  crlSignCert : Option Certificate

def certSigner (cert : Certificate) : Signer :=
  { subject := cert.tbsCertificate.subject
    spki := cert.tbsCertificate.subjectPublicKeyInfo
    crlSignCert := some cert }

/-- An anchor has no KeyUsage to look at. -/
def anchorSigner (anchor : TrustAnchor) : Signer :=
  { subject := anchor.subject
    spki := anchor.subjectPublicKeyInfo
    crlSignCert := none }

variable (checker : CrlChecker)

def collectDeltaEntries (signer : Signer) : Result (List RevokedCert) :=
  match checker.deltaCrl with
  | none => .ok []
  | some deltaCrl => do
      requireThat (namesMatch deltaCrl.tbsCertList.issuer checker.crl.tbsCertList.issuer)
        .crlIssuerMismatch
      verifyDeltaCrlAndCollect der checker.verifier deltaCrl signer.spki signer.subject
        checker.nowUnix

def declaresIndirect (parsedIdp : Option IssuingDistributionPoint) : Bool :=
  (parsedIdp.map (·.indirectCrl)).getD false

/-- The choice between the stored certificate and the direct issuer. -/
def selectSigner (indirect : Bool) (direct : Signer) : Result Signer :=
  match checker.crlIssuerCert, indirect with
  | some crlIssuer, true => .ok (certSigner crlIssuer)
  | some discovered, false =>
      if checker.signerDiscovered then .ok (certSigner discovered)
      else .error .indirectCrlIssuerUnexpected
  | none, true => .error .indirectCrlIssuerMissing
  | none, false => .ok direct

def checkSignerCrlSign (signer : Signer) : Result Unit :=
  match signer.crlSignCert with
  | none => .ok ()
  | some cert => checkCrlSign der cert

/-- From the validity window to the lookup: the two entry points repeat these steps. -/
def checkAgainstSigner (cert : Certificate) (parsedIdp : Option IssuingDistributionPoint)
    (signer : Signer) : Result Unit := do
  checkCrlWindow checker.nowUnix checker.crl
  verifyCrlSignature der checker.verifier checker.crl signer.spki
  checkScope der cert parsedIdp signer.subject
  let deltaEntries ← collectDeltaEntries der checker signer
  checkRevocationStatusIndirect der cert deltaEntries checker.crl checker.crlIssuerCert.isSome

def checkRevocation (cert issuer : Certificate) : Result Unit := do
  let parsedIdp ← parseIssuingDp der checker.crl
  let signer ← selectSigner checker (declaresIndirect parsedIdp) (certSigner issuer)
  requireThat (namesMatch checker.crl.tbsCertList.issuer signer.subject) .crlIssuerMismatch
  requireThat (namesMatch issuer.tbsCertificate.subject cert.tbsCertificate.issuer)
    .crlIssuerMismatch
  requireThat
    (checker.crlIssuerCert.isSome ||
      namesMatch cert.tbsCertificate.issuer checker.crl.tbsCertList.issuer)
    .crlIssuerMismatch
  checkSignerCrlSign der signer
  checkAgainstSigner der checker cert parsedIdp signer

def checkRevocationAgainstAnchor (cert : Certificate) (anchor : TrustAnchor) : Result Unit := do
  let parsedIdp ← parseIssuingDp der checker.crl
  let signer ← selectSigner checker (declaresIndirect parsedIdp) (anchorSigner anchor)
  requireThat (namesMatch checker.crl.tbsCertList.issuer signer.subject) .crlIssuerMismatch
  requireThat (namesMatch cert.tbsCertificate.issuer anchor.subject) .crlIssuerMismatch
  checkSignerCrlSign der signer
  checkAgainstSigner der checker cert parsedIdp signer

end Checks

section Constructors

variable (der : CrlCodec) (nowUnix : Nat) (verifier : SignatureVerifier)

def CrlChecker.new (crlDer : Bytes) : Result CrlChecker := do
  let crl ← orCrlParseError (der.certificateList crlDer)
  pure { crl, deltaCrl := none, crlIssuerCert := none, signerDiscovered := false, nowUnix, verifier }

def CrlChecker.newWithCrlIssuer (crlDer : Bytes) (crlIssuerCert : Certificate) :
    Result CrlChecker := do
  let crl ← orCrlParseError (der.certificateList crlDer)
  pure
    { crl, deltaCrl := none, crlIssuerCert := some crlIssuerCert, signerDiscovered := false
      nowUnix, verifier }

/-- The signer a bundle gives for a CRL, once it may sign CRLs and leads to a self-signed
certificate. -/
def discoveredSigner (bundle : List Slot) (crl : CertificateList) : Result Certificate :=
  match discoverCrlSigner der bundle crl with
  | none => .error .crlSignerNotFound
  | some signer => do
      checkCrlSign der signer.1
      requireThat (reachesSelfSigned der bundle signer) .crlSignerNotTrusted
      pure signer.1

def CrlChecker.newWithSignerDiscovery (crlDer : Bytes) (bundle : List Certificate)
    (_certToCheck : Certificate) : Result CrlChecker := do
  let crl ← orCrlParseError (der.certificateList crlDer)
  let signer ← discoveredSigner der (slots bundle) crl
  pure
    { crl, deltaCrl := none, crlIssuerCert := some signer, signerDiscovered := true
      nowUnix, verifier }

def requiredBaseNumber (deltaCrl : CertificateList) : Result Nat :=
  match baseCrlNumber der deltaCrl with
  | none => .error .deltaCrlBaseMismatch
  | some number => orCrlParseError number

def checkBaseNumber (baseCrl : CertificateList) (deltaBaseNum : Nat) : Result Unit :=
  match crlNumber der baseCrl with
  | none => .ok ()
  | some number => do
      let baseNum ← orCrlParseError number
      requireThat (!decide (baseNum < deltaBaseNum)) .crlNumberMismatch

def CrlChecker.withDelta (baseDer deltaDer : Bytes) : Result CrlChecker := do
  let baseCrl ← orCrlParseError (der.certificateList baseDer)
  let deltaCrl ← orCrlParseError (der.certificateList deltaDer)
  requireThat (!hasDeltaCrlIndicator baseCrl) .deltaCrlBaseMismatch
  requireThat (hasDeltaCrlIndicator deltaCrl) .deltaCrlBaseMismatch
  let deltaBaseNum ← requiredBaseNumber der deltaCrl
  requireThat (namesMatch baseCrl.tbsCertList.issuer deltaCrl.tbsCertList.issuer)
    .deltaCrlBaseMismatch
  checkBaseNumber der baseCrl deltaBaseNum
  pure
    { crl := baseCrl, deltaCrl := some deltaCrl, crlIssuerCert := none, signerDiscovered := false
      nowUnix, verifier }

def CrlChecker.withDeltaAndCrlIssuer (baseDer deltaDer : Bytes) (crlIssuerCert : Certificate) :
    Result CrlChecker := do
  let checker ← CrlChecker.withDelta der nowUnix verifier baseDer deltaDer
  pure { checker with crlIssuerCert := some crlIssuerCert }

/-- The checkers that some constructor gives. -/
inductive Constructed : CrlChecker → Prop
  | new {checker : CrlChecker} (crlDer : Bytes)
      (built : CrlChecker.new der nowUnix verifier crlDer = .ok checker) : Constructed checker
  | newWithCrlIssuer {checker : CrlChecker} (crlDer : Bytes) (crlIssuerCert : Certificate)
      (built : CrlChecker.newWithCrlIssuer der nowUnix verifier crlDer crlIssuerCert =
        .ok checker) : Constructed checker
  | newWithSignerDiscovery {checker : CrlChecker} (crlDer : Bytes) (bundle : List Certificate)
      (certToCheck : Certificate)
      (built : CrlChecker.newWithSignerDiscovery der nowUnix verifier crlDer bundle certToCheck =
        .ok checker) : Constructed checker
  | withDelta {checker : CrlChecker} (baseDer deltaDer : Bytes)
      (built : CrlChecker.withDelta der nowUnix verifier baseDer deltaDer = .ok checker) :
      Constructed checker
  | withDeltaAndCrlIssuer {checker : CrlChecker} (baseDer deltaDer : Bytes)
      (crlIssuerCert : Certificate)
      (built : CrlChecker.withDeltaAndCrlIssuer der nowUnix verifier baseDer deltaDer
        crlIssuerCert = .ok checker) : Constructed checker

end Constructors

end Pkix.Revocation
