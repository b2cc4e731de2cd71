import Pkix.Revocation.CrlFacts
import Pkix.Revocation.ConcreteCrl

/-! The scope a delta CRL is applied in. Its issuer is compared with that of the base CRL,
its issuing distribution point is never read. -/

namespace Pkix.Revocation

open Pkix.Path

section Scope

variable {der : CrlCodec} {checker : CrlChecker} {cert : Certificate}
  {deltaCrl : CertificateList}

end Scope

namespace DirectDelta

open Pkix.Path.Concrete
open Pkix.Revocation.Concrete

def issuer : Certificate :=
  issue 1 (commonName [65]) (commonName [65]) [1, 2, 3] [1, 2, 3] [caExtension]

def crlIssuer : Certificate := issue 3 (commonName [65]) (commonName [68]) [1, 2, 3] [7, 8] []

def leaf : Certificate := issue 2 (commonName [65]) (commonName [67]) [1, 2, 3] [6] []

def indirectContent : Bytes := [0x30, 0x03, 0x84, 0x01, 0xFF]

def indirectIdp : IssuingDistributionPoint :=
  { distributionPoint := none
    onlyContainsUserCerts := false
    onlyContainsCaCerts := false
    onlySomeReasons := none
    indirectCrl := true
    onlyContainsAttributeCerts := false }

def certificateIssuerContent : Bytes := tlv 0x30 (tlv 0xA4 (encodeName (commonName [65])))

def certificateIssuerExtension : Extension :=
  ⟨oidCertificateIssuer, true, certificateIssuerContent⟩

def removeFromCrlExtension : Extension := ⟨oidCrlReasons, false, [0x0A, 0x01, 0x08]⟩

/-- An indirect CRL that lists the leaf, and a delta that takes it off without declaring
itself indirect. -/
def baseCrl : CertificateList :=
  crlBy (commonName [68]) [7, 8] [entryOf 2 [certificateIssuerExtension]]
    [numberExtension oidCrlNumber false 1, ⟨oidIssuingDistributionPoint, true, indirectContent⟩]

def deltaCrl : CertificateList :=
  crlBy (commonName [68]) [7, 8]
    [entryOf 2 [certificateIssuerExtension, removeFromCrlExtension]]
    [numberExtension oidCrlNumber false 2, numberExtension oidDeltaCrlIndicator true 1]

def codec : CrlCodec :=
  crlCodec
    { basicConstraints := caTable
      crls := [baseCrl, deltaCrl]
      issuingDistributionPoint := [(indirectContent, indirectIdp)]
      generalNames := [(certificateIssuerContent, [.directoryName (commonName [65])])]
      crlReason := [([0x0A, 0x01, 0x08], .removeFromCrl)] }

def checker : CrlChecker :=
  { crl := baseCrl, deltaCrl := some deltaCrl, crlIssuerCert := some crlIssuer
    signerDiscovered := false, nowUnix := summer2026, verifier := keyCopyVerifier }

end DirectDelta

end Pkix.Revocation
