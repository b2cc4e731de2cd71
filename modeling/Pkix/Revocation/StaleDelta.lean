import Pkix.Revocation.DeltaScope

/-! The age of a delta CRL. Its BaseCRLNumber is compared with the base CRL's number, its own
CRLNumber is never read. -/

namespace Pkix.Revocation

open Pkix.Path

section Entries

variable (der : CrlCodec) (cert : Certificate)

/-- An entry of a direct CRL for the certificate. -/
structure Lists (crl : CertificateList) (entry : RevokedCert) : Prop where
  listed : entry ∈ crl.entries
  serial : entry.serialNumber = cert.tbsCertificate.serialNumber
  issuer : namesMatch crl.tbsCertList.issuer cert.tbsCertificate.issuer = true

def RevokedByBase (crl : CertificateList) : Prop :=
  ∃ entry, Lists cert crl entry ∧ extractReasonCode der entry ≠ some .removeFromCrl

end Entries

section Direct

variable {der : CrlCodec} {checker : CrlChecker} {cert : Certificate}
variable {deltaCrl : CertificateList}

def isEntryFor (cert : Certificate) (crlIssuer : Name) (entry : RevokedCert) : Bool :=
  entry.serialNumber == cert.tbsCertificate.serialNumber &&
    namesMatch crlIssuer cert.tbsCertificate.issuer

theorem findMatchingEntry_direct {effective : Name} {entries : List RevokedCert} :
    findMatchingEntry der cert.tbsCertificate.issuer cert.tbsCertificate.serialNumber false
      effective entries = .ok (entries.find? (isEntryFor cert effective)) := by
  induction entries with
  | nil => rfl
  | cons entry rest ih =>
      rw [findMatchingEntry, List.find?_cons]
      change (if isEntryFor cert effective entry = true then _ else _) = _
      cases isEntryFor cert effective entry with
      | true => rfl
      | false => exact ih

theorem lookup_direct (noIssuer : checker.crlIssuerCert = none) (entries : List RevokedCert) :
    lookup der checker cert entries =
      .ok (entries.find? (isEntryFor cert checker.crl.tbsCertList.issuer)) := by
  unfold lookup
  rw [noIssuer]
  exact findMatchingEntry_direct

end Direct

namespace OldDelta

open Pkix.Path.Concrete
open Pkix.Revocation.Concrete

def issuer : Certificate :=
  issue 1 (commonName [65]) (commonName [65]) [1, 2, 3] [1, 2, 3] [caExtension]

def leaf : Certificate := issue 2 (commonName [65]) (commonName [67]) [1, 2, 3] [6] []

/-- The fifth CRL lists the leaf; a delta from the third to the fourth takes it off. -/
def baseCrl : CertificateList :=
  crlBy (commonName [65]) [1, 2, 3] [entryOf 2 []] [numberExtension oidCrlNumber false 5]

def deltaNumbered (number : UInt8) : CertificateList :=
  crlBy (commonName [65]) [1, 2, 3] [entryOf 2 [DirectDelta.removeFromCrlExtension]]
    [numberExtension oidCrlNumber false number, numberExtension oidDeltaCrlIndicator true 3]

def codec : CrlCodec :=
  crlCodec
    { basicConstraints := caTable
      crls := [baseCrl, deltaNumbered 4, deltaNumbered 6]
      crlReason := [([0x0A, 0x01, 0x08], .removeFromCrl)] }

theorem revoked : RevokedByBase codec leaf baseCrl :=
  ⟨entryOf 2 [], ⟨by decide +kernel, rfl, by decide +kernel⟩, by decide +kernel⟩

end OldDelta

end Pkix.Revocation
