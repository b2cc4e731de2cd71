import Pkix.Revocation.CrlChecker
import Pkix.Path.ConcreteCodec

/-! A codec for CRLs that computes: the DER form of a CRL, and decoders given by tables. -/

namespace Pkix.Revocation.Concrete

open Pkix.Path
open Pkix.Path.Concrete

def encodeExtensions (extensions : Option (List Extension)) : Bytes :=
  (extensions.map (fun exts => tlv 0x30 (exts.flatMap encodeExtension))).getD []

def encodeRevokedCert (entry : RevokedCert) : Bytes :=
  tlv 0x30 (tlv 0x02 entry.serialNumber ++ encodeTime entry.revocationDate ++
    encodeExtensions entry.crlEntryExtensions)

def encodeCrlVersion : Version → Bytes
  | .v1 => tlv 0x02 [0]
  | .v2 => tlv 0x02 [1]
  | .v3 => tlv 0x02 [2]

def encodeTbsCertList (tbs : TbsCertList) : Bytes :=
  tlv 0x30 (encodeCrlVersion tbs.version ++ encodeAlgorithm tbs.signature ++
    encodeName tbs.issuer ++ encodeTime tbs.thisUpdate ++
    (tbs.nextUpdate.map encodeTime).getD [] ++
    (tbs.revokedCertificates.map (fun entries =>
      tlv 0x30 (entries.flatMap encodeRevokedCert))).getD [] ++
    (tbs.crlExtensions.map (fun exts => tlv 0xA0 (encodeExtensions (some exts)))).getD [])

def encodeCertificateList (crl : CertificateList) : Bytes :=
  tlv 0x30 (encodeTbsCertList crl.tbsCertList ++ encodeAlgorithm crl.signatureAlgorithm ++
    encodeBitString 0x03 crl.signature)

def undecodable : DerError := ⟨"unexpected content"⟩

def orUndecodable {α : Type} : Option α → Except DerError α
  | none => .error undecodable
  | some value => .ok value

/-- An INTEGER of at most 127 octets, without its sign octet. -/
def decodeUint : Bytes → Except DerError Bytes
  | 0x02 :: _ :: 0x00 :: rest => .ok rest
  | 0x02 :: _ :: rest => .ok rest
  | _ => .error undecodable

structure CrlTables where
  keyUsage : List (Bytes × KeyUsage) := []
  basicConstraints : List (Bytes × BasicConstraints) := []
  crls : List CertificateList := []
  issuingDistributionPoint : List (Bytes × IssuingDistributionPoint) := []
  crlDistributionPoints : List (Bytes × CrlDistributionPoints) := []
  generalNames : List (Bytes × List GeneralName) := []
  crlReason : List (Bytes × CrlReason) := []
  authorityKeyIdentifier : List (Bytes × AuthorityKeyIdentifier) := []
  subjectKeyIdentifier : List (Bytes × Bytes) := []

def crlCodec (tables : CrlTables) : CrlCodec :=
  { tableCodec
      { keyUsage := tables.keyUsage, basicConstraints := tables.basicConstraints } with
    certificateList := fun bytes =>
      orUndecodable (tables.crls.find? (fun crl => encodeCertificateList crl == bytes))
    encodeTbsCertList := fun tbs => .ok (encodeTbsCertList tbs)
    issuingDistributionPoint := fun content =>
      orUndecodable (tables.issuingDistributionPoint.lookup content)
    crlDistributionPoints := fun content =>
      orUndecodable (tables.crlDistributionPoints.lookup content)
    generalNames := fun content => orUndecodable (tables.generalNames.lookup content)
    crlReason := (tables.crlReason.lookup ·)
    uint := decodeUint
    authorityKeyIdentifier := (tables.authorityKeyIdentifier.lookup ·)
    subjectKeyIdentifier := (tables.subjectKeyIdentifier.lookup ·)
    keyUsageFailure := fun _ => undecodable
    overflow := ⟨"integer too large"⟩
    badValue := ⟨"value not allowed"⟩ }

def summer2026 : Nat := 1782864000
def june2026 : Time := .utcTime ⟨2026, 6, 1, 0, 0, 0, 1780272000⟩
def september2026 : Time := .utcTime ⟨2026, 9, 1, 0, 0, 0, 1788220800⟩

/-- A CRL for the summer of 2026 whose signature is a copy of the key that made it. -/
def crlBy (issuer : Name) (key : Bytes) (entries : List RevokedCert)
    (extensions : List Extension) : CertificateList :=
  { tbsCertList :=
      { version := .v2
        signature := ecdsaWithSha256
        issuer
        thisUpdate := june2026
        nextUpdate := some september2026
        revokedCertificates := some entries
        crlExtensions := some extensions }
    signatureAlgorithm := ecdsaWithSha256
    signature := ⟨0, key⟩ }

def entryOf (serial : UInt8) (extensions : List Extension) : RevokedCert :=
  { serialNumber := [serial], revocationDate := june2026, crlEntryExtensions := some extensions }

def numberExtension (oid : ObjectIdentifier) (critical : Bool) (number : UInt8) : Extension :=
  ⟨oid, critical, tlv 0x02 [number]⟩

end Pkix.Revocation.Concrete
