import Pkix.Revocation.OcspChecker
import Pkix.Revocation.ConcreteCrl

/-! A codec for OCSP responses that computes, with tables for the decoders and digests. -/

namespace Pkix.Revocation.Concrete

open Pkix.Path
open Pkix.Path.Concrete

def encodeGeneralTime (time : DateTime) : Bytes := encodeTime (.generalTime time)

def encodeResponderId : ResponderId → Bytes
  | .byName name => tlv 0xA1 (encodeName name)
  | .byKey keyHash => tlv 0xA2 (tlv 0x04 keyHash)

def encodeCertId (certId : CertId) : Bytes :=
  tlv 0x30 (encodeAlgorithm certId.hashAlgorithm ++ tlv 0x04 certId.issuerNameHash ++
    tlv 0x04 certId.issuerKeyHash ++ tlv 0x02 certId.serialNumber)

def reasonNumber : CrlReason → UInt8
  | .unspecified => 0
  | .keyCompromise => 1
  | .caCompromise => 2
  | .affiliationChanged => 3
  | .superseded => 4
  | .cessationOfOperation => 5
  | .certificateHold => 6
  | .removeFromCrl => 8
  | .privilegeWithdrawn => 9
  | .aaCompromise => 10

def encodeCertStatus : CertStatus → Bytes
  | .good => [0x80, 0x00]
  | .revoked info =>
      tlv 0xA1 (encodeGeneralTime info.revocationTime ++
        (info.revocationReason.map (fun reason => tlv 0xA0 (tlv 0x0A [reasonNumber reason]))).getD [])
  | .unknown => [0x82, 0x00]

def encodeTagged (tag : UInt8) (extensions : Option (List Extension)) : Bytes :=
  (extensions.map (fun exts => tlv tag (encodeExtensions (some exts)))).getD []

def encodeSingle (single : SingleResponse) : Bytes :=
  tlv 0x30 (encodeCertId single.certId ++ encodeCertStatus single.certStatus ++
    encodeGeneralTime single.thisUpdate ++
    (single.nextUpdate.map (fun time => tlv 0xA0 (encodeGeneralTime time))).getD [] ++
    encodeTagged 0xA1 single.singleExtensions)

/-- The version is the default one and stays out. -/
def encodeResponseData (response : ResponseData) : Bytes :=
  tlv 0x30 (encodeResponderId response.responderId ++ encodeGeneralTime response.producedAt ++
    tlv 0x30 (response.responses.flatMap encodeSingle) ++
    encodeTagged 0xA1 response.responseExtensions)

structure OcspTables where
  extendedKeyUsage : List (Bytes × ExtendedKeyUsage) := []
  ocspResponse : List (Bytes × OcspResponse) := []
  basicOcspResponse : List (Bytes × BasicOcspResponse) := []
  sha1 : List (Bytes × Bytes) := []

def ocspCodec (tables : OcspTables) : OcspCodec :=
  { tableCodec {} with
    extendedKeyUsage := (tables.extendedKeyUsage.lookup ·)
    ocspResponse := fun bytes => orUndecodable (tables.ocspResponse.lookup bytes)
    basicOcspResponse := fun bytes => orUndecodable (tables.basicOcspResponse.lookup bytes)
    encodeResponseData := fun response => .ok (encodeResponseData response)
    encodeName := fun name => .ok (Path.Concrete.encodeName name)
    sha1 := fun data => (tables.sha1.lookup data).getD []
    sha256 := fun _ => []
    sha384 := fun _ => []
    sha512 := fun _ => [] }

/-- SHA-1 of the name with common name A and of the key 1, 2, 3. -/
def nameDigest : Bytes :=
  [252, 232, 73, 194, 149, 35, 231, 236, 188, 68, 52, 2, 252, 24, 113, 194, 143, 233, 3, 81]

def keyDigest : Bytes :=
  [112, 55, 128, 113, 152, 194, 42, 125, 43, 8, 7, 55, 29, 118, 55, 121, 168, 79, 223, 207]

def sha1Table : List (Bytes × Bytes) :=
  [(Path.Concrete.encodeName (commonName [65]), nameDigest), ([1, 2, 3], keyDigest)]

end Pkix.Revocation.Concrete
