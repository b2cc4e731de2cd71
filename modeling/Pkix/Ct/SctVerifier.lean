import Pkix.Ct.LogList
import Pkix.Ct.SignedInputs
import Pkix.Lib.DerFraming
import Pkix.Path.ChainWalk

/-! The verifier of timestamps and tree heads: the log behind a signature, and the certificate
that an embedded timestamp was promised for. -/

namespace Pkix.Ct

open Pkix.Path Framing DerFraming

/-- The encoding and decoding of certificates and keys, the work of other crates. -/
structure CertificateCodec where
  certificateFromDer : Bytes → Option Certificate
  encodeCertificate : Certificate → Option Bytes
  encodeTbs : TbsCertificate → Option Bytes
  encodeSpki : SubjectPublicKeyInfo → Option Bytes
  spkiFromDer : Bytes → Option SubjectPublicKeyInfo

def oidSctList : ObjectIdentifier := ⟨[1, 3, 6, 1, 4, 1, 11129, 2, 4, 2]⟩
def oidEcdsaWithSha256 : ObjectIdentifier := ⟨[1, 2, 840, 10045, 4, 3, 2]⟩
def oidEcdsaWithSha384 : ObjectIdentifier := ⟨[1, 2, 840, 10045, 4, 3, 3]⟩
def oidSha256WithRsa : ObjectIdentifier := ⟨[1, 2, 840, 113549, 1, 1, 11]⟩
def oidSha384WithRsa : ObjectIdentifier := ⟨[1, 2, 840, 113549, 1, 1, 12]⟩
def oidSha512WithRsa : ObjectIdentifier := ⟨[1, 2, 840, 113549, 1, 1, 13]⟩

def tlsAlgToX509Oid (hashAlg sigAlg : UInt8) : Option ObjectIdentifier :=
  if hashAlg = 4 ∧ sigAlg = 3 then some oidEcdsaWithSha256
  else if hashAlg = 5 ∧ sigAlg = 3 then some oidEcdsaWithSha384
  else if hashAlg = 4 ∧ sigAlg = 1 then some oidSha256WithRsa
  else if hashAlg = 5 ∧ sigAlg = 1 then some oidSha384WithRsa
  else if hashAlg = 6 ∧ sigAlg = 1 then some oidSha512WithRsa
  else none

def okOr {α : Type} (error : Error) : Option α → Result α
  | some value => .ok value
  | none => .error error

@[simp]
theorem okOr_ok {α : Type} {error : Error} {option : Option α} {value : α} :
    okOr error option = .ok value ↔ option = some value := by
  cases option <;> simp [okOr]

section ExtensionValue

def octetStringTag : UInt8 := 0x04

def SctList.toExtensionValue (scts : SctList) : Bytes := writeTlv octetStringTag scts.encode

end ExtensionValue

section Precert

variable (sha256 : Bytes → Digest) (codec : CertificateCodec)

/-- The certificate without its lists of timestamps. No list of extensions is left empty. -/
def withoutSctList (tbs : TbsCertificate) (exts : List Extension) : TbsCertificate :=
  { tbs with
    extensions :=
      if (exts.filter (fun ext => ext.extnId ≠ oidSctList)).isEmpty then none
      else some (exts.filter (fun ext => ext.extnId ≠ oidSctList)) }

def encodeSubmitted (tbs : TbsCertificate) : Result Bytes := do
  let buf ← okOr .parseError (codec.encodeTbs tbs)
  if 0x00FFFFFF < buf.length then .error .certDerTooLong else .ok buf

def tbsWithoutSctList (leafCertDer : Bytes) : Result Bytes := do
  let cert ← okOr .parseError (codec.certificateFromDer leafCertDer)
  let exts ← okOr .leafMissingSctList cert.tbsCertificate.extensions
  if (exts.filter (fun ext => ext.extnId ≠ oidSctList)).length = exts.length then
    .error .leafMissingSctList
  else encodeSubmitted codec (withoutSctList cert.tbsCertificate exts)

def spkiHash (spki : SubjectPublicKeyInfo) : Result Digest := do
  let spkiBuf ← okOr .parseError (codec.encodeSpki spki)
  return sha256 spkiBuf

def issuerKeyHashFromCert (issuerCertDer : Bytes) : Result Digest := do
  let issuer ← okOr .parseError (codec.certificateFromDer issuerCertDer)
  spkiHash sha256 codec issuer.tbsCertificate.subjectPublicKeyInfo

def merkleTreeLeafForCert (sct : SignedCertificateTimestamp) (certDer : Bytes) : Result Bytes :=
  buildMerkleTreeLeafX509Entry sct certDer

def merkleTreeLeafForPrecert (sct : SignedCertificateTimestamp)
    (leafCertDer issuerCertDer : Bytes) : Result Bytes := do
  let tbsNoSct ← tbsWithoutSctList codec leafCertDer
  let issuerKeyHash ← issuerKeyHashFromCert sha256 codec issuerCertDer
  buildMerkleTreeLeafPrecertEntry sct issuerKeyHash tbsNoSct

end Precert

structure SctVerifier (sha256 : Bytes → Digest) where
  logs : CtLogList sha256
  verifier : SignatureVerifier

namespace SctVerifier

variable {sha256 : Bytes → Digest} (codec : CertificateCodec) (self : SctVerifier sha256)

/-- Shared by the three verifiers of a signature. The octets are built after the algorithm is
known and before the key is decoded. -/
def verifyUnderLog (log : CtLog) (hashAlg sigAlg : UInt8) (signedInput : Result Bytes)
    (signature : Bytes) : Result CtLog := do
  let oid ← okOr (.unsupportedSignatureAlgorithm hashAlg sigAlg) (tlsAlgToX509Oid hashAlg sigAlg)
  let message ← signedInput
  let spki ← okOr .logKeyMalformed (codec.spkiFromDer log.keyDer)
  if self.verifier ⟨oid, none⟩ spki message signature then .ok log else .error .invalidSignature

/-- The logs and the verifier of signatures have no part in it. -/
def verifyInclusion (_ : SctVerifier sha256) (leafHash : Digest) (proof : MerkleAuditPath)
    (rootHash : Digest) : Result Unit :=
  verifyInclusionInner sha256 leafHash proof rootHash

def verifySth (logId : Digest) (sth : SignedTreeHead) : Result CtLog := do
  let log ← okOr .unknownLog (self.logs.get logId)
  self.verifyUnderLog codec log sth.hashAlg sth.sigAlg (.ok (buildSignedInputTreeHead sth))
    sth.signature

end SctVerifier

end Pkix.Ct
