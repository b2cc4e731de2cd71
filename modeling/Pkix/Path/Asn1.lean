import Mathlib.Tactic.Common

/-! The X.509 values the path validator reads. Decoding and encoding DER is the
work of other crates: `DerCodec` stands for what the validator calls of them. -/

namespace Pkix.Path

abbrev Bytes := List UInt8

structure ObjectIdentifier where
  arcs : List Nat
  deriving DecidableEq, Repr

inductive Tag
  | utf8String
  | printableString
  | ia5String
  | visibleString
  | bmpString
  | other (octet : UInt8)
  deriving DecidableEq, Repr

structure Any where
  tag : Tag
  value : Bytes
  deriving DecidableEq, Repr

/-- Text the decoder has already restricted to seven-bit characters, so that a
byte offset is always a character boundary. -/
structure Ia5String where
  bytes : Bytes
  ascii : ∀ octet ∈ bytes, octet < 128
  deriving DecidableEq, Repr

structure BitString where
  unusedBits : Nat
  rawBytes : Bytes
  deriving DecidableEq, Repr

def BitString.asBytes (bits : BitString) : Option Bytes :=
  if bits.unusedBits = 0 then some bits.rawBytes else none

structure AttributeTypeAndValue where
  oid : ObjectIdentifier
  value : Any
  deriving DecidableEq, Repr

abbrev RelativeDistinguishedName := List AttributeTypeAndValue
abbrev Name := List RelativeDistinguishedName

structure AlgorithmIdentifier where
  oid : ObjectIdentifier
  parameters : Option Any
  deriving DecidableEq, Repr

structure SubjectPublicKeyInfo where
  algorithm : AlgorithmIdentifier
  subjectPublicKey : BitString
  deriving DecidableEq, Repr

structure DateTime where
  year : Nat
  month : Nat
  day : Nat
  hour : Nat
  minutes : Nat
  seconds : Nat
  unixDuration : Nat
  deriving DecidableEq, Repr

inductive Time
  | utcTime (time : DateTime)
  | generalTime (time : DateTime)
  deriving DecidableEq, Repr

structure Validity where
  notBefore : Time
  notAfter : Time
  deriving DecidableEq, Repr

structure Extension where
  extnId : ObjectIdentifier
  critical : Bool
  extnValue : Bytes
  deriving DecidableEq, Repr

inductive Version
  | v1
  | v2
  | v3
  deriving DecidableEq, Repr

structure TbsCertificate where
  version : Version
  serialNumber : Bytes
  signature : AlgorithmIdentifier
  issuer : Name
  validity : Validity
  subject : Name
  subjectPublicKeyInfo : SubjectPublicKeyInfo
  issuerUniqueId : Option BitString
  subjectUniqueId : Option BitString
  extensions : Option (List Extension)
  deriving DecidableEq, Repr

structure Certificate where
  tbsCertificate : TbsCertificate
  signatureAlgorithm : AlgorithmIdentifier
  signature : BitString
  deriving DecidableEq, Repr

/-- `x400Address` is listed for completeness; the validator names only five of
these forms and sends every other one to a default arm. -/
inductive GeneralName
  | otherName (typeId : ObjectIdentifier) (value : Any)
  | rfc822Name (name : Ia5String)
  | dnsName (name : Ia5String)
  | x400Address (value : Any)
  | directoryName (name : Name)
  | ediPartyName (value : Any)
  | uniformResourceIdentifier (uri : Ia5String)
  | ipAddress (octets : Bytes)
  | registeredId (oid : ObjectIdentifier)
  deriving DecidableEq, Repr

structure AccessDescription where
  accessMethod : ObjectIdentifier
  accessLocation : GeneralName
  deriving DecidableEq, Repr

structure GeneralSubtree where
  base : GeneralName
  minimum : Nat
  maximum : Option Nat
  deriving DecidableEq, Repr

abbrev GeneralSubtrees := List GeneralSubtree

structure NameConstraints where
  permittedSubtrees : Option GeneralSubtrees
  excludedSubtrees : Option GeneralSubtrees
  deriving DecidableEq, Repr

abbrev SubjectAltName := List GeneralName

structure PolicyQualifierInfo where
  policyQualifierId : ObjectIdentifier
  qualifier : Option Any
  deriving DecidableEq, Repr

structure PolicyInformation where
  policyIdentifier : ObjectIdentifier
  policyQualifiers : Option (List PolicyQualifierInfo)
  deriving DecidableEq, Repr

abbrev CertificatePolicies := List PolicyInformation

structure PolicyMapping where
  issuerDomainPolicy : ObjectIdentifier
  subjectDomainPolicy : ObjectIdentifier
  deriving DecidableEq, Repr

abbrev PolicyMappings := List PolicyMapping

structure PolicyConstraints where
  requireExplicitPolicy : Option Nat
  inhibitPolicyMapping : Option Nat
  deriving DecidableEq, Repr

abbrev InhibitAnyPolicy := Nat

structure BasicConstraints where
  ca : Bool
  pathLenConstraint : Option Nat
  deriving DecidableEq, Repr

structure KeyUsage where
  keyCertSign : Bool
  crlSign : Bool
  deriving DecidableEq, Repr

abbrev ExtendedKeyUsage := List ObjectIdentifier

structure DerError where
  message : String
  deriving DecidableEq, Repr

/-- What the validator calls of the DER crates: one decoder for each extension
content, `none` for a decoding error; the encoder of the signed bytes; the
reader of an RSA public key, giving the magnitude bytes of its modulus; and the
decoder of an attribute value as an IA5String. -/
structure DerCodec where
  keyUsage : Bytes → Option KeyUsage
  basicConstraints : Bytes → Option BasicConstraints
  subjectAltName : Bytes → Option SubjectAltName
  extendedKeyUsage : Bytes → Option ExtendedKeyUsage
  nameConstraints : Bytes → Option NameConstraints
  certificatePolicies : Bytes → Option CertificatePolicies
  policyMappings : Bytes → Option PolicyMappings
  policyConstraints : Bytes → Option PolicyConstraints
  inhibitAnyPolicy : Bytes → Option InhibitAnyPolicy
  encodeTbs : TbsCertificate → Except DerError Bytes
  rsaModulus : Bytes → Option Bytes
  ia5String : Any → Option Ia5String

inductive Error
  | signatureInvalid (index : Nat)
  | malformedCertificate (index : Nat)
  | validityPeriod (index : Nat)
  | chainBroken (index : Nat)
  | noTrustedPath
  | pathTooLong
  | notCA (index : Nat)
  | keyUsageMissing (index : Nat)
  | crlSignMissing (index : Nat)
  | unhandledCriticalExtension (index : Nat)
  | nameConstraintViolation (index : Nat)
  | policyViolation (index : Nat)
  | der (error : DerError)
  | validityPeriodExceedsMax (index : Nat)
  | algorithmNotAllowed (index : Nat)
  | keyTooSmall (index : Nat)
  | missingSan
  | missingRfc822San
  | missingEku
  | missingLeafPolicyOid (required : ObjectIdentifier)
  | subjectDnAttrRuleUnmet
  | duplicateCertificate (first second : Nat)
  deriving DecidableEq, Repr

abbrev Result (α : Type) := Except Error α

def u32Max : Nat := 4294967295

def oidKeyUsage : ObjectIdentifier := ⟨[2, 5, 29, 15]⟩
def oidBasicConstraints : ObjectIdentifier := ⟨[2, 5, 29, 19]⟩
def oidSubjectAltName : ObjectIdentifier := ⟨[2, 5, 29, 17]⟩
def oidExtendedKeyUsage : ObjectIdentifier := ⟨[2, 5, 29, 37]⟩
def oidNameConstraints : ObjectIdentifier := ⟨[2, 5, 29, 30]⟩
def oidCertificatePolicies : ObjectIdentifier := ⟨[2, 5, 29, 32]⟩
def oidPolicyMappings : ObjectIdentifier := ⟨[2, 5, 29, 33]⟩
def oidPolicyConstraints : ObjectIdentifier := ⟨[2, 5, 29, 36]⟩
def oidInhibitAnyPolicy : ObjectIdentifier := ⟨[2, 5, 29, 54]⟩
def oidAnyPolicy : ObjectIdentifier := ⟨[2, 5, 29, 32, 0]⟩
def oidEmailAddress : ObjectIdentifier := ⟨[1, 2, 840, 113549, 1, 9, 1]⟩
def oidRsaEncryption : ObjectIdentifier := ⟨[1, 2, 840, 113549, 1, 1, 1]⟩

def handledCriticalOids : List ObjectIdentifier :=
  [oidKeyUsage, oidBasicConstraints, oidSubjectAltName, oidExtendedKeyUsage,
   oidNameConstraints, oidCertificatePolicies, oidPolicyMappings,
   oidPolicyConstraints, oidInhibitAnyPolicy]

def Certificate.extensions (cert : Certificate) : List Extension :=
  cert.tbsCertificate.extensions.getD []

def findExtension (cert : Certificate) (oid : ObjectIdentifier) : Option Extension :=
  cert.extensions.find? (fun extension => extension.extnId == oid)

/-- Fail-closed lookup: the first extension with the OID decides, and content
that does not decode is an error at the certificate's chain index. -/
def tryFindCertExt {α : Type} (decode : Bytes → Option α) (cert : Certificate)
    (oid : ObjectIdentifier) (index : Nat) : Result (Option α) :=
  match findExtension cert oid with
  | none => .ok none
  | some extension =>
      match decode extension.extnValue with
      | none => .error (.malformedCertificate index)
      | some content => .ok (some content)

/-- Fail-open lookup: content that does not decode counts as absent. -/
def findCertExt {α : Type} (decode : Bytes → Option α) (cert : Certificate)
    (oid : ObjectIdentifier) : Option α :=
  match findExtension cert oid with
  | none => none
  | some extension => decode extension.extnValue

theorem tryFindCertExt_some_iff {α : Type} {decode : Bytes → Option α} {cert : Certificate}
    {oid : ObjectIdentifier} {index : Nat} {content : α} :
    tryFindCertExt decode cert oid index = .ok (some content) ↔
      ∃ extension, findExtension cert oid = some extension ∧
        decode extension.extnValue = some content := by
  unfold tryFindCertExt
  cases findExtension cert oid with
  | none => simp
  | some extension =>
      cases decoded : decode extension.extnValue with
      | none => simp [decoded]
      | some value => simp [decoded]

theorem tryFindCertExt_absent {α : Type} {decode : Bytes → Option α} {cert : Certificate}
    {oid : ObjectIdentifier} (index : Nat) (absent : findExtension cert oid = none) :
    tryFindCertExt decode cert oid index = .ok none := by
  unfold tryFindCertExt
  rw [absent]

/-- A lookup that succeeds has decoded the first extension with the OID. -/
theorem tryFindCertExt_first {α : Type} {decode : Bytes → Option α} {cert : Certificate}
    {oid : ObjectIdentifier} {index : Nat} {content : Option α} {extension : Extension}
    (first : findExtension cert oid = some extension)
    (found : tryFindCertExt decode cert oid index = .ok content) :
    ∃ value, decode extension.extnValue = some value ∧ content = some value := by
  unfold tryFindCertExt at found
  rw [first] at found
  cases decoded : decode extension.extnValue with
  | none => simp [decoded] at found
  | some value =>
      simp only [decoded, Except.ok.injEq] at found
      exact ⟨value, rfl, found.symm⟩

theorem tryFindCertExt_ok {α : Type} {decode : Bytes → Option α} {cert : Certificate}
    {oid : ObjectIdentifier} {index : Nat} {content : Option α}
    (found : tryFindCertExt decode cert oid index = .ok content) :
    findCertExt decode cert oid = content := by
  unfold findCertExt
  cases located : findExtension cert oid with
  | none =>
      rw [tryFindCertExt_absent index located] at found
      exact Except.ok.inj found
  | some extension =>
      obtain ⟨value, decoded, rfl⟩ := tryFindCertExt_first located found
      exact decoded

end Pkix.Path
