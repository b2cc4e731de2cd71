import Pkix.Path.ChainWalk

/-! A codec that computes: the DER form of the signed part of a certificate, and
decoders given by tables of extension contents. -/

namespace Pkix.Path.Concrete

def encodeLength (length : Nat) : Bytes :=
  if length < 128 then [UInt8.ofNat length]
  else if length < 256 then [0x81, UInt8.ofNat length]
  else [0x82, UInt8.ofNat (length / 256), UInt8.ofNat (length % 256)]

def tlv (tag : UInt8) (content : Bytes) : Bytes :=
  tag :: encodeLength content.length ++ content

def base128High : (fuel arc : Nat) → Bytes
  | 0, _ => []
  | fuel + 1, arc =>
      if arc = 0 then []
      else base128High fuel (arc / 128) ++ [UInt8.ofNat (128 + arc % 128)]

def base128 (arc : Nat) : Bytes :=
  base128High 5 (arc / 128) ++ [UInt8.ofNat (arc % 128)]

def encodeOid (oid : ObjectIdentifier) : Bytes :=
  match oid.arcs with
  | first :: second :: rest => tlv 0x06 (base128 (40 * first + second) ++ rest.flatMap base128)
  | _ => tlv 0x06 []

def tagOctet : Tag → UInt8
  | .utf8String => 0x0C
  | .printableString => 0x13
  | .ia5String => 0x16
  | .visibleString => 0x1A
  | .bmpString => 0x1E
  | .other octet => octet

def encodeAny (any : Any) : Bytes := tlv (tagOctet any.tag) any.value

def encodeBitString (tag : UInt8) (bits : BitString) : Bytes :=
  tlv tag (UInt8.ofNat bits.unusedBits :: bits.rawBytes)

def encodeName (name : Name) : Bytes :=
  tlv 0x30 (name.flatMap (fun rdn =>
    tlv 0x31 (rdn.flatMap (fun ava => tlv 0x30 (encodeOid ava.oid ++ encodeAny ava.value)))))

def encodeAlgorithm (algorithm : AlgorithmIdentifier) : Bytes :=
  tlv 0x30 (encodeOid algorithm.oid ++ (algorithm.parameters.map encodeAny).getD [])

def twoDigits (value : Nat) : Bytes :=
  [UInt8.ofNat (48 + value / 10 % 10), UInt8.ofNat (48 + value % 10)]

def encodeTime : Time → Bytes
  | .utcTime time => tlv 0x17 (twoDigits (time.year % 100) ++ rest time)
  | .generalTime time =>
      tlv 0x18 (twoDigits (time.year / 100) ++ twoDigits (time.year % 100) ++ rest time)
where
  rest (time : DateTime) : Bytes :=
    twoDigits time.month ++ twoDigits time.day ++ twoDigits time.hour ++
      twoDigits time.minutes ++ twoDigits time.seconds ++ [90]

def encodeSpki (spki : SubjectPublicKeyInfo) : Bytes :=
  tlv 0x30 (encodeAlgorithm spki.algorithm ++ encodeBitString 0x03 spki.subjectPublicKey)

def encodeVersion : Version → Bytes
  | .v1 => []
  | .v2 => tlv 0xA0 (tlv 0x02 [1])
  | .v3 => tlv 0xA0 (tlv 0x02 [2])

def encodeExtension (extension : Extension) : Bytes :=
  tlv 0x30 (encodeOid extension.extnId ++ (if extension.critical then tlv 0x01 [0xFF] else []) ++
    tlv 0x04 extension.extnValue)

def encodeTbs (tbs : TbsCertificate) : Bytes :=
  tlv 0x30 (encodeVersion tbs.version ++ tlv 0x02 tbs.serialNumber ++
    encodeAlgorithm tbs.signature ++ encodeName tbs.issuer ++
    tlv 0x30 (encodeTime tbs.validity.notBefore ++ encodeTime tbs.validity.notAfter) ++
    encodeName tbs.subject ++ encodeSpki tbs.subjectPublicKeyInfo ++
    (tbs.issuerUniqueId.map (encodeBitString 0x81)).getD [] ++
    (tbs.subjectUniqueId.map (encodeBitString 0x82)).getD [] ++
    (tbs.extensions.map (fun exts => tlv 0xA3 (tlv 0x30 (exts.flatMap encodeExtension)))).getD [])

def decodeIa5 (any : Any) : Option Ia5String :=
  if any.tag = .ia5String then
    if ascii : any.value.all (fun octet => decide (octet < 128)) = true then
      some ⟨any.value, fun octet member =>
        of_decide_eq_true (List.all_eq_true.mp ascii octet member)⟩
    else none
  else none

structure ContentTables where
  keyUsage : List (Bytes × KeyUsage) := []
  basicConstraints : List (Bytes × BasicConstraints) := []
  subjectAltName : List (Bytes × SubjectAltName) := []
  nameConstraints : List (Bytes × NameConstraints) := []
  certificatePolicies : List (Bytes × CertificatePolicies) := []
  policyMappings : List (Bytes × PolicyMappings) := []

def tableCodec (tables : ContentTables) : DerCodec :=
  { keyUsage := (tables.keyUsage.lookup ·)
    basicConstraints := (tables.basicConstraints.lookup ·)
    subjectAltName := (tables.subjectAltName.lookup ·)
    extendedKeyUsage := fun _ => none
    nameConstraints := (tables.nameConstraints.lookup ·)
    certificatePolicies := (tables.certificatePolicies.lookup ·)
    policyMappings := (tables.policyMappings.lookup ·)
    policyConstraints := fun _ => none
    inhibitAnyPolicy := fun _ => none
    encodeTbs := fun tbs => .ok (encodeTbs tbs)
    rsaModulus := fun _ => none
    ia5String := decodeIa5 }

def ecdsaWithSha256 : AlgorithmIdentifier := ⟨⟨[1, 2, 840, 10045, 4, 3, 2]⟩, none⟩

def ecPublicKey (key : Bytes) : SubjectPublicKeyInfo :=
  { algorithm := ⟨⟨[1, 2, 840, 10045, 2, 1]⟩, some ⟨.other 0x06, [0x2A, 0x86, 0x48, 0xCE, 0x3D,
      0x03, 0x01, 0x07]⟩⟩
    subjectPublicKey := ⟨0, key⟩ }

def commonName (text : Bytes) : Name := [[⟨⟨[2, 5, 4, 3]⟩, ⟨.utf8String, text⟩⟩]]

def newYear2025 : DateTime := ⟨2025, 1, 1, 0, 0, 0, 1735689600⟩
def newYear2035 : DateTime := ⟨2035, 1, 1, 0, 0, 0, 2051222400⟩

/-- A certificate valid from 2025 to 2035 whose signature is a copy of the key
that made it, for the verifier below. -/
def issue (serial : UInt8) (issuer subject : Name) (issuerKey key : Bytes)
    (extensions : List Extension) : Certificate :=
  { tbsCertificate :=
      { version := .v3
        serialNumber := [serial]
        signature := ecdsaWithSha256
        issuer
        validity := ⟨.utcTime newYear2025, .utcTime newYear2035⟩
        subject
        subjectPublicKeyInfo := ecPublicKey key
        issuerUniqueId := none
        subjectUniqueId := none
        extensions := some extensions }
    signatureAlgorithm := ecdsaWithSha256
    signature := ⟨0, issuerKey⟩ }

def keyCopyVerifier : SignatureVerifier :=
  fun _ issuerSpki _ signature => signature == issuerSpki.subjectPublicKey.rawBytes

def anchorNamed (subject : Name) (key : Bytes) (nameConstraints : Option NameConstraints) :
    TrustAnchor :=
  { subject, subjectPublicKeyInfo := ecPublicKey key, nameConstraints }

/-- BasicConstraints with cA set and no path length. -/
def caContent : Bytes := [0x30, 0x03, 0x01, 0x01, 0xFF]

def caExtension : Extension := ⟨oidBasicConstraints, true, caContent⟩

def caTable : List (Bytes × BasicConstraints) := [(caContent, ⟨true, none⟩)]

def dnsName (text : Bytes) (ascii : ∀ octet ∈ text, octet < 128) : GeneralName :=
  .dnsName ⟨text, ascii⟩

def subtree (base : GeneralName) : GeneralSubtree := ⟨base, 0, none⟩

def dnsSanContent (text : Bytes) : Bytes := tlv 0x30 (tlv 0x82 text)

def permittedDnsContent (text : Bytes) : Bytes := tlv 0x30 (tlv 0xA0 (tlv 0x30 (tlv 0x82 text)))

def excludedDnsContent (text : Bytes) : Bytes := tlv 0x30 (tlv 0xA1 (tlv 0x30 (tlv 0x82 text)))

def sanExtension (content : Bytes) : Extension := ⟨oidSubjectAltName, false, content⟩

def ncExtension (content : Bytes) : Extension := ⟨oidNameConstraints, true, content⟩

def policiesContent (oids : List ObjectIdentifier) : Bytes :=
  tlv 0x30 (oids.flatMap (fun oid => tlv 0x30 (encodeOid oid)))

def policiesExtension (oids : List ObjectIdentifier) : Extension :=
  ⟨oidCertificatePolicies, false, policiesContent oids⟩

def policiesTable (lists : List (List ObjectIdentifier)) : List (Bytes × CertificatePolicies) :=
  lists.map (fun oids => (policiesContent oids, oids.map (fun oid => ⟨oid, none⟩)))

def mappingsContent (pairs : List (ObjectIdentifier × ObjectIdentifier)) : Bytes :=
  tlv 0x30 (pairs.flatMap (fun pair => tlv 0x30 (encodeOid pair.1 ++ encodeOid pair.2)))

def mappingsExtension (pairs : List (ObjectIdentifier × ObjectIdentifier)) : Extension :=
  ⟨oidPolicyMappings, true, mappingsContent pairs⟩

def mappingsTable (lists : List (List (ObjectIdentifier × ObjectIdentifier))) :
    List (Bytes × PolicyMappings) :=
  lists.map (fun pairs => (mappingsContent pairs, pairs.map (fun pair => ⟨pair.1, pair.2⟩)))

def testPolicy (number : Nat) : ObjectIdentifier := ⟨[2, 16, 840, 1, 101, 3, 2, 1, 48, number]⟩

/-- A leaf and a CA under it, each with the policies given. -/
def policyChain (leafPolicies caPolicies : List ObjectIdentifier) : List Certificate :=
  [issue 2 (commonName [66]) (commonName [67]) [4, 5] [6] [policiesExtension leafPolicies],
   issue 1 (commonName [65]) (commonName [66]) [1, 2, 3] [4, 5]
    [caExtension, policiesExtension caPolicies]]

def policyAnchors : List TrustAnchor := [anchorNamed (commonName [65]) [1, 2, 3] none]

def policyCodec (lists : List (List ObjectIdentifier)) : DerCodec :=
  tableCodec { basicConstraints := caTable, certificatePolicies := policiesTable lists }

def explicitPolicy (userSet : List ObjectIdentifier) : ValidationPolicy :=
  { ValidationPolicy.new 1800000000 with
    initialExplicitPolicy := true
    initialPolicySet := userSet }

theorem ok_of_isSome {α : Type} {outcome : Result α}
    (succeeded : outcome.toOption.isSome = true) : ∃ value, outcome = .ok value := by
  cases outcome with
  | error failure => cases succeeded
  | ok value => exact ⟨value, rfl⟩

end Pkix.Path.Concrete
