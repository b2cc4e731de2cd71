import Pkix.Lib.DerFraming
import Pkix.Path.ConcreteCodec
import Pkix.Path.WalkFacts

/-! The floor under the size of RSA keys. A key that does not decode counts as one that is
not RSA, and passes. -/

namespace Pkix.Path

open DerFraming Framing

section Keys

def sequenceTag : UInt8 := 0x30

/-- The RSAPublicKey of RFC 3279 section 2.3.1. -/
structure RsaPublicKey where
  modulus : Bytes
  publicExponent : Bytes
  modulusNumber : IsMagnitude modulus
  exponentNumber : IsMagnitude publicExponent

def RsaPublicKey.encode (key : RsaPublicKey) : Bytes :=
  writeTlv sequenceTag (writeUint key.modulus ++ writeUint key.publicExponent)

/-- The longest value the DER crates take. -/
def derLengthMax : Nat := 268435455

def rsaModulusFields : Reader UInt8 Unit Bytes := do
  let modulus ← readUint ()
  let _ ← readAny ()
  return modulus

/-- The reading of `rsaPublicKeyBits`: the exponent is skipped whatever it is, and so is what
comes after the SEQUENCE. -/
def readRsaModulus (raw : Bytes) : Option Bytes :=
  match readTlv () sequenceTag raw with
  | .error _ => none
  | .ok (content, _) => (readWhole rsaModulusFields () content).toOption

/-- The decoder finds the modulus of every key that is encoded as it should be. -/
def ReadsRsaKeys (der : DerCodec) : Prop :=
  ∀ key : RsaPublicKey, key.encode.length ≤ derLengthMax →
    der.rsaModulus key.encode = some key.modulus

def HasRsaAlgorithm (cert : Certificate) : Prop :=
  cert.tbsCertificate.subjectPublicKeyInfo.algorithm.oid = oidRsaEncryption

structure CarriesKey (cert : Certificate) (key : RsaPublicKey) : Prop where
  encoded : cert.tbsCertificate.subjectPublicKeyInfo.subjectPublicKey.asBytes = some key.encode
  fits : key.encode.length ≤ derLengthMax

end Keys

section Reading

theorem length_writeTlv (tag : UInt8) (content : Bytes) :
    content.length < (writeTlv tag content).length := by
  rw [writeTlv, List.length_cons, List.length_append]
  omega

theorem length_signed (magnitude : Bytes) : magnitude.length ≤ (signed magnitude).length := by
  cases magnitude with
  | nil => exact Nat.le_refl _
  | cons first rest =>
      rw [signed]
      split <;> simp

theorem RsaPublicKey.content_lt (key : RsaPublicKey) :
    (writeUint key.modulus ++ writeUint key.publicExponent).length < key.encode.length :=
  length_writeTlv _ _

theorem RsaPublicKey.modulus_lt (key : RsaPublicKey) :
    (signed key.modulus).length < key.encode.length := by
  have inner := length_writeTlv integerTag (signed key.modulus)
  have outer := key.content_lt
  rw [List.length_append] at outer
  unfold writeUint at outer
  omega

theorem RsaPublicKey.exponent_lt (key : RsaPublicKey) :
    (signed key.publicExponent).length < key.encode.length := by
  have inner := length_writeTlv integerTag (signed key.publicExponent)
  have outer := key.content_lt
  rw [List.length_append] at outer
  unfold writeUint at outer
  omega

theorem within_lengthLimit {length : Nat} {key : RsaPublicKey} (shorter : length < key.encode.length)
    (fits : key.encode.length ≤ derLengthMax) : length < lengthLimit := by
  unfold derLengthMax at fits
  unfold lengthLimit
  omega

theorem rsaModulusFields_ok {key : RsaPublicKey} (fits : key.encode.length ≤ derLengthMax) :
    rsaModulusFields (writeUint key.modulus ++ writeUint key.publicExponent) =
      .ok (key.modulus, []) := by
  refine read_bind_ok.mpr ⟨key.modulus, writeUint key.publicExponent, ?_, ?_⟩
  · exact (readUint_exact () _ _ _).mpr
      ⟨⟨key.modulusNumber, within_lengthLimit key.modulus_lt fits⟩, rfl⟩
  · refine read_bind_ok.mpr ⟨(integerTag, signed key.publicExponent), [], ?_, ?_⟩
    · exact (readAny_exact () _ _ _).mpr
        ⟨within_lengthLimit key.exponent_lt fits, (List.append_nil _).symm⟩
    · exact read_pure_ok.mpr ⟨rfl, rfl⟩

theorem readRsaModulus_encode {key : RsaPublicKey} (fits : key.encode.length ≤ derLengthMax) :
    readRsaModulus key.encode = some key.modulus := by
  have outer : readTlv () sequenceTag key.encode =
      .ok (writeUint key.modulus ++ writeUint key.publicExponent, []) :=
    (readTlv_exact () sequenceTag _ _ _).mpr
      ⟨within_lengthLimit key.content_lt fits, (List.append_nil _).symm⟩
  unfold readRsaModulus
  rw [outer]
  dsimp only
  rw [readWhole, rsaModulusFields_ok fits]
  rfl

end Reading

section Floor

variable {der : DerCodec} {policy : ValidationPolicy} {verifier : SignatureVerifier}
variable {chain : List Certificate} {cert : Certificate}

/-- A key without octets to read, or with octets that do not decode, passes any floor. -/
theorem checkMinRsaBits_exempt {index : Nat}
    (unreadable : ∀ raw, cert.tbsCertificate.subjectPublicKeyInfo.subjectPublicKey.asBytes =
      some raw → der.rsaModulus raw = none) :
    checkMinRsaBits der policy cert index = .ok () := by
  have noBits : rsaPublicKeyBits der cert.tbsCertificate.subjectPublicKeyInfo = none := by
    unfold rsaPublicKeyBits
    split
    · split
      · rfl
      · rename_i raw octets
        rw [unreadable raw octets]
    · rfl
  unfold checkMinRsaBits
  rw [noBits]
  split <;> rfl

theorem rsaPublicKeyBits_key (reads : ReadsRsaKeys der) (rsa : HasRsaAlgorithm cert)
    {key : RsaPublicKey} (carries : CarriesKey cert key) :
    rsaPublicKeyBits der cert.tbsCertificate.subjectPublicKeyInfo =
      some (key.modulus.length * 8) := by
  have small : key.modulus.length * 8 ≤ u32Max := by
    have inner := length_signed key.modulus
    have outer := key.modulus_lt
    have fits := carries.fits
    unfold derLengthMax at fits
    unfold u32Max
    omega
  have rsaOid : cert.tbsCertificate.subjectPublicKeyInfo.algorithm.oid = oidRsaEncryption := rsa
  unfold rsaPublicKeyBits
  rw [if_pos rsaOid, carries.encoded]
  dsimp only
  rw [reads key carries.fits]
  dsimp only
  rw [if_pos small]

theorem checkMinRsaBits_of_walk {leaf : Certificate} {anchor : TrustAnchor}
    {tree : Option PolicyTree} {index : Nat}
    (walked : chainWalk der policy verifier chain leaf anchor = .ok tree)
    (located : chain[index]? = some cert) :
    checkMinRsaBits der policy cert index = .ok () := by
  obtain ⟨final, finished, _⟩ := chainWalk_ok_iff.mp walked
  obtain ⟨state, next, _, stepped⟩ := reverse_walk_visits (fun _ _ _ => True)
    (fun _ _ _ _ _ _ _ => trivial) trivial finished located
  obtain ⟨_, _, _, checked, _⟩ := certStep_ok_iff.mp stepped
  rw [take_reverse_length located] at checked
  obtain ⟨_, _, _, _, _, rsaBits, _⟩ := certChecks_ok_iff.mp checked
  exact rsaBits

/-- The documented rounding: whole octets, rounded up. -/
theorem floor_of_check {minBits index : Nat} (floor : policy.minRsaKeyBits = some minBits)
    (reads : ReadsRsaKeys der) (rsa : HasRsaAlgorithm cert) {key : RsaPublicKey}
    (carries : CarriesKey cert key) (checked : checkMinRsaBits der policy cert index = .ok ()) :
    (minBits + 7) / 8 ≤ key.modulus.length := by
  unfold checkMinRsaBits at checked
  rw [floor, rsaPublicKeyBits_key reads rsa carries] at checked
  have enough : minBits ≤ key.modulus.length * 8 :=
    of_decide_eq_true (requireThat_ok_iff.mp checked)
  omega

end Floor

/-- In an accepted chain the floor holds of the RSA keys exactly when all of them decode: one
that does not is not held to it. -/
theorem validatePath_rsaFloor_iff {der : DerCodec} {policy : ValidationPolicy}
    {verifier : SignatureVerifier} {chain : List Certificate} {anchors : List TrustAnchor}
    {path : ValidatedPath} {minBits : Nat} (reads : ReadsRsaKeys der)
    (floor : policy.minRsaKeyBits = some minBits)
    (accepted : validatePath der policy verifier chain anchors = .ok path) :
    (∀ cert ∈ chain, HasRsaAlgorithm cert →
        ∃ key, CarriesKey cert key ∧ (minBits + 7) / 8 ≤ key.modulus.length) ↔
      ∀ cert ∈ chain, HasRsaAlgorithm cert → ∃ key, CarriesKey cert key := by
  obtain ⟨_, _, _, _, _, _, _, _, walked, _⟩ := validatePath_ok accepted
  constructor
  · intro held cert listed rsa
    obtain ⟨key, carries, _⟩ := held cert listed rsa
    exact ⟨key, carries⟩
  · intro decodable cert listed rsa
    obtain ⟨key, carries⟩ := decodable cert listed rsa
    obtain ⟨index, located⟩ := List.getElem?_of_mem listed
    have checked := checkMinRsaBits_of_walk walked located
    exact ⟨key, carries, floor_of_check floor reads rsa carries checked⟩

namespace RsaLeaf

open Concrete

def codec : DerCodec :=
  { tableCodec { basicConstraints := caTable } with rsaModulus := readRsaModulus }

def policy (minBits : Nat) : ValidationPolicy :=
  { ValidationPolicy.new 1800000000 with minRsaKeyBits := some minBits }

def anchors : List TrustAnchor := [anchorNamed (commonName [65]) [1, 2, 3] none]

/-- A leaf whose RSA key is given by its octets. -/
def leafWithKey (raw : Bytes) : Certificate :=
  { issue 2 (commonName [65]) (commonName [67]) [1, 2, 3] [] [] with
    tbsCertificate :=
      { (issue 2 (commonName [65]) (commonName [67]) [1, 2, 3] [] []).tbsCertificate with
        subjectPublicKeyInfo := ⟨⟨oidRsaEncryption, some ⟨.other 0x05, []⟩⟩, ⟨0, raw⟩⟩ } }

/-- A NULL where the RSAPublicKey should be. -/
def nullKey : Bytes := [0x05, 0x00]

def key : RsaPublicKey :=
  { modulus := [0xC3, 0x01]
    publicExponent := [0x01, 0x00, 0x01]
    modulusNumber := .inr ⟨0xC3, [0x01], rfl, by decide⟩
    exponentNumber := .inr ⟨0x01, [0x00, 0x01], rfl, by decide⟩ }

theorem codec_reads : ReadsRsaKeys codec := by
  have decoder : codec.rsaModulus = readRsaModulus := rfl
  intro key fits
  rw [decoder, readRsaModulus_encode fits]

theorem nullKey_notCarried : ¬∃ key, CarriesKey (leafWithKey nullKey) key := by
  intro carried
  obtain ⟨key, carries⟩ := carried
  have same : nullKey = key.encode := Option.some.inj carries.encoded
  rw [RsaPublicKey.encode, writeTlv] at same
  exact absurd (List.cons.inj same).1 (by decide)

end RsaLeaf

theorem rsaFloor_passes_undecodable :
    ∃ path, validatePath RsaLeaf.codec (RsaLeaf.policy 2048) Concrete.keyCopyVerifier
        [RsaLeaf.leafWithKey RsaLeaf.nullKey] RsaLeaf.anchors = .ok path ∧
      ReadsRsaKeys RsaLeaf.codec ∧
      ¬∀ cert ∈ [RsaLeaf.leafWithKey RsaLeaf.nullKey], HasRsaAlgorithm cert →
        ∃ key, CarriesKey cert key ∧ (2048 + 7) / 8 ≤ key.modulus.length := by
  obtain ⟨path, accepted⟩ : ∃ path, validatePath RsaLeaf.codec (RsaLeaf.policy 2048)
      Concrete.keyCopyVerifier [RsaLeaf.leafWithKey RsaLeaf.nullKey] RsaLeaf.anchors = .ok path :=
    Concrete.ok_of_isSome (by decide +kernel)
  refine ⟨path, accepted, RsaLeaf.codec_reads, ?_⟩
  intro held
  obtain ⟨key, carries, _⟩ := held _ List.mem_cons_self rfl
  exact RsaLeaf.nullKey_notCarried ⟨key, carries⟩

theorem validatePath_rsaFloor_example :
    ∃ path, validatePath RsaLeaf.codec (RsaLeaf.policy 16) Concrete.keyCopyVerifier
        [RsaLeaf.leafWithKey RsaLeaf.key.encode] RsaLeaf.anchors = .ok path ∧
      ((∀ cert ∈ [RsaLeaf.leafWithKey RsaLeaf.key.encode], HasRsaAlgorithm cert →
          ∃ key, CarriesKey cert key ∧ (16 + 7) / 8 ≤ key.modulus.length) ↔
        ∀ cert ∈ [RsaLeaf.leafWithKey RsaLeaf.key.encode], HasRsaAlgorithm cert →
          ∃ key, CarriesKey cert key) := by
  obtain ⟨path, accepted⟩ : ∃ path, validatePath RsaLeaf.codec (RsaLeaf.policy 16)
      Concrete.keyCopyVerifier [RsaLeaf.leafWithKey RsaLeaf.key.encode] RsaLeaf.anchors =
        .ok path :=
    Concrete.ok_of_isSome (by decide +kernel)
  exact ⟨path, accepted, validatePath_rsaFloor_iff RsaLeaf.codec_reads rfl accepted⟩

end Pkix.Path
