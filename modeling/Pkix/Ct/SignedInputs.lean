import Pkix.Ct.SctList

/-! The octets that a log signs over an entry or a tree head, and the leaves of its tree. -/

namespace Pkix.Ct

open Pkix.Path Framing Octets

structure SignedTreeHead where
  treeSize : UInt64
  timestampMs : UInt64
  rootHash : Digest
  hashAlg : UInt8
  sigAlg : UInt8
  signature : Bytes
  deriving DecidableEq

def sctVersionV1 : UInt8 := 0
def sigTypeCertificateTimestamp : UInt8 := 0
def sigTypeTreeHash : UInt8 := 1
def merkleLeafTypeTimestampedEntry : UInt8 := 0
def entryTypeX509 : Nat := 0
def entryTypePrecert : Nat := 1

section Builders

/-- Shared by the four builders of entries. The assertion on the length of the extensions is
compiled out of a release build. -/
def buildTimestampedEntry (secondByte : UInt8) (entryType : Nat) (issuerKeyHash body : Bytes)
    (sct : SignedCertificateTimestamp) : Result Bytes :=
  if 0x00FFFFFF < body.length then .error .certDerTooLong
  else .ok ([sctVersionV1, secondByte] ++ (toBigEndian 8 sct.timestampMs.toNat ++
    (toBigEndian 2 entryType ++ (issuerKeyHash ++
      (UInt8.ofNat (body.length / 65536 % 256) :: toBigEndian 2 body.length ++
        (body ++ (toBigEndian 2 sct.extensions.length ++ sct.extensions)))))))

def buildSignedInputX509Entry (sct : SignedCertificateTimestamp) (certDer : Bytes) :
    Result Bytes :=
  buildTimestampedEntry sigTypeCertificateTimestamp entryTypeX509 [] certDer sct

def buildSignedInputPrecertEntry (sct : SignedCertificateTimestamp) (issuerKeyHash : Digest)
    (tbsNoSct : Bytes) : Result Bytes :=
  buildTimestampedEntry sigTypeCertificateTimestamp entryTypePrecert issuerKeyHash.val tbsNoSct sct

def buildMerkleTreeLeafX509Entry (sct : SignedCertificateTimestamp) (certDer : Bytes) :
    Result Bytes :=
  buildTimestampedEntry merkleLeafTypeTimestampedEntry entryTypeX509 [] certDer sct

def buildMerkleTreeLeafPrecertEntry (sct : SignedCertificateTimestamp) (issuerKeyHash : Digest)
    (tbsNoSct : Bytes) : Result Bytes :=
  buildTimestampedEntry merkleLeafTypeTimestampedEntry entryTypePrecert issuerKeyHash.val tbsNoSct
    sct

def buildSignedInputTreeHead (sth : SignedTreeHead) : Bytes :=
  [sctVersionV1, sigTypeTreeHash] ++ (toBigEndian 8 sth.timestampMs.toNat ++
    (toBigEndian 8 sth.treeSize.toNat ++ sth.rootHash.val))

end Builders

section Specification

inductive CtInput
  | x509Entry (sct : SignedCertificateTimestamp) (certDer : Bytes)
  | precertEntry (sct : SignedCertificateTimestamp) (issuerKeyHash : Digest) (tbsNoSct : Bytes)
  | treeHead (sth : SignedTreeHead)

/-- What a log vouches for with an input of each kind. -/
inductive CtFields
  | x509Entry (timestampMs : UInt64) (certDer extensions : Bytes)
  | precertEntry (timestampMs : UInt64) (issuerKeyHash : Digest) (tbsNoSct extensions : Bytes)
  | treeHead (timestampMs treeSize : UInt64) (rootHash : Digest)
  deriving DecidableEq

namespace CtInput

def fields : CtInput → CtFields
  | .x509Entry sct certDer => .x509Entry sct.timestampMs certDer sct.extensions
  | .precertEntry sct issuerKeyHash tbsNoSct =>
      .precertEntry sct.timestampMs issuerKeyHash tbsNoSct sct.extensions
  | .treeHead sth => .treeHead sth.timestampMs sth.treeSize sth.rootHash

def bodyLength : CtInput → Nat
  | .x509Entry _ body | .precertEntry _ _ body => body.length
  | .treeHead _ => 0

def extensionsLength : CtInput → Nat
  | .x509Entry sct _ | .precertEntry sct _ _ => sct.extensions.length
  | .treeHead _ => 0

def Fits (input : CtInput) : Prop :=
  input.bodyLength ≤ 16777215 ∧ input.extensionsLength ≤ 65535

def signedInput : CtInput → Result Bytes
  | .x509Entry sct certDer => buildSignedInputX509Entry sct certDer
  | .precertEntry sct issuerKeyHash tbsNoSct =>
      buildSignedInputPrecertEntry sct issuerKeyHash tbsNoSct
  | .treeHead sth => .ok (buildSignedInputTreeHead sth)

/-- A tree head is no leaf. -/
def merkleTreeLeaf : CtInput → Option (Result Bytes)
  | .x509Entry sct certDer => some (buildMerkleTreeLeafX509Entry sct certDer)
  | .precertEntry sct issuerKeyHash tbsNoSct =>
      some (buildMerkleTreeLeafPrecertEntry sct issuerKeyHash tbsNoSct)
  | .treeHead _ => none

/-- The octets are built for the input, to be signed or as a leaf. -/
def Builds (input : CtInput) (octets : Bytes) : Prop :=
  input.signedInput = .ok octets ∨ input.merkleTreeLeaf = some (.ok octets)

/-- No other fields have octets of the input, and what does not fit has none. -/
structure Unambiguous (input : CtInput) : Prop where
  apart : ∀ (other : CtInput) (octets : Bytes), input.Builds octets → other.Builds octets → input.fields = other.fields
  rejected : ¬ input.Fits → ∀ octets, ¬ input.Builds octets

end CtInput

end Specification

section Encoding

variable {secondByte : UInt8} {entryType : Nat} {issuerKeyHash body octets : Bytes}
variable {sct : SignedCertificateTimestamp}

theorem u24_octets (length : Nat) :
    UInt8.ofNat (length / 65536 % 256) :: toBigEndian 2 length = toBigEndian 3 length := by
  have low : UInt8.ofNat (length / 65536 % 256) = UInt8.ofNat (length / 65536) := by
    apply UInt8.toNat_inj.mp
    simp
  rw [low]
  rfl

/-- The length of the body is the only check. -/
theorem buildTimestampedEntry_ok_iff :
    buildTimestampedEntry secondByte entryType issuerKeyHash body sct = .ok octets ↔
      body.length < 256 ^ 3 ∧
        octets = [sctVersionV1, secondByte] ++ (toBigEndian 8 sct.timestampMs.toNat ++
          (toBigEndian 2 entryType ++ (issuerKeyHash ++ (writePrefixed 3 body ++
            (toBigEndian 2 sct.extensions.length ++ sct.extensions))))) := by
  unfold buildTimestampedEntry
  rw [u24_octets, writePrefixed, List.append_assoc]
  split
  · rename_i long
    constructor
    · intro built
      cases built
    · intro fits
      omega
  · rename_i short
    rw [Except.ok.injEq, eq_comm]
    exact (and_iff_right (by omega)).symm

/-- Two entries with the same octets, when their types and key hashes have one length. -/
theorem timestampedEntry_inj {secondByte' : UInt8} {entryType' : Nat}
    {issuerKeyHash' body' : Bytes} {sct' : SignedCertificateTimestamp}
    (small : entryType < 256 ^ 2) (small' : entryType' < 256 ^ 2)
    (hashLength : entryType = entryType' → issuerKeyHash.length = issuerKeyHash'.length)
    (built : buildTimestampedEntry secondByte entryType issuerKeyHash body sct = .ok octets)
    (built' : buildTimestampedEntry secondByte' entryType' issuerKeyHash' body' sct' = .ok octets) :
    entryType = entryType' ∧ sct.timestampMs = sct'.timestampMs ∧ issuerKeyHash = issuerKeyHash' ∧
      body = body' ∧ sct.extensions = sct'.extensions := by
  rcases buildTimestampedEntry_ok_iff.mp built with ⟨short, written⟩
  rcases buildTimestampedEntry_ok_iff.mp built' with ⟨short', written'⟩
  have whole := written.symm.trans written'
  have afterHead := (List.append_inj whole rfl).2
  have time := (readNumber_exact () 8).cut sct.timestampMs.toNat_lt sct'.timestampMs.toNat_lt
    afterHead
  have type := (readNumber_exact () 2).cut small small' time.2
  have hash := List.append_inj type.2 (hashLength type.1)
  have content := (readPrefixed_exact () 3).cut short short' hash.2
  have extensions := List.append_inj content.2 (by simp)
  exact ⟨type.1, UInt64.toNat_inj.mp time.1, hash.1, content.1, extensions.2⟩

/-- The second octet tells a tree head from an entry. -/
theorem timestampedEntry_ne_treeHead {sth : SignedTreeHead}
    (built : buildTimestampedEntry sigTypeCertificateTimestamp entryType issuerKeyHash body sct =
      .ok octets) : octets ≠ buildSignedInputTreeHead sth := by
  intro same
  have whole := (buildTimestampedEntry_ok_iff.mp built).2.symm.trans same
  have heads := (List.append_inj whole rfl).1
  exact absurd heads (by decide)

theorem treeHead_inj {sth sth' : SignedTreeHead}
    (same : buildSignedInputTreeHead sth = buildSignedInputTreeHead sth') :
    sth.timestampMs = sth'.timestampMs ∧ sth.treeSize = sth'.treeSize ∧
      sth.rootHash = sth'.rootHash := by
  have afterHead := (List.append_inj same rfl).2
  have time := (readNumber_exact () 8).cut sth.timestampMs.toNat_lt sth'.timestampMs.toNat_lt
    afterHead
  have size := (readNumber_exact () 8).cut sth.treeSize.toNat_lt sth'.treeSize.toNat_lt time.2
  exact ⟨UInt64.toNat_inj.mp time.1, UInt64.toNat_inj.mp size.1, Subtype.ext size.2⟩

end Encoding

namespace CtInput

variable {sct : SignedCertificateTimestamp} {octets : Bytes} {input other : CtInput}

/-- The octets to sign and the leaf of an entry are the same. -/
theorem builds_x509Entry_iff {certDer : Bytes} : (x509Entry sct certDer).Builds octets ↔
    buildTimestampedEntry sigTypeCertificateTimestamp entryTypeX509 [] certDer sct = .ok octets := by
  change _ ∨ some (buildTimestampedEntry _ _ _ _ _) = some (.ok octets) ↔ _
  rw [Option.some.injEq]
  exact or_self_iff

theorem builds_precertEntry_iff {issuerKeyHash : Digest} {tbsNoSct : Bytes} :
    (precertEntry sct issuerKeyHash tbsNoSct).Builds octets ↔
      buildTimestampedEntry sigTypeCertificateTimestamp entryTypePrecert issuerKeyHash.val tbsNoSct
        sct = .ok octets := by
  change _ ∨ some (buildTimestampedEntry _ _ _ _ _) = some (.ok octets) ↔ _
  rw [Option.some.injEq]
  exact or_self_iff

theorem builds_treeHead_iff {sth : SignedTreeHead} :
    (treeHead sth).Builds octets ↔ octets = buildSignedInputTreeHead sth := by
  change Except.ok _ = Except.ok octets ∨ none = some _ ↔ _
  simp [eq_comm]

theorem fields_eq_of_builds (here : input.Builds octets) (there : other.Builds octets) :
    input.fields = other.fields := by
  cases input with
  | x509Entry sct certDer =>
      rw [builds_x509Entry_iff] at here
      cases other with
      | x509Entry sct' certDer' =>
          rw [builds_x509Entry_iff] at there
          have same := timestampedEntry_inj (by decide) (by decide) (fun _ => rfl) here there
          rw [fields, fields, same.2.1, same.2.2.2.1, same.2.2.2.2]
      | precertEntry sct' issuerKeyHash' tbsNoSct' =>
          rw [builds_precertEntry_iff] at there
          have same := timestampedEntry_inj (by decide) (by decide)
            (fun types => absurd types (by decide)) here there
          exact absurd same.1 (by decide)
      | treeHead sth' =>
          exact absurd (builds_treeHead_iff.mp there) (timestampedEntry_ne_treeHead here)
  | precertEntry sct issuerKeyHash tbsNoSct =>
      rw [builds_precertEntry_iff] at here
      cases other with
      | x509Entry sct' certDer' =>
          rw [builds_x509Entry_iff] at there
          have same := timestampedEntry_inj (by decide) (by decide)
            (fun types => absurd types (by decide)) here there
          exact absurd same.1 (by decide)
      | precertEntry sct' issuerKeyHash' tbsNoSct' =>
          rw [builds_precertEntry_iff] at there
          have same := timestampedEntry_inj (by decide) (by decide)
            (fun _ => issuerKeyHash.2.trans issuerKeyHash'.2.symm) here there
          rw [fields, fields, same.2.1, Subtype.ext same.2.2.1, same.2.2.2.1, same.2.2.2.2]
      | treeHead sth' =>
          exact absurd (builds_treeHead_iff.mp there) (timestampedEntry_ne_treeHead here)
  | treeHead sth =>
      rw [builds_treeHead_iff] at here
      cases other with
      | x509Entry sct' certDer' =>
          exact absurd here (timestampedEntry_ne_treeHead (builds_x509Entry_iff.mp there))
      | precertEntry sct' issuerKeyHash' tbsNoSct' =>
          exact absurd here (timestampedEntry_ne_treeHead (builds_precertEntry_iff.mp there))
      | treeHead sth' =>
          have same := treeHead_inj (here.symm.trans (builds_treeHead_iff.mp there))
          rw [fields, fields, same.1, same.2.1, same.2.2]

/-- Octets are built just when the body fits. -/
theorem exists_builds_iff : (∃ octets, input.Builds octets) ↔ input.bodyLength ≤ 16777215 := by
  cases input with
  | x509Entry sct certDer =>
      simp only [builds_x509Entry_iff, buildTimestampedEntry_ok_iff, bodyLength, exists_and_left,
        exists_eq, and_true]
      omega
  | precertEntry sct issuerKeyHash tbsNoSct =>
      simp only [builds_precertEntry_iff, buildTimestampedEntry_ok_iff, bodyLength,
        exists_and_left, exists_eq, and_true]
      omega
  | treeHead sth => simp [builds_treeHead_iff, bodyLength]

/-- An input's octets are its own, and what does not fit the length fields is rejected, unless
it is the extensions alone that do not fit. -/
theorem unambiguous_iff (input : CtInput) :
    input.Unambiguous ↔ input.extensionsLength ≤ 65535 ∨ 16777215 < input.bodyLength := by
  constructor
  · intro unambiguous
    rcases Nat.lt_or_ge 16777215 input.bodyLength with long | short
    · exact .inr long
    · refine .inl (Nat.not_lt.mp ?_)
      intro overlong
      obtain ⟨octets, built⟩ := exists_builds_iff.mpr short
      refine unambiguous.rejected ?_ octets built
      intro fits
      exact absurd fits.2 (Nat.not_le.mpr overlong)
  · intro condition
    refine ⟨fun other octets => fields_eq_of_builds, ?_⟩
    intro unfit octets built
    have short := exists_builds_iff.mp ⟨octets, built⟩
    rcases condition with extensions | long
    · exact unfit ⟨short, extensions⟩
    · exact absurd short (Nat.not_le.mpr long)

end CtInput

namespace Concrete

def longExtensions : SignedCertificateTimestamp where
  version := 0
  logId := ⟨List.replicate 32 0x6c, rfl⟩
  timestampMs := 0
  extensions := List.replicate 65536 0
  hashAlg := 4
  sigAlg := 3
  signature := []

theorem longExtensions_length : longExtensions.extensions.length = 65536 := by
  rw [longExtensions]
  exact List.length_replicate

theorem entry_truncated (content : Bytes) :
    List.replicate 15 0 ++ (0x00 :: 0x00 :: content) =
      [sctVersionV1, sigTypeCertificateTimestamp] ++ (toBigEndian 8 (0 : UInt64).toNat ++
        (toBigEndian 2 entryTypeX509 ++ ([] ++ (writePrefixed 3 [] ++
          (toBigEndian 2 65536 ++ content))))) := rfl

/-- The length field of 65536 octets of extensions says that there are none. -/
theorem longExtensions_truncated :
    ¬ (CtInput.x509Entry longExtensions []).Fits ∧
      (CtInput.x509Entry longExtensions []).Builds
        (List.replicate 15 0 ++ (0x00 :: 0x00 :: longExtensions.extensions)) ∧
      ¬ (CtInput.x509Entry longExtensions []).Unambiguous := by
  have time : longExtensions.timestampMs = 0 := by rw [longExtensions]
  have built : (CtInput.x509Entry longExtensions []).Builds
      (List.replicate 15 0 ++ (0x00 :: 0x00 :: longExtensions.extensions)) := by
    rw [CtInput.builds_x509Entry_iff, buildTimestampedEntry_ok_iff, longExtensions_length, time]
    exact ⟨by decide, entry_truncated _⟩
  have unfit : ¬ (CtInput.x509Entry longExtensions []).Fits := by
    rw [CtInput.Fits, CtInput.extensionsLength, longExtensions_length]
    omega
  exact ⟨unfit, built, fun unambiguous => unambiguous.rejected unfit _ built⟩

end Concrete

end Pkix.Ct
