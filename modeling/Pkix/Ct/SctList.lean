import Pkix.Lib.Framing
import Pkix.Ct.MerkleInclusion

/-! The wire form of signed certificate timestamps, and the parser that accepts it. -/

namespace Pkix.Ct

open Pkix.Path Framing Octets

structure SignedCertificateTimestamp where
  version : UInt8
  logId : Digest
  timestampMs : UInt64
  extensions : Bytes
  hashAlg : UInt8
  sigAlg : UInt8
  signature : Bytes
  deriving DecidableEq

abbrev SctList := List SignedCertificateTimestamp

abbrev Cursor (α : Type) := Reader UInt8 Error α

def readArray (count : Nat) : Cursor { octets : Bytes // octets.length = count } := fun data =>
  if short : data.length < count then .error .truncatedOrTrailing
  else .ok (⟨data.take count, List.length_take_of_le (Nat.not_lt.mp short)⟩, data.drop count)

def readU8 : Cursor UInt8 := do
  let bytes ← readBytes .truncatedOrTrailing 1
  return bytes.headD 0

def readU64Be : Cursor UInt64 := do
  let value ← readNumber .truncatedOrTrailing 8
  return UInt64.ofNat value

def readU16Prefixed : Cursor Bytes := readPrefixed .truncatedOrTrailing 2

namespace SignedCertificateTimestamp

def read : Cursor SignedCertificateTimestamp := do
  let version ← readU8
  if version ≠ 0 then throw (.unsupportedVersion version)
  else
    let logId ← readArray 32
    let timestampMs ← readU64Be
    let extensions ← readU16Prefixed
    let hashAlg ← readU8
    let sigAlg ← readU8
    let signature ← readU16Prefixed
    return { version, logId, timestampMs, extensions, hashAlg, sigAlg, signature }

def fromBytes (input : Bytes) : Result SignedCertificateTimestamp :=
  readWhole read .truncatedOrTrailing input

/-- The `SignedCertificateTimestamp` structure of RFC 6962, field after field. -/
def encode (sct : SignedCertificateTimestamp) : Bytes :=
  [sct.version] ++ (sct.logId.val ++ (toBigEndian 8 sct.timestampMs.toNat ++
    (writePrefixed 2 sct.extensions ++ ([sct.hashAlg] ++ ([sct.sigAlg] ++
      writePrefixed 2 sct.signature)))))

/-- A first-version timestamp whose byte strings fit their length fields. -/
def Valid (sct : SignedCertificateTimestamp) : Prop :=
  sct.version = 0 ∧ sct.extensions.length < 2 ^ 16 ∧ sct.signature.length < 2 ^ 16

instance (sct : SignedCertificateTimestamp) : Decidable sct.Valid :=
  inferInstanceAs (Decidable (_ ∧ _ ∧ _))

end SignedCertificateTimestamp

/-- One turn of the list loop. -/
def readSerializedSct : Cursor SignedCertificateTimestamp := do
  let sctBytes ← readU16Prefixed
  liftM (SignedCertificateTimestamp.fromBytes sctBytes)

/-- A `SerializedSCT` of RFC 6962. -/
def writeSerializedSct (sct : SignedCertificateTimestamp) : Bytes := writePrefixed 2 sct.encode

section Fields

theorem readArray_exact (count : Nat) :
    Exact (readArray count) Subtype.val (fun _ => True) := by
  intro input octets rest
  unfold readArray
  constructor
  · intro read
    split at read
    · cases read
    · cases read
      exact ⟨trivial, (List.take_append_drop ..).symm⟩
  · intro written
    cases octets with
    | mk octets length =>
        subst length
        simp [written.2]

theorem readU8_exact : Exact readU8 (fun octet => [octet]) (fun _ => True) := by
  intro input octet rest
  simp only [readU8, read_bind_ok, read_pure_ok, readBytes_exact _ 1 input, id,
    List.length_eq_one_iff]
  constructor
  · intro read
    obtain ⟨bytes, middle, ⟨⟨single, only⟩, together⟩, first, same⟩ := read
    subst only same first
    exact ⟨trivial, together⟩
  · intro written
    exact ⟨[octet], rest, ⟨⟨octet, rfl⟩, written.2⟩, rfl, rfl⟩

theorem readU64Be_exact :
    Exact readU64Be (fun value => toBigEndian 8 value.toNat) (fun _ => True) := by
  intro input value rest
  simp only [readU64Be, read_bind_ok, read_pure_ok, readNumber_exact _ 8 input]
  constructor
  · intro read
    obtain ⟨number, middle, ⟨small, together⟩, word, same⟩ := read
    subst word same
    exact ⟨trivial, by rw [UInt64.toNat_ofNat_of_lt' small]; exact together⟩
  · intro written
    exact ⟨value.toNat, rest, ⟨value.toNat_lt, written.2⟩, UInt64.ofNat_toNat, rfl⟩

theorem readU16Prefixed_exact :
    Exact readU16Prefixed (writePrefixed 2) (fun body => body.length < 2 ^ 16) :=
  readPrefixed_exact Error.truncatedOrTrailing 2

end Fields

namespace SignedCertificateTimestamp

theorem read_exact : Exact read encode Valid := by
  intro input sct rest
  constructor
  · intro finished
    obtain ⟨version, data, readVersion, finished⟩ := read_bind_ok.mp finished
    by_cases first : version = 0
    · rw [if_neg (not_not.mpr first)] at finished
      simp only [read_bind_ok, read_pure_ok] at finished
      obtain ⟨logId, _, readLog, timestamp, _, readTime, extensions, _, readExtensions,
        hashAlg, _, readHash, sigAlg, _, readSig, signature, _, readSignature, whole, last⟩ :=
        finished
      have atVersion := (readU8_exact ..).mp readVersion
      have atLog := (readArray_exact ..).mp readLog
      have atTime := (readU64Be_exact ..).mp readTime
      have atExtensions := (readU16Prefixed_exact ..).mp readExtensions
      have atHash := (readU8_exact ..).mp readHash
      have atSig := (readU8_exact ..).mp readSig
      have atSignature := (readU16Prefixed_exact ..).mp readSignature
      subst whole last
      refine ⟨⟨first, atExtensions.1, atSignature.1⟩, ?_⟩
      rw [atVersion.2, atLog.2, atTime.2, atExtensions.2, atHash.2, atSig.2, atSignature.2]
      simp only [encode, List.append_assoc]
    · rw [if_pos first, read_throw_ok] at finished
      exact finished.elim
  · intro written
    have readVersion := (readU8_exact input sct.version _).mpr
      ⟨trivial, by rw [written.2, encode, List.append_assoc]⟩
    refine read_bind_ok.mpr ⟨_, _, readVersion, ?_⟩
    rw [if_neg (not_not.mpr written.1.1)]
    simp only [read_bind_ok, read_pure_ok, List.append_assoc]
    exact ⟨_, _, (readArray_exact 32 _ sct.logId _).mpr ⟨trivial, rfl⟩,
      _, _, (readU64Be_exact _ sct.timestampMs _).mpr ⟨trivial, rfl⟩,
      _, _, (readU16Prefixed_exact _ sct.extensions _).mpr ⟨written.1.2.1, rfl⟩,
      _, _, (readU8_exact _ sct.hashAlg _).mpr ⟨trivial, rfl⟩,
      _, _, (readU8_exact _ sct.sigAlg _).mpr ⟨trivial, rfl⟩,
      _, _, (readU16Prefixed_exact _ sct.signature _).mpr ⟨written.1.2.2, rfl⟩, rfl, rfl⟩

theorem fromBytes_ok_iff (input : Bytes) (sct : SignedCertificateTimestamp) :
    fromBytes input = .ok sct ↔ sct.Valid ∧ input = sct.encode :=
  readWhole_ok_iff read_exact .truncatedOrTrailing input sct

end SignedCertificateTimestamp

def SerializedFits (sct : SignedCertificateTimestamp) : Prop :=
  sct.Valid ∧ sct.encode.length < 2 ^ 16

theorem readSerializedSct_exact : Exact readSerializedSct writeSerializedSct SerializedFits := by
  intro input sct rest
  simp only [readSerializedSct, read_bind_ok, read_lift_ok,
    SignedCertificateTimestamp.fromBytes_ok_iff]
  constructor
  · intro finished
    obtain ⟨sctBytes, middle, readBody, ⟨valid, written⟩, same⟩ := finished
    have atBody := (readU16Prefixed_exact ..).mp readBody
    subst written same
    exact ⟨⟨valid, atBody.1⟩, atBody.2⟩
  · intro written
    exact ⟨sct.encode, rest, (readU16Prefixed_exact ..).mpr ⟨written.1.2, written.2⟩,
      ⟨written.1.1, rfl⟩, rfl⟩

theorem writeSerializedSct_length (sct : SignedCertificateTimestamp) :
    (writeSerializedSct sct).length = sct.encode.length + 2 := by
  simp [writeSerializedSct, writePrefixed, Nat.add_comm]

theorem writeSerializedSct_ne_nil (sct : SignedCertificateTimestamp) :
    writeSerializedSct sct ≠ [] := by
  have long := writeSerializedSct_length sct
  intro empty
  simp [empty] at long

theorem readSerializedSct_consumes (input : Bytes) (sct : SignedCertificateTimestamp)
    (rest : Bytes) (read : readSerializedSct input = .ok (sct, rest)) :
    rest.length < input.length := by
  have written := ((readSerializedSct_exact ..).mp read).2
  rw [written, List.length_append, writeSerializedSct_length]
  omega

namespace SctList

def fromSerializedList (bytes : Bytes) : Result SctList := do
  let body ← readWhole readU16Prefixed .truncatedOrTrailing bytes
  if body.isEmpty then .error .parseError
  else readAll readSerializedSct readSerializedSct_consumes body

def encodeBody (scts : SctList) : Bytes := scts.flatMap writeSerializedSct

/-- The `SignedCertificateTimestampList` structure of RFC 6962. -/
def encode (scts : SctList) : Bytes := writePrefixed 2 scts.encodeBody

/-- What the length fields of the structure can carry. -/
structure Valid (scts : SctList) : Prop where
  nonempty : scts ≠ []
  entries : ∀ sct ∈ scts, SerializedFits sct
  total : scts.encodeBody.length < 2 ^ 16

theorem encodeBody_eq_nil_iff (scts : SctList) : scts.encodeBody = [] ↔ scts = [] := by
  cases scts with
  | nil => simp [encodeBody]
  | cons sct scts => simp [encodeBody, writeSerializedSct_ne_nil sct]

theorem fromSerializedList_ok_iff (bytes : Bytes) (scts : SctList) :
    fromSerializedList bytes = .ok scts ↔ scts.Valid ∧ bytes = scts.encode := by
  have reads := readAll_ok_iff readSerializedSct_consumes readSerializedSct_exact
    writeSerializedSct_ne_nil
  simp only [fromSerializedList, Walk.bind_ok,
    readWhole_ok_iff readU16Prefixed_exact .truncatedOrTrailing]
  constructor
  · intro finished
    obtain ⟨body, ⟨total, outer⟩, inner⟩ := finished
    split at inner
    · cases inner
    · rename_i more
      obtain ⟨entries, written⟩ := (reads body scts).mp inner
      subst written outer
      refine ⟨⟨?_, entries, total⟩, rfl⟩
      intro empty
      exact more (by simp [empty])
  · intro written
    obtain ⟨valid, outer⟩ := written
    have more : ¬ scts.encodeBody.isEmpty = true := by
      rw [List.isEmpty_iff, encodeBody_eq_nil_iff]
      exact valid.nonempty
    refine ⟨scts.encodeBody, ⟨valid.total, outer⟩, ?_⟩
    rw [if_neg more]
    exact (reads _ scts).mpr ⟨valid.entries, rfl⟩

/-- The parser accepts the encodings of valid lists and nothing else, and parsing
and encoding undo each other. -/
theorem sctListParser_exact :
    (∀ bytes, (∃ scts, fromSerializedList bytes = .ok scts) ↔
      ∃ scts : SctList, scts.Valid ∧ bytes = scts.encode) ∧
    (∀ bytes scts, fromSerializedList bytes = .ok scts → scts.encode = bytes) ∧
    ∀ scts : SctList, scts.Valid → fromSerializedList scts.encode = .ok scts := by
  refine ⟨?_, ?_, ?_⟩
  · intro bytes
    exact exists_congr (fromSerializedList_ok_iff bytes)
  · intro bytes scts parsed
    exact ((fromSerializedList_ok_iff bytes scts).mp parsed).2.symm
  · intro scts valid
    exact (fromSerializedList_ok_iff _ scts).mpr ⟨valid, rfl⟩

end SctList

end Pkix.Ct
