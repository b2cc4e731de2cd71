import Pkix.Lint.LintRunner
import Pkix.Path.RsaFloor

/-! The lint on the size of RSA keys: its own reader of the key, whose slices stay within the input
and whose arithmetic stays within a machine word, and the length of the modulus in bits. -/

namespace Pkix.Lint

open Pkix.Path DerFraming Octets Walk

section Reader

/-- What a faulty access or step would be: a panic, or a number that no longer fits its word. -/
inductive Fault
  | outOfBounds
  | overflow
  deriving DecidableEq, Repr

abbrev Checked (α : Type) := Except Fault α

def usizeLimit : Nat := 18446744073709551616

def usize (value : Nat) : Checked Nat :=
  if value < usizeLimit then .ok value else .error .overflow

def subUsize (value less : Nat) : Checked Nat :=
  if less ≤ value then .ok (value - less) else .error .overflow

def splitAtChecked (count : Nat) (bytes : Bytes) : Checked (Bytes × Bytes) :=
  if count ≤ bytes.length then .ok (bytes.splitAt count) else .error .outOfBounds

def byteAt (bytes : Bytes) (index : Nat) : Checked UInt8 :=
  match bytes[index]? with
  | some octet => .ok octet
  | none => .error .outOfBounds

/-- The loop over the octets of a length. A shift that loses bits is a fault, and an addition that
overflows ends the loop. -/
def accumulateLength : Nat → Bytes → Checked (Option Nat)
  | length, [] => .ok (some length)
  | length, octet :: rest => do
      let shifted ← usize (length * 256)
      if shifted + octet.toNat < usizeLimit then accumulateLength (shifted + octet.toNat) rest
      else .ok none

def parseDerLength : Bytes → Checked (Option (Nat × Bytes))
  | [] => .ok none
  | first :: rest =>
      if first < 0x80 then .ok (some (first.toNat, rest))
      else
        let nBytes := (first &&& 0x7f).toNat
        if nBytes = 0 ∨ 4 < nBytes ∨ rest.length < nBytes then .ok none
        else do
          let (lenBytes, rest) ← splitAtChecked nBytes rest
          let length ← accumulateLength 0 lenBytes
          .ok (length.map fun length => (length, rest))

def derPeelTlv (input : Bytes) (expectedTag : UInt8) : Checked (Option (Bytes × Bytes)) :=
  match input with
  | [] => .ok none
  | tag :: rest =>
      if tag ≠ expectedTag then .ok none
      else do
        match ← parseDerLength rest with
        | none => .ok none
        | some (len, rest) =>
            if rest.length < len then .ok none
            else do
              let (value, remaining) ← splitAtChecked len rest
              .ok (some (value, remaining))

/-- One zero octet in front is the sign of an octet with its high bit set. -/
def stripSign (intValue : Bytes) : Checked Bytes :=
  if intValue.length < 2 then .ok intValue
  else do
    let first ← byteAt intValue 0
    if first ≠ 0 then .ok intValue
    else do
      let second ← byteAt intValue 1
      if second &&& 0x80 = 0 then .ok intValue
      else do
        let (_, rest) ← splitAtChecked 1 intValue
        .ok rest

def leadingZeros (octet : UInt8) : Nat := 8 - Nat.size octet.toNat

/-- The bits of a number, from its octets. -/
def magnitudeBits (intValue : Bytes) : Checked (Option Nat) :=
  match intValue.dropWhile (· == 0) with
  | [] => .ok none
  | high :: rest =>
      if high = 0 then .ok none
      else do
        let before ← subUsize (rest.length + 1) 1
        let bits ← usize (before * 8)
        let highBits ← subUsize 8 (leadingZeros high)
        let total ← usize (bits + highBits)
        .ok (some total)

def rsaModulusBitLen (der : Bytes) : Checked (Option Nat) := do
  match ← derPeelTlv der 0x30 with
  | none => .ok none
  | some (seqContent, _) =>
      match ← derPeelTlv seqContent 0x02 with
      | none => .ok none
      | some (intValue, _) => do
          let intValue ← stripSign intValue
          magnitudeBits intValue

def checkCertRsaMinKeySize (cert : Certificate) : Checked LintResult :=
  let spki := cert.tbsCertificate.subjectPublicKeyInfo
  if spki.algorithm.oid ≠ oidRsaEncryption then .ok .notApplicable
  else do
    match ← rsaModulusBitLen spki.subjectPublicKey.rawBytes with
    | none => .ok (.error "RSA public key structure is unparseable")
    | some nBits =>
        if 2048 ≤ nBits then .ok .pass
        else .ok (.error "RSA key modulus is less than 2048 bits")

end Reader

section Lengths

theorem usize_ok {value : Nat} (small : value < usizeLimit) : usize value = .ok value := if_pos small

theorem subUsize_ok {value less : Nat} (atMost : less ≤ value) :
    subUsize value less = .ok (value - less) :=
  if_pos atMost

theorem splitAtChecked_ok {count : Nat} {bytes : Bytes} (within : count ≤ bytes.length) :
    splitAtChecked count bytes = .ok (bytes.take count, bytes.drop count) := by
  rw [splitAtChecked, if_pos within, List.splitAt_eq]

/-- The octets of a length are put together without losing a bit. -/
theorem accumulateLength_ok {start : Nat} {octets : Bytes}
    (fits : (start + 1) * 256 ^ octets.length ≤ usizeLimit) :
    accumulateLength start octets = .ok (some (start * 256 ^ octets.length + bigEndian octets)) := by
  induction octets generalizing start with
  | nil =>
      rw [accumulateLength, List.length_nil, pow_zero, Nat.mul_one]
      rfl
  | cons octet rest ih =>
      have small := octet.toNat_lt
      have positive : 0 < 256 ^ rest.length := Nat.pow_pos (by decide)
      rw [List.length_cons, pow_succ] at fits
      have room : (start * 256 + octet.toNat + 1) * 256 ^ rest.length ≤ usizeLimit := by
        calc (start * 256 + octet.toNat + 1) * 256 ^ rest.length
            ≤ ((start + 1) * 256) * 256 ^ rest.length := Nat.mul_le_mul_right _ (by omega)
          _ = (start + 1) * (256 ^ rest.length * 256) := by ring
          _ ≤ usizeLimit := fits
      have next : start * 256 + octet.toNat + 1 ≤ usizeLimit :=
        Nat.le_trans (Nat.le_mul_of_pos_right _ positive) room
      have value : (start * 256 + octet.toNat) * 256 ^ rest.length + bigEndian rest =
          start * 256 ^ (octet :: rest).length + bigEndian (octet :: rest) := by
        rw [List.length_cons, bigEndian_cons, pow_succ]
        ring
      rw [accumulateLength, ← value]
      refine bind_ok.mpr ⟨_, usize_ok (by omega), ?_⟩
      rw [if_pos (by omega)]
      exact ih room

theorem accumulateLength_four {octets : Bytes} (four : octets.length ≤ 4) :
    accumulateLength 0 octets = .ok (some (bigEndian octets)) := by
  have room : (0 + 1) * 256 ^ octets.length ≤ usizeLimit := by
    calc (0 + 1) * 256 ^ octets.length = 256 ^ octets.length := by ring
      _ ≤ 256 ^ 4 := Nat.pow_le_pow_right (by decide) four
      _ ≤ usizeLimit := by decide
  rw [accumulateLength_ok room, Nat.zero_mul, Nat.zero_add]

theorem low_bits (octet : UInt8) : (octet &&& 0x7f).toNat = octet.toNat % 128 := by
  rw [UInt8.toNat_and]
  exact Nat.and_two_pow_sub_one_eq_mod octet.toNat 7

/-- A length field is read without a fault, as a number of at most four octets. -/
theorem parseDerLength_cases (input : Bytes) :
    parseDerLength input = .ok none ∨ ∃ length rest,
      parseDerLength input = .ok (some (length, rest)) ∧ length < lengthLimit := by
  cases input with
  | nil => exact .inl rfl
  | cons first rest =>
      rw [parseDerLength]
      split
      · have small := first.toNat_lt
        exact .inr ⟨_, _, rfl, by unfold lengthLimit; omega⟩
      · dsimp only
        split
        · exact .inl rfl
        · rename_i counted
          rw [not_or, not_or, Nat.not_lt, Nat.not_lt] at counted
          have taken : (rest.take (first &&& 0x7f).toNat).length = (first &&& 0x7f).toNat :=
            List.length_take_of_le counted.2.2
          have few : (rest.take (first &&& 0x7f).toNat).length ≤ 4 := by omega
          rw [splitAtChecked_ok counted.2.2]
          refine .inr ⟨bigEndian (rest.take (first &&& 0x7f).toNat),
            rest.drop (first &&& 0x7f).toNat, ?_, ?_⟩
          · exact bind_ok.mpr ⟨_, rfl, bind_ok.mpr ⟨_, accumulateLength_four few, rfl⟩⟩
          · calc bigEndian (rest.take (first &&& 0x7f).toNat)
                < 256 ^ (rest.take (first &&& 0x7f).toNat).length := bigEndian_lt _
              _ ≤ 256 ^ 4 := Nat.pow_le_pow_right (by decide) few
              _ = lengthLimit := by decide

theorem parseDerLength_ok (input : Bytes) : ∃ result, parseDerLength input = .ok result := by
  rcases parseDerLength_cases input with missing | ⟨length, rest, read, _⟩
  · exact ⟨none, missing⟩
  · exact ⟨some (length, rest), read⟩

theorem parseDerLength_writeLength {length : Nat} (fits : length < lengthLimit) (rest : Bytes) :
    parseDerLength (writeLength length ++ rest) = .ok (some (length, rest)) := by
  unfold writeLength
  split
  · rename_i short
    have octet : toBigEndian 1 length = [UInt8.ofNat length] := by simp [toBigEndian]
    have small : UInt8.ofNat length < 0x80 := by
      rw [UInt8.lt_iff_toNat_lt, UInt8.toNat_ofNat_of_lt' (by omega : length < 256)]
      exact short
    rw [octet, List.singleton_append, parseDerLength, if_pos small,
      UInt8.toNat_ofNat_of_lt' (by omega : length < 256)]
  · have width := lengthWidth_between length
    have octet : toBigEndian 1 (128 + lengthWidth length) =
        [UInt8.ofNat (128 + lengthWidth length)] := by simp [toBigEndian]
    have first : (UInt8.ofNat (128 + lengthWidth length)).toNat = 128 + lengthWidth length :=
      UInt8.toNat_ofNat_of_lt' (by omega : 128 + lengthWidth length < 256)
    have large : ¬ UInt8.ofNat (128 + lengthWidth length) < 0x80 := by
      rw [UInt8.lt_iff_toNat_lt, first]
      exact Nat.not_lt.mpr (Nat.le_add_right 128 _)
    have count : (UInt8.ofNat (128 + lengthWidth length) &&& 0x7f).toNat = lengthWidth length := by
      rw [low_bits, first]
      omega
    have octets := length_toBigEndian (lengthWidth length) length
    have within : lengthWidth length ≤ (toBigEndian (lengthWidth length) length ++ rest).length := by
      rw [List.length_append]
      omega
    have number := accumulateLength_four (octets.trans_le width.2)
    rw [bigEndian_toBigEndian (lengthWidth_bound fits)] at number
    rw [octet, List.append_assoc, List.singleton_append, parseDerLength, if_neg large]
    dsimp only
    rw [count, if_neg (by omega), splitAtChecked_ok within, List.take_left' octets,
      List.drop_left' octets]
    exact bind_ok.mpr ⟨_, rfl, bind_ok.mpr ⟨_, number, rfl⟩⟩

/-- A value behind its tag is taken off without a fault, if it is there. -/
theorem derPeelTlv_cases (input : Bytes) (tag : UInt8) :
    derPeelTlv input tag = .ok none ∨ ∃ value rest,
      derPeelTlv input tag = .ok (some (value, rest)) ∧ value.length < lengthLimit := by
  cases input with
  | nil => exact .inl rfl
  | cons first rest =>
      rw [derPeelTlv]
      split
      · exact .inl rfl
      · rcases parseDerLength_cases rest with missing | ⟨length, behind, read, small⟩
        · rw [missing]
          exact .inl rfl
        · rw [read]
          dsimp only [bind, Except.bind]
          split
          · exact .inl rfl
          · rename_i within
            rw [splitAtChecked_ok (Nat.not_lt.mp within)]
            refine .inr ⟨_, _, rfl, ?_⟩
            rw [List.length_take_of_le (Nat.not_lt.mp within)]
            exact small

theorem derPeelTlv_ok (input : Bytes) (tag : UInt8) :
    ∃ result, derPeelTlv input tag = .ok result := by
  rcases derPeelTlv_cases input tag with missing | ⟨value, rest, read, _⟩
  · exact ⟨none, missing⟩
  · exact ⟨some (value, rest), read⟩

theorem derPeelTlv_writeTlv {content : Bytes} (fits : content.length < lengthLimit) (tag : UInt8)
    (rest : Bytes) : derPeelTlv (writeTlv tag content ++ rest) tag = .ok (some (content, rest)) := by
  have within : content.length ≤ (content ++ rest).length := by
    rw [List.length_append]
    exact Nat.le_add_right _ _
  rw [writeTlv, List.cons_append, List.append_assoc, derPeelTlv, if_neg (not_not.mpr rfl),
    parseDerLength_writeLength fits]
  dsimp only [bind, Except.bind]
  rw [if_neg (Nat.not_lt.mpr within), splitAtChecked_ok within, List.take_left, List.drop_left]

end Lengths

section Bits

theorem byteAt_ok {bytes : Bytes} {index : Nat} {octet : UInt8} (present : bytes[index]? = some octet) :
    byteAt bytes index = .ok octet := by
  rw [byteAt, present]

theorem stripSign_cases (intValue : Bytes) :
    ∃ stripped, stripSign intValue = .ok stripped ∧ stripped.length ≤ intValue.length := by
  match intValue with
  | [] => exact ⟨[], rfl, Nat.le_refl _⟩
  | [octet] => exact ⟨[octet], rfl, Nat.le_refl _⟩
  | first :: second :: rest =>
      unfold stripSign
      rw [if_neg (by simp), byteAt_ok rfl, byteAt_ok rfl]
      dsimp only [bind, Except.bind]
      split
      · exact ⟨_, rfl, Nat.le_refl _⟩
      · split
        · exact ⟨_, rfl, Nat.le_refl _⟩
        · rw [splitAtChecked_ok (by simp)]
          refine ⟨_, rfl, ?_⟩
          rw [List.length_drop]
          exact Nat.sub_le _ _

theorem high_bit {octet : UInt8} : octet &&& 0x80 = 0 ↔ ¬ 128 ≤ octet := by
  have all : ∀ value : Fin 256, (UInt8.ofNat value &&& 0x80 = 0 ↔ ¬ 128 ≤ UInt8.ofNat value) := by
    decide +kernel
  have here := all ⟨octet.toNat, octet.toNat_lt⟩
  rw [UInt8.ofNat_toNat] at here
  exact here

/-- The sign octet of an encoded number is taken off, and no other. -/
theorem stripSign_signed {first : UInt8} {rest : Bytes} (positive : first ≠ 0) :
    stripSign (signed (first :: rest)) = .ok (first :: rest) := by
  rw [signed]
  split
  · rename_i high
    have marked : ¬ first &&& 0x80 = 0 := fun clear => high_bit.mp clear high
    unfold stripSign
    rw [if_neg (by simp), byteAt_ok rfl, byteAt_ok rfl]
    dsimp only [bind, Except.bind]
    rw [if_neg (not_not.mpr rfl), if_neg marked, splitAtChecked_ok (by simp)]
    rfl
  · unfold stripSign
    split
    · rfl
    · rw [byteAt_ok rfl]
      exact if_pos positive

theorem counted (high : UInt8) : 8 - leadingZeros high = Nat.size high.toNat := by
  have bits : Nat.size high.toNat ≤ 8 := Nat.size_le.mpr high.toNat_lt
  unfold leadingZeros
  omega

/-- The octets that follow the zeros are counted as they are. -/
theorem magnitudeBits_kept {intValue : Bytes} {high : UInt8} {rest : Bytes}
    (kept : intValue.dropWhile (· == 0) = high :: rest) (positive : high ≠ 0)
    (fits : rest.length < lengthLimit) :
    magnitudeBits intValue = .ok (some (Nat.size (bigEndian (high :: rest)))) := by
  have bits : Nat.size high.toNat ≤ 8 := Nat.size_le.mpr high.toNat_lt
  have atMost : leadingZeros high ≤ 8 := Nat.sub_le 8 _
  unfold lengthLimit at fits
  unfold magnitudeBits
  rw [kept]
  dsimp only
  rw [if_neg positive]
  refine bind_ok.mpr ⟨_, subUsize_ok (Nat.le_add_left 1 _), ?_⟩
  rw [Nat.add_sub_cancel]
  refine bind_ok.mpr ⟨_, usize_ok (by unfold usizeLimit; omega), ?_⟩
  refine bind_ok.mpr ⟨_, subUsize_ok atMost, ?_⟩
  rw [counted]
  refine bind_ok.mpr ⟨_, usize_ok (by unfold usizeLimit; omega), ?_⟩
  rw [size_bigEndian positive]

theorem magnitudeBits_cons {high : UInt8} {rest : Bytes} (positive : high ≠ 0)
    (fits : rest.length < lengthLimit) :
    magnitudeBits (high :: rest) = .ok (some (Nat.size (bigEndian (high :: rest)))) :=
  magnitudeBits_kept (List.dropWhile_cons_of_neg (by simpa using positive)) positive fits

theorem magnitudeBits_cases {intValue : Bytes} (fits : intValue.length < lengthLimit) :
    ∃ result, magnitudeBits intValue = .ok result := by
  have shorter := List.length_dropWhile_le (· == 0) intValue
  cases kept : intValue.dropWhile (· == 0) with
  | nil =>
      refine ⟨none, ?_⟩
      rw [magnitudeBits, kept]
  | cons high rest =>
      by_cases zero : high = 0
      · refine ⟨none, ?_⟩
        rw [magnitudeBits, kept]
        exact if_pos zero
      · rw [kept, List.length_cons] at shorter
        exact ⟨_, magnitudeBits_kept kept zero (by omega)⟩

end Bits

section Exactness

/-- No input makes the reader fault. -/
theorem rsaModulusBitLen_cases (der : Bytes) : ∃ result, rsaModulusBitLen der = .ok result := by
  unfold rsaModulusBitLen
  rcases derPeelTlv_cases der 0x30 with missing | ⟨seqContent, _, outer, _⟩
  · rw [missing]
    exact ⟨none, rfl⟩
  rw [outer]
  dsimp only [bind, Except.bind]
  rcases derPeelTlv_cases seqContent 0x02 with missing | ⟨intValue, _, inner, small⟩
  · rw [missing]
    exact ⟨none, rfl⟩
  rw [inner]
  dsimp only
  obtain ⟨stripped, done, shorter⟩ := stripSign_cases intValue
  rw [done]
  exact magnitudeBits_cases (Nat.lt_of_le_of_lt shorter small)

/-- An RSAPublicKey with any integer for the exponent. -/
def encodeRsaKey (modulus exponent : Bytes) : Bytes :=
  writeTlv sequenceTag (writeUint modulus ++ writeTlv integerTag exponent)

/-- Only the modulus is read, whatever comes after it in the SEQUENCE and after that. -/
theorem rsaModulusBitLen_framed {modulus behind rest : Bytes} (number : IsMagnitude modulus)
    (positive : 0 < bigEndian modulus) (fits : (writeUint modulus ++ behind).length < lengthLimit) :
    rsaModulusBitLen (writeTlv sequenceTag (writeUint modulus ++ behind) ++ rest) =
      .ok (some (Nat.size (bigEndian modulus))) := by
  have outer := derPeelTlv_writeTlv fits sequenceTag rest
  have shorter : (signed modulus).length < lengthLimit := by
    have inner := length_writeTlv integerTag (signed modulus)
    rw [List.length_append] at fits
    unfold writeUint at fits
    omega
  have inner := derPeelTlv_writeTlv shorter integerTag behind
  unfold rsaModulusBitLen
  refine bind_ok.mpr ⟨_, outer, bind_ok.mpr ⟨_, inner, ?_⟩⟩
  rcases number with zero | ⟨first, rest, shape, notZero⟩
  · rw [zero] at positive
    exact absurd positive (by decide)
  · have small := length_signed modulus
    rw [shape] at small shorter ⊢
    rw [List.length_cons] at small
    exact bind_ok.mpr ⟨_, stripSign_signed notZero, magnitudeBits_cons notZero (by omega)⟩

theorem rsaModulusBitLen_encode {modulus exponent : Bytes} (number : IsMagnitude modulus)
    (positive : 0 < bigEndian modulus)
    (fits : (writeUint modulus ++ writeTlv integerTag exponent).length < lengthLimit) :
    rsaModulusBitLen (encodeRsaKey modulus exponent) =
      .ok (some (Nat.size (bigEndian modulus))) := by
  rw [encodeRsaKey, ← List.append_nil (writeTlv _ _)]
  exact rsaModulusBitLen_framed number positive fits

/-- The reader finds the bits of the modulus of every encoded key, so that a key passes just when
its modulus has 2048 bits; and no input makes it slice or count beyond its bounds. -/
theorem rsaMinKeySize_exact :
    (∀ modulus exponent : Bytes, IsMagnitude modulus → 0 < bigEndian modulus →
      (writeUint modulus ++ writeTlv integerTag exponent).length < lengthLimit →
      (∃ bits, rsaModulusBitLen (encodeRsaKey modulus exponent) = .ok (some bits) ∧
        2 ^ (bits - 1) ≤ bigEndian modulus ∧ bigEndian modulus < 2 ^ bits) ∧
      ∀ cert : Certificate,
        cert.tbsCertificate.subjectPublicKeyInfo.algorithm.oid = oidRsaEncryption →
        cert.tbsCertificate.subjectPublicKeyInfo.subjectPublicKey.rawBytes =
          encodeRsaKey modulus exponent →
        (checkCertRsaMinKeySize cert = .ok .pass ↔ 2 ^ 2047 ≤ bigEndian modulus)) ∧
    ∀ input : Bytes, (∃ result, rsaModulusBitLen input = .ok result) ∧
      (∃ result, parseDerLength input = .ok result) ∧
      ∀ tag, ∃ result, derPeelTlv input tag = .ok result := by
  refine ⟨?_, fun input => ⟨rsaModulusBitLen_cases input, parseDerLength_ok input,
    derPeelTlv_ok input⟩⟩
  intro modulus exponent number positive fits
  have read := rsaModulusBitLen_encode number positive fits
  refine ⟨⟨_, read, ?_, Nat.lt_size_self _⟩, ?_⟩
  · have bits : 0 < Nat.size (bigEndian modulus) := Nat.size_pos.mpr positive
    exact Nat.lt_size.mp (by omega)
  · intro cert rsa raw
    unfold checkCertRsaMinKeySize
    dsimp only
    rw [if_neg (not_not.mpr rsa), raw, read]
    change (if 2048 ≤ Nat.size (bigEndian modulus) then Except.ok LintResult.pass else _) = _ ↔ _
    rw [← Nat.lt_size]
    split
    · rename_i enough
      exact ⟨fun _ => enough, fun _ => rfl⟩
    · rename_i short
      refine ⟨fun impossible => ?_, fun enough => absurd enough short⟩
      cases impossible

end Exactness

namespace Concrete

theorem fiveKey_threeBits : ∃ bits, rsaModulusBitLen (encodeRsaKey [5] [3]) = .ok (some bits) ∧
    2 ^ (bits - 1) ≤ bigEndian [5] ∧ bigEndian [5] < 2 ^ bits :=
  (rsaMinKeySize_exact.1 [5] [3] (.inr ⟨5, [], rfl, by decide⟩) (by decide) (by decide)).1

end Concrete

end Pkix.Lint
