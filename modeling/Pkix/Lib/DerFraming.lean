import Pkix.Lib.Framing

/-! The framing of DER: definite lengths in their shortest form, values behind a tag, and
nonnegative INTEGERs. -/

namespace Pkix.DerFraming

open Framing Octets

variable {ε : Type} (malformed : ε)

/-- The octets of a length that does not fit the short form, at most four. -/
def lengthWidth (length : Nat) : Nat :=
  if length < 256 then 1
  else if length < 65536 then 2
  else if length < 16777216 then 3
  else 4

def writeLength (length : Nat) : List UInt8 :=
  if length < 128 then toBigEndian 1 length
  else toBigEndian 1 (128 + lengthWidth length) ++ toBigEndian (lengthWidth length) length

def lengthLimit : Nat := 4294967296

def readLength : Reader UInt8 ε Nat := do
  let first ← readNumber malformed 1
  if first < 128 then return first
  else
    let length ← readNumber malformed (first - 128)
    if 128 ≤ length ∧ first = 128 + lengthWidth length then return length else throw malformed

def writeTlv (tag : UInt8) (content : List UInt8) : List UInt8 :=
  tag :: (writeLength content.length ++ content)

/-- The tag and the content of whatever value comes next. -/
def readAny : Reader UInt8 ε (UInt8 × List UInt8) := do
  let tag ← readNumber malformed 1
  let length ← readLength malformed
  let content ← readBytes malformed length
  return (UInt8.ofNat tag, content)

def readTlv (tag : UInt8) : Reader UInt8 ε (List UInt8) := do
  let value ← readAny malformed
  if value.1 = tag then return value.2 else throw malformed

theorem lengthWidth_bound {length : Nat} (fits : length < lengthLimit) :
    length < 256 ^ lengthWidth length := by
  unfold lengthLimit at fits
  unfold lengthWidth
  split
  · omega
  · split
    · omega
    · split <;> omega

theorem lengthWidth_between (length : Nat) : 1 ≤ lengthWidth length ∧ lengthWidth length ≤ 4 := by
  unfold lengthWidth
  repeat' split
  all_goals omega

theorem readLength_exact :
    Exact (readLength malformed) writeLength (· < lengthLimit) := by
  intro input length rest
  simp only [readLength, read_bind_ok, readNumber_exact malformed 1 input]
  have small : length < 128 → length < lengthLimit := by
    unfold lengthLimit
    omega
  constructor
  · intro read
    obtain ⟨first, middle, ⟨octet, front⟩, read⟩ := read
    split at read
    · rename_i short
      obtain ⟨same, left⟩ := read_pure_ok.mp read
      subst same left
      rw [writeLength, if_pos short]
      exact ⟨small short, front⟩
    · obtain ⟨value, later, number, read⟩ := read_bind_ok.mp read
      obtain ⟨fits, behind⟩ := (readNumber_exact malformed _ _ _ _).mp number
      split at read
      · rename_i minimal
        obtain ⟨same, left⟩ := read_pure_ok.mp read
        subst same left
        have width : first - 128 = lengthWidth value := by omega
        rw [width] at behind
        rw [writeLength, if_neg (by omega), ← minimal.2, List.append_assoc, ← behind]
        refine ⟨?_, front⟩
        rw [width] at fits
        calc value < 256 ^ lengthWidth value := fits
          _ ≤ 256 ^ 4 := Nat.pow_le_pow_right (by decide) (lengthWidth_between value).2
          _ = lengthLimit := by decide
      · exact absurd read (by simp [read_throw_ok])
  · intro written
    obtain ⟨fits, together⟩ := written
    unfold writeLength at together
    split at together
    · rename_i short
      refine ⟨length, rest, ⟨by omega, together⟩, ?_⟩
      rw [if_pos short]
      exact read_pure_ok.mpr ⟨rfl, rfl⟩
    · rename_i long
      have narrow := (lengthWidth_between length).2
      rw [List.append_assoc] at together
      refine ⟨128 + lengthWidth length, _, ⟨by omega, together⟩, ?_⟩
      rw [if_neg (by omega), Nat.add_sub_cancel_left]
      refine read_bind_ok.mpr ⟨length, rest, ?_, ?_⟩
      · exact (readNumber_exact malformed _ _ _ _).mpr ⟨lengthWidth_bound fits, rfl⟩
      · rw [if_pos ⟨Nat.not_lt.mp long, rfl⟩]
        exact read_pure_ok.mpr ⟨rfl, rfl⟩

theorem readAny_exact :
    Exact (readAny malformed) (fun value => writeTlv value.1 value.2)
      (·.2.length < lengthLimit) := by
  intro input value rest
  simp only [readAny, read_bind_ok, read_pure_ok, readNumber_exact malformed 1 input]
  constructor
  · intro read
    obtain ⟨tag, middle, ⟨octet, front⟩, length, later, counted, content, left, taken, same, done⟩ :=
      read
    obtain ⟨fits, between⟩ := (readLength_exact malformed _ _ _).mp counted
    obtain ⟨exactly, behind⟩ := (readBytes_exact malformed _ _ _ _).mp taken
    rw [id] at behind
    subst same done exactly
    refine ⟨fits, ?_⟩
    have tagOctet : toBigEndian 1 tag = [UInt8.ofNat tag] := by simp [toBigEndian]
    rw [front, between, behind, tagOctet, writeTlv]
    simp
  · intro written
    obtain ⟨fits, together⟩ := written
    have tagOctet : toBigEndian 1 value.1.toNat = [value.1] := by simp [toBigEndian]
    refine ⟨value.1.toNat, writeLength value.2.length ++ (value.2 ++ rest),
      ⟨value.1.toNat_lt, ?_⟩, value.2.length, value.2 ++ rest, ?_, value.2, rest, ?_, ?_, rfl⟩
    · rw [together, tagOctet, writeTlv]
      simp
    · exact (readLength_exact malformed _ _ _).mpr ⟨fits, rfl⟩
    · exact (readBytes_exact malformed _ _ _ _).mpr ⟨rfl, rfl⟩
    · rw [UInt8.ofNat_toNat]

theorem readTlv_exact (tag : UInt8) :
    Exact (readTlv malformed tag) (writeTlv tag) (·.length < lengthLimit) := by
  intro input content rest
  simp only [readTlv, read_bind_ok, readAny_exact malformed input]
  constructor
  · intro read
    obtain ⟨value, middle, ⟨fits, front⟩, read⟩ := read
    split at read
    · rename_i tagged
      obtain ⟨same, left⟩ := read_pure_ok.mp read
      subst same left tagged
      exact ⟨fits, front⟩
    · exact absurd read (by simp [read_throw_ok])
  · intro written
    refine ⟨(tag, content), rest, written, ?_⟩
    rw [if_pos rfl]
    exact read_pure_ok.mpr ⟨rfl, rfl⟩

section Integers

/-- The octets of a number without zeros in front, one octet for the number zero. -/
def IsMagnitude (octets : List UInt8) : Prop :=
  octets = [0] ∨ ∃ first rest, octets = first :: rest ∧ first ≠ 0

/-- A zero octet in front keeps the sign bit clear. -/
def signed (magnitude : List UInt8) : List UInt8 :=
  match magnitude with
  | [] => []
  | first :: rest => if 128 ≤ first then 0 :: first :: rest else first :: rest

/-- The octets without the sign octet, unless the number is negative or has an octet too many. -/
def unsigned : List UInt8 → Option (List UInt8)
  | [] => none
  | [first] => if first < 128 then some [first] else none
  | first :: second :: rest =>
      if first = 0 then if second < 128 then none else some (second :: rest)
      else if first < 128 then some (first :: second :: rest)
      else none

def integerTag : UInt8 := 0x02

def writeUint (magnitude : List UInt8) : List UInt8 := writeTlv integerTag (signed magnitude)

def readUint : Reader UInt8 ε (List UInt8) := do
  let content ← readTlv malformed integerTag
  match unsigned content with
  | none => throw malformed
  | some magnitude => return magnitude

theorem unsigned_iff (content magnitude : List UInt8) :
    unsigned content = some magnitude ↔ IsMagnitude magnitude ∧ content = signed magnitude := by
  constructor
  · intro decoded
    cases content with
    | nil => cases decoded
    | cons first tail =>
        cases tail with
        | nil =>
            simp only [unsigned, Option.ite_none_right_eq_some, Option.some.injEq] at decoded
            obtain ⟨positive, same⟩ := decoded
            subst same
            refine ⟨?_, by simp [signed, UInt8.not_le.mpr positive]⟩
            by_cases zero : first = 0
            · exact .inl (by rw [zero])
            · exact .inr ⟨first, [], rfl, zero⟩
        | cons second rest =>
            rw [unsigned] at decoded
            split at decoded
            · rename_i zero
              split at decoded
              · cases decoded
              · rename_i high
                cases decoded
                have notZero : second ≠ 0 := by
                  intro same
                  rw [same] at high
                  exact high (by decide)
                exact ⟨.inr ⟨second, rest, rfl, notZero⟩,
                  by simp [signed, zero, UInt8.not_lt.mp high]⟩
            · rename_i notZero
              split at decoded
              · rename_i positive
                cases decoded
                exact ⟨.inr ⟨first, second :: rest, rfl, notZero⟩,
                  by simp [signed, UInt8.not_le.mpr positive]⟩
              · cases decoded
  · intro parts
    obtain ⟨number, same⟩ := parts
    subst same
    rcases number with zero | ⟨first, rest, shape, notZero⟩
    · rw [zero]
      decide
    · rw [shape, signed]
      split
      · rename_i high
        simp [unsigned, UInt8.not_lt.mpr high]
      · rename_i positive
        cases rest with
        | nil => simp [unsigned, UInt8.not_le.mp positive]
        | cons second rest => simp [unsigned, notZero, UInt8.not_le.mp positive]

theorem readUint_exact :
    Exact (readUint malformed) writeUint
      (fun magnitude => IsMagnitude magnitude ∧ (signed magnitude).length < lengthLimit) := by
  intro input magnitude rest
  simp only [readUint, read_bind_ok, readTlv_exact malformed integerTag input]
  constructor
  · intro read
    obtain ⟨content, middle, ⟨fits, front⟩, read⟩ := read
    cases decoded : unsigned content with
    | none => simp [decoded, read_throw_ok] at read
    | some value =>
        rw [decoded] at read
        obtain ⟨same, left⟩ := read_pure_ok.mp read
        subst same left
        obtain ⟨number, content⟩ := (unsigned_iff _ _).mp decoded
        rw [content] at fits front
        exact ⟨⟨number, fits⟩, front⟩
  · intro written
    obtain ⟨⟨number, fits⟩, together⟩ := written
    have decoded := (unsigned_iff (signed magnitude) magnitude).mpr ⟨number, rfl⟩
    refine ⟨signed magnitude, rest, ⟨fits, together⟩, ?_⟩
    rw [decoded]
    exact read_pure_ok.mpr ⟨rfl, rfl⟩

end Integers

end Pkix.DerFraming
