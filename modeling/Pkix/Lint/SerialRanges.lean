import Mathlib.Order.RelClasses
import Pkix.Lib.Octets
import Pkix.Lint.OscalRoundTrip
import Pkix.Path.ConcreteCodec

/-! Serial numbers, with any zeros in front, compare like the numbers they stand for, so that a
serial range covers what lies between its bounds. -/

namespace Pkix.Lint

open Pkix.Path StdText Octets

section Comparison

@[simp] theorem bigEndian_stripLeadingZeros (bytes : Bytes) :
    bigEndian (stripLeadingZeros bytes) = bigEndian bytes := bigEndian_dropZeros bytes

/-- The two stripped strings have no zero in front, so their lengths may be compared first. -/
theorem serialCmp_eq (a b : Bytes) : serialCmp a b = compare (bigEndian a) (bigEndian b) := by
  have stripped := shortlex_bigEndian (head?_dropZeros a) (head?_dropZeros b)
  calc serialCmp a b
      = compare (bigEndian (stripLeadingZeros a)) (bigEndian (stripLeadingZeros b)) := stripped
    _ = compare (bigEndian a) (bigEndian b) := by simp only [bigEndian_stripLeadingZeros]

@[simp] theorem serialCmp_isLE_iff {a b : Bytes} :
    (serialCmp a b).isLE = true ↔ bigEndian a ≤ bigEndian b := by
  rw [serialCmp_eq, Nat.isLE_compare]

@[simp] theorem serialCmp_isGE_iff {a b : Bytes} :
    (serialCmp a b).isGE = true ↔ bigEndian b ≤ bigEndian a := by
  rw [serialCmp_eq, Nat.isGE_compare]

theorem serialCmp_eq_eq_iff {a b : Bytes} : serialCmp a b = .eq ↔ bigEndian a = bigEndian b := by
  rw [serialCmp_eq, Nat.compare_eq_eq]

def SerialLe (a b : Bytes) : Prop := (serialCmp a b).isLE = true

theorem serialLe_eq : SerialLe = Order.Preimage bigEndian (· ≤ ·) := by
  funext a b
  exact propext serialCmp_isLE_iff

instance : IsPreorder Bytes SerialLe := by
  rw [serialLe_eq]
  infer_instance

instance : Std.Total SerialLe := by
  rw [serialLe_eq]
  infer_instance

end Comparison

section Ranges

variable {codec : NameCodec} {tables : UnicodeTables} {scope : DeviationScope} {cert : Certificate}

/-- The scope has both bounds, and the serial number lies between them. -/
def DeviationScope.HoldsSerial (scope : DeviationScope) (serial : Bytes) : Prop :=
  ∃ start last, scope.getBytes propSerialStart = some start ∧
    scope.getBytes propSerialEnd = some last ∧
    bigEndian start ≤ bigEndian serial ∧ bigEndian serial ≤ bigEndian last

theorem matchesCert_serialRange_iff (kind : scope.kind = scopeKindSerialRange) :
    scope.matchesCert codec tables cert = true ↔
      scope.issuerMatches codec cert = true ∧
        scope.HoldsSerial cert.tbsCertificate.serialNumber := by
  unfold DeviationScope.matchesCert DeviationScope.HoldsSerial
  rw [kind, if_neg (by decide), if_neg (by decide), if_neg (by decide), if_pos rfl]
  cases scope.getBytes propSerialStart with
  | none => simp
  | some start =>
      cases scope.getBytes propSerialEnd with
      | none => simp
      | some last => simp [and_assoc]

/-- A serial range holds the serial numbers between its bounds as numbers, and serial numbers are
compared by a total preorder that takes two for equal when they stand for the same number. -/
theorem serialRange_numeric (codec : NameCodec) (tables : UnicodeTables) (scope : DeviationScope)
    (kind : scope.kind = scopeKindSerialRange) :
    (∀ cert : Certificate, scope.matchesCert codec tables cert = true ↔
      scope.issuerMatches codec cert = true ∧
        scope.HoldsSerial cert.tbsCertificate.serialNumber) ∧
    (∀ a b : Bytes, serialCmp a b = compare (bigEndian a) (bigEndian b)) ∧
    IsPreorder Bytes SerialLe ∧ Std.Total SerialLe ∧
    ∀ a b : Bytes, serialCmp a b = .eq ↔ bigEndian a = bigEndian b :=
  ⟨fun _ => matchesCert_serialRange_iff kind, serialCmp_eq, inferInstance, inferInstance,
    fun _ _ => serialCmp_eq_eq_iff⟩

end Ranges

namespace Concrete

/-- A certificate of the issuer with the empty name. -/
def numbered (serial : Bytes) : Certificate :=
  { Path.Concrete.issue 0 [] [] [] [] [] with tbsCertificate.serialNumber := serial }

/-- The serial number 255 in three octets, between 128 in two octets and 256. -/
theorem paddedSerial_held :
    (DeviationScope.serialRange [0x30, 0x00] [0x00, 0x80] [0x01, 0x00]).matchesCert nameCodec
      asciiTables (numbered [0x00, 0x00, 0xff]) = true := by
  have numeric := serialRange_numeric nameCodec asciiTables
    (.serialRange [0x30, 0x00] [0x00, 0x80] [0x01, 0x00]) rfl
  apply (numeric.1 _).mpr
  exact ⟨by decide, [0x00, 0x80], [0x01, 0x00], by decide, by decide, by decide, by decide⟩

end Concrete

end Pkix.Lint
