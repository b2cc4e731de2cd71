import Mathlib.Data.Nat.Basic
import Mathlib.Data.Nat.Size
import Mathlib.Tactic.Common
import Mathlib.Tactic.Ring

/-! Unsigned numbers as big-endian octets. Octet strings of one length compare like the
numbers they stand for, and zeros on the left change no number. -/

namespace Pkix.Octets

def bigEndian (octets : List UInt8) : Nat :=
  octets.foldl (fun value octet => value * 256 + octet.toNat) 0

/-- The order of octet strings by their first difference. -/
def lexGt : List UInt8 → List UInt8 → Bool
  | [], _ => false
  | _ :: _, [] => true
  | a :: as, b :: bs => if a = b then lexGt as bs else decide (b < a)

def padLeft (length : Nat) (octets : List UInt8) : List UInt8 :=
  List.replicate (length - octets.length) 0 ++ octets

theorem foldl_bigEndian (octets : List UInt8) (start : Nat) :
    octets.foldl (fun value octet => value * 256 + octet.toNat) start =
      start * 256 ^ octets.length + bigEndian octets := by
  induction octets generalizing start with
  | nil => simp [bigEndian]
  | cons octet rest ih =>
      unfold bigEndian
      rw [List.foldl_cons, List.foldl_cons, ih, ih (0 * 256 + octet.toNat), List.length_cons,
        pow_succ]
      ring

theorem bigEndian_cons (octet : UInt8) (rest : List UInt8) :
    bigEndian (octet :: rest) = octet.toNat * 256 ^ rest.length + bigEndian rest := by
  unfold bigEndian
  rw [List.foldl_cons, foldl_bigEndian, Nat.zero_mul, Nat.zero_add]
  rfl

theorem bigEndian_lt (octets : List UInt8) : bigEndian octets < 256 ^ octets.length := by
  induction octets with
  | nil => simp [bigEndian]
  | cons octet rest ih =>
      have octetSmall : octet.toNat + 1 ≤ 256 := octet.toNat_lt
      calc bigEndian (octet :: rest)
          = octet.toNat * 256 ^ rest.length + bigEndian rest := bigEndian_cons octet rest
        _ < octet.toNat * 256 ^ rest.length + 256 ^ rest.length := Nat.add_lt_add_left ih _
        _ = (octet.toNat + 1) * 256 ^ rest.length := by ring
        _ ≤ 256 * 256 ^ rest.length := Nat.mul_le_mul_right _ octetSmall
        _ = 256 ^ (octet :: rest).length := by rw [List.length_cons, pow_succ, Nat.mul_comm]

/-- The bits of a number: eight for every octet but the first, whose own bits are counted. -/
theorem size_bigEndian {high : UInt8} (positive : high ≠ 0) (rest : List UInt8) :
    Nat.size (bigEndian (high :: rest)) = rest.length * 8 + Nat.size high.toNat := by
  have power : 256 ^ rest.length = 2 ^ (rest.length * 8) := by
    rw [Nat.mul_comm, pow_mul]
    norm_num
  have number : 0 < high.toNat :=
    Nat.pos_of_ne_zero fun zero => positive (UInt8.toNat_inj.mp zero)
  have above : bigEndian (high :: rest) < 2 ^ (rest.length * 8 + Nat.size high.toNat) := by
    have step : high.toNat + 1 ≤ 2 ^ Nat.size high.toNat := Nat.lt_size_self high.toNat
    calc bigEndian (high :: rest)
        = high.toNat * 256 ^ rest.length + bigEndian rest := bigEndian_cons high rest
      _ < high.toNat * 256 ^ rest.length + 256 ^ rest.length :=
          Nat.add_lt_add_left (bigEndian_lt rest) _
      _ = (high.toNat + 1) * 256 ^ rest.length := by ring
      _ ≤ 2 ^ Nat.size high.toNat * 256 ^ rest.length := Nat.mul_le_mul_right _ step
      _ = 2 ^ (rest.length * 8 + Nat.size high.toNat) := by rw [power, pow_add, Nat.mul_comm]
  have below : 2 ^ (rest.length * 8 + (Nat.size high.toNat - 1)) ≤ bigEndian (high :: rest) := by
    have bits : 0 < Nat.size high.toNat := Nat.size_pos.mpr number
    have step : 2 ^ (Nat.size high.toNat - 1) ≤ high.toNat := Nat.lt_size.mp (by omega)
    calc 2 ^ (rest.length * 8 + (Nat.size high.toNat - 1))
        = 2 ^ (Nat.size high.toNat - 1) * 256 ^ rest.length := by rw [power, pow_add, Nat.mul_comm]
      _ ≤ high.toNat * 256 ^ rest.length := Nat.mul_le_mul_right _ step
      _ ≤ high.toNat * 256 ^ rest.length + bigEndian rest := Nat.le_add_right _ _
      _ = bigEndian (high :: rest) := (bigEndian_cons high rest).symm
  have atMost := Nat.size_le.mpr above
  have atLeast := Nat.lt_size.mpr below
  omega

/-- The higher first octet decides. -/
theorem bigEndian_lt_of_head {a b : UInt8} {as bs : List UInt8} (length : as.length = bs.length)
    (higher : b < a) : bigEndian (b :: bs) < bigEndian (a :: as) := by
  have step : b.toNat + 1 ≤ a.toNat := UInt8.lt_iff_toNat_lt.mp higher
  calc bigEndian (b :: bs)
      = b.toNat * 256 ^ bs.length + bigEndian bs := bigEndian_cons b bs
    _ < b.toNat * 256 ^ bs.length + 256 ^ bs.length := Nat.add_lt_add_left (bigEndian_lt bs) _
    _ = (b.toNat + 1) * 256 ^ bs.length := by ring
    _ ≤ a.toNat * 256 ^ as.length := by
        rw [length]
        exact Nat.mul_le_mul_right _ step
    _ ≤ a.toNat * 256 ^ as.length + bigEndian as := Nat.le_add_right _ _
    _ = bigEndian (a :: as) := (bigEndian_cons a as).symm

theorem compare_bigEndian {as bs : List UInt8} (length : as.length = bs.length) :
    compare as bs = compare (bigEndian as) (bigEndian bs) := by
  induction as generalizing bs with
  | nil =>
      cases bs with
      | nil => rfl
      | cons b bs => cases length
  | cons a as ih =>
      cases bs with
      | nil => cases length
      | cons b bs =>
          have tails : as.length = bs.length := Nat.succ.inj length
          rw [List.compare_cons_cons]
          rcases Std.lt_trichotomy a b with lower | same | higher
          · rw [Std.compare_eq_lt.mpr lower]
            exact (Nat.compare_eq_lt.mpr (bigEndian_lt_of_head tails.symm lower)).symm
          · rw [same, Std.compare_self, ih tails, bigEndian_cons, bigEndian_cons, tails]
            simp [Nat.compare_eq_ite_lt]
          · rw [Std.compare_eq_gt.mpr higher]
            exact (Nat.compare_eq_gt.mpr (bigEndian_lt_of_head tails higher)).symm

theorem bigEndian_dropZeros (octets : List UInt8) :
    bigEndian (octets.dropWhile (· == 0)) = bigEndian octets := by
  induction octets with
  | nil => rfl
  | cons octet rest ih =>
      rw [List.dropWhile_cons]
      split
      · rename_i isZero
        have zero : octet.toNat = 0 := by simp [eq_of_beq isZero]
        rw [ih, bigEndian_cons, zero, Nat.zero_mul, Nat.zero_add]
      · rfl

theorem head?_dropZeros (octets : List UInt8) : (octets.dropWhile (· == 0)).head? ≠ some 0 := by
  intro zero
  have first := List.head?_dropWhile_not (· == 0) octets
  simp [zero] at first

theorem le_bigEndian {high : UInt8} (positive : high ≠ 0) (rest : List UInt8) :
    256 ^ rest.length ≤ bigEndian (high :: rest) := by
  have number : 0 < high.toNat :=
    Nat.pos_of_ne_zero fun zero => positive (UInt8.toNat_inj.mp zero)
  calc 256 ^ rest.length
      ≤ high.toNat * 256 ^ rest.length := Nat.le_mul_of_pos_left _ number
    _ ≤ high.toNat * 256 ^ rest.length + bigEndian rest := Nat.le_add_right _ _
    _ = bigEndian (high :: rest) := (bigEndian_cons high rest).symm

/-- Without zeros in front, more octets stand for a larger number. -/
theorem bigEndian_lt_of_length {as bs : List UInt8} (numeral : bs.head? ≠ some 0)
    (shorter : as.length < bs.length) : bigEndian as < bigEndian bs := by
  cases bs with
  | nil => cases shorter
  | cons high rest =>
      have positive : high ≠ 0 := fun zero => numeral (by rw [zero]; rfl)
      calc bigEndian as
          < 256 ^ as.length := bigEndian_lt as
        _ ≤ 256 ^ rest.length := Nat.pow_le_pow_right (by decide) (Nat.le_of_lt_succ shorter)
        _ ≤ bigEndian (high :: rest) := le_bigEndian positive rest

/-- The lengths decide, and among equal lengths the first difference. -/
theorem shortlex_bigEndian {as bs : List UInt8} (numeral : as.head? ≠ some 0)
    (numeral' : bs.head? ≠ some 0) :
    (compare as.length bs.length).then (compare as bs) = compare (bigEndian as) (bigEndian bs) := by
  rcases Nat.lt_trichotomy as.length bs.length with shorter | same | longer
  · rw [Nat.compare_eq_lt.mpr shorter,
      Nat.compare_eq_lt.mpr (bigEndian_lt_of_length numeral' shorter)]
    rfl
  · rw [Nat.compare_eq_eq.mpr same, compare_bigEndian same]
    rfl
  · rw [Nat.compare_eq_gt.mpr longer, Nat.compare_eq_gt.mpr (bigEndian_lt_of_length numeral longer)]
    rfl

/-- The low `width` base-256 digits, high first. -/
def toBigEndian : (width value : Nat) → List UInt8
  | 0, _ => []
  | width + 1, value => UInt8.ofNat (value / 256 ^ width) :: toBigEndian width value

@[simp] theorem length_toBigEndian (width value : Nat) :
    (toBigEndian width value).length = width := by
  induction width with
  | zero => rfl
  | succ width ih => rw [toBigEndian, List.length_cons, ih]

theorem toBigEndian_add_mul (width value high : Nat) :
    toBigEndian width (high * 256 ^ width + value) = toBigEndian width value := by
  induction width generalizing high with
  | zero => rfl
  | succ width ih =>
      have split : high * 256 ^ (width + 1) = high * 256 * 256 ^ width := by ring
      have digit : (high * 256 * 256 ^ width + value) / 256 ^ width =
          high * 256 + value / 256 ^ width := by
        rw [Nat.add_comm, Nat.add_mul_div_right _ _ (Nat.pow_pos (by decide)), Nat.add_comm]
      rw [toBigEndian, toBigEndian, split, digit, ih]
      congr 1
      apply UInt8.toNat_inj.mp
      simp

theorem toBigEndian_bigEndian (octets : List UInt8) :
    toBigEndian octets.length (bigEndian octets) = octets := by
  induction octets with
  | nil => rfl
  | cons octet rest ih =>
      have digit : bigEndian (octet :: rest) / 256 ^ rest.length = octet.toNat := by
        rw [bigEndian_cons, Nat.add_comm, Nat.add_mul_div_right _ _ (Nat.pow_pos (by decide)),
          Nat.div_eq_of_lt (bigEndian_lt rest), Nat.zero_add]
      rw [List.length_cons, toBigEndian, digit, bigEndian_cons, toBigEndian_add_mul, ih,
        UInt8.ofNat_toNat]

theorem bigEndian_toBigEndian {width value : Nat} (fits : value < 256 ^ width) :
    bigEndian (toBigEndian width value) = value := by
  induction width generalizing value with
  | zero =>
      rw [pow_zero] at fits
      exact (Nat.lt_one_iff.mp fits).symm
  | succ width ih =>
      have positive : 0 < 256 ^ width := Nat.pow_pos (by decide)
      have high : value / 256 ^ width < 256 := by
        rw [Nat.div_lt_iff_lt_mul positive, Nat.mul_comm, ← pow_succ]
        exact fits
      have low : toBigEndian width value = toBigEndian width (value % 256 ^ width) := by
        conv_lhs => rw [← Nat.div_add_mod value (256 ^ width), Nat.mul_comm]
        exact toBigEndian_add_mul ..
      rw [toBigEndian, bigEndian_cons, low, ih (Nat.mod_lt _ positive), length_toBigEndian,
        UInt8.toNat_ofNat_of_lt' high]
      exact Nat.div_add_mod' ..

/-- The low `width` base-256 digits, low first. -/
def toLittleEndian (width value : Nat) : List UInt8 := (toBigEndian width value).reverse

@[simp] theorem length_toLittleEndian (width value : Nat) :
    (toLittleEndian width value).length = width := by
  rw [toLittleEndian, List.length_reverse, length_toBigEndian]

theorem toLittleEndian_inj {width value value' : Nat} (fits : value < 256 ^ width)
    (fits' : value' < 256 ^ width)
    (same : toLittleEndian width value = toLittleEndian width value') : value = value' := by
  have octets := List.reverse_inj.mp same
  rw [← bigEndian_toBigEndian fits, octets, bigEndian_toBigEndian fits']

end Pkix.Octets
