import Mathlib.Algebra.Order.Ring.Nat
import Mathlib.Data.List.Basic
import Mathlib.Data.List.Induction
import Pkix.Lib.StdText

/-! Numerals in a base of at most 16: what the source language's standard library reads and writes. -/

namespace Pkix.Numerals

open StdText

/-- The value of a digit or a letter in any base. -/
def digitValue (char : Char) : Option Nat :=
  if 48 ≤ char.toNat ∧ char.toNat ≤ 57 then some (char.toNat - 48)
  else if 97 ≤ char.toNat ∧ char.toNat ≤ 122 then some (char.toNat - 87)
  else if 65 ≤ char.toNat ∧ char.toNat ≤ 90 then some (char.toNat - 55)
  else none

def toDigit (base : Nat) (char : Char) : Option Nat :=
  (digitValue char).filter (fun digit => decide (digit < base))

def readFrom (base : Nat) : (value : Nat) → List Char → Option Nat
  | value, [] => some value
  | value, char :: rest =>
      (toDigit base char).bind (fun digit => readFrom base (base * value + digit) rest)

/-- The number that a text of digits alone stands for. -/
def readDigits (base : Nat) (text : List Char) : Option Nat :=
  if text = [] then none else readFrom base 0 text

/-- Digits behind an optional plus sign, for a number below the limit. -/
def fromStrRadix (base limit : Nat) (text : List Char) : Option Nat :=
  (readDigits base (dropPlus text)).filter (fun value => decide (value < limit))

theorem fromStrRadix_some_iff {base limit number : Nat} {text : List Char} :
    fromStrRadix base limit text = some number ↔
      readDigits base (dropPlus text) = some number ∧ number < limit := by
  rw [fromStrRadix, Option.filter_eq_some_iff, decide_eq_true_eq]

section Read

variable {base value number : Nat} {text : List Char}

theorem readFrom_append (front back : List Char) :
    readFrom base value (front ++ back) =
      (readFrom base value front).bind (fun read => readFrom base read back) := by
  induction front generalizing value with
  | nil => rfl
  | cons char front ih =>
      rw [List.cons_append, readFrom, readFrom, Option.bind_assoc]
      congr 1
      funext digit
      exact ih

/-- Nothing but digits is read. -/
theorem readFrom_digits (read : readFrom base value text = some number) {char : Char}
    (present : char ∈ text) : ∃ digit, toDigit base char = some digit := by
  induction text generalizing value with
  | nil => cases present
  | cons first rest ih =>
      rw [readFrom, Option.bind_eq_some_iff] at read
      rcases read with ⟨digit, isDigit, read⟩
      rcases List.mem_cons.mp present with same | later
      · rw [same]
        exact ⟨digit, isDigit⟩
      · exact ih read later

theorem readDigits_digits (read : readDigits base text = some number) {char : Char}
    (present : char ∈ text) : ∃ digit, toDigit base char = some digit := by
  unfold readDigits at read
  split at read
  · cases read
  · exact readFrom_digits read present

theorem toDigit_lt {char : Char} {digit : Nat} (isDigit : toDigit base char = some digit) :
    digit < base := by
  rw [toDigit, Option.filter_eq_some_iff] at isDigit
  exact of_decide_eq_true isDigit.2

/-- Every digit multiplies the bound by the base. -/
theorem readFrom_lt {bound : Nat} (start : value < bound)
    (read : readFrom base value text = some number) :
    number < text.foldl (fun bound _ => base * bound) bound := by
  induction text generalizing value bound with
  | nil =>
      cases read
      exact start
  | cons char rest ih =>
      rw [readFrom, Option.bind_eq_some_iff] at read
      rcases read with ⟨digit, isDigit, read⟩
      have next : base * value + digit < base * bound :=
        calc
          base * value + digit < base * value + base := Nat.add_lt_add_left (toDigit_lt isDigit) _
          _ = base * (value + 1) := (Nat.mul_succ base value).symm
          _ ≤ base * bound := Nat.mul_le_mul_left base start
      exact ih next read

theorem readDigits_lt (read : readDigits base text = some number) :
    number < text.foldl (fun bound _ => base * bound) 1 := by
  unfold readDigits at read
  split at read
  · cases read
  · exact readFrom_lt Nat.zero_lt_one read

theorem notMem_of_readDigits {char : Char} (other : digitValue char = none)
    (read : readDigits base text = some number) : char ∉ text := by
  intro present
  rcases readDigits_digits read present with ⟨digit, isDigit⟩
  rw [toDigit, other] at isDigit
  cases isDigit

/-- What a sign adds to the digits that are read. -/
theorem readDigits_dropPlus :
    readDigits base (dropPlus text) = some number ↔
      readDigits base text = some number ∨
        ∃ digits, text = '+' :: digits ∧ readDigits base digits = some number := by
  unfold dropPlus
  split
  · rename_i digits
    constructor
    · intro read
      exact .inr ⟨digits, rfl, read⟩
    · intro parts
      rcases parts with read | ⟨_, same, read⟩
      · exact absurd List.mem_cons_self (notMem_of_readDigits (by decide) read)
      · cases same
        exact read
  · rename_i signed
    constructor
    · exact .inl
    · intro parts
      rcases parts with read | ⟨digits, same, _⟩
      · exact read
      · exact absurd same (signed digits)

end Read

section Write

variable {base : Nat}

theorem toDigit_digitChar {digit : Nat} (small : base ≤ 16) (within : digit < base) :
    toDigit base digit.digitChar = some digit := by
  have value : ∀ digit < 16, digitValue digit.digitChar = some digit := by decide
  rw [toDigit, value digit (by omega), Option.filter_some, if_pos (decide_eq_true within)]

/-- By the leading digits: a number is its quotient by the base and one digit more. -/
theorem readFrom_toDigits (large : 1 < base) (small : base ≤ 16) (number : Nat) :
    readFrom base 0 (Nat.toDigits base number) = some number := by
  induction number using Nat.strongRecOn with
  | ind number ih =>
      by_cases single : number < base
      · rw [Nat.toDigits_of_lt_base single, readFrom, toDigit_digitChar small single]
        simp [readFrom]
      · have whole := Nat.div_add_mod number base
        have digit := Nat.mod_lt number (Nat.zero_lt_of_lt large)
        have shorter := Nat.div_lt_self (by omega : 0 < number) large
        rw [Nat.toDigits_of_base_le large (by omega), readFrom_append, ih _ shorter,
          Option.bind_some, readFrom, toDigit_digitChar small digit]
        simp [readFrom, whole]

theorem readDigits_toDigits (large : 1 < base) (small : base ≤ 16) (number : Nat) :
    readDigits base (Nat.toDigits base number) = some number := by
  rw [readDigits, if_neg Nat.toDigits_ne_nil, readFrom_toDigits large small]

/-- Only zero is written with a leading zero. -/
theorem head_toDigits_ne_zero (large : 1 < base) {number : Nat} (positive : 0 < number) :
    (Nat.toDigits base number).head? ≠ some '0' := by
  induction number using Nat.strongRecOn with
  | ind number ih =>
      by_cases single : number < base
      · rw [Nat.toDigits_of_lt_base single, List.head?_cons, ne_eq, Option.some.injEq,
          Nat.digitChar_eq_zero]
        omega
      · have shorter := Nat.div_lt_self positive large
        have left : 0 < number / base := Nat.div_pos (by omega) (by omega)
        rw [Nat.toDigits_of_base_le large (by omega),
          List.head?_append_of_ne_nil _ Nat.toDigits_ne_nil]
        exact ih _ shorter left

end Write

section Padded

variable {width value : Nat}

/-- Decimal, with zeros in front of fewer digits than the width. -/
def zeroPadded (width value : Nat) : List Char :=
  List.replicate (width - (Nat.toDigits 10 value).length) '0' ++ Nat.toDigits 10 value

theorem zeroPadded_one (digit : value < 10) : zeroPadded 1 value = [value.digitChar] := by
  rw [zeroPadded, Nat.toDigits_of_lt_base digit]
  rfl

theorem zeroPadded_succ (positive : 0 < width) (value : Nat) :
    zeroPadded (width + 1) value = zeroPadded width (value / 10) ++ [(value % 10).digitChar] := by
  by_cases digit : value < 10
  · have zeros : List.replicate width '0' = List.replicate (width - 1) '0' ++ ['0'] := by
      rw [← List.replicate_succ', Nat.sub_add_cancel positive]
    rw [zeroPadded, zeroPadded, Nat.toDigits_of_lt_base digit, Nat.div_eq_of_lt digit,
      Nat.mod_eq_of_lt digit, Nat.toDigits_of_lt_base (by decide : 0 < 10)]
    change List.replicate width '0' ++ _ = List.replicate (width - 1) '0' ++ ['0'] ++ _
    rw [zeros]
  · rw [zeroPadded, zeroPadded, Nat.toDigits_of_base_le (by decide) (Nat.not_lt.mp digit),
      List.length_append, List.length_singleton, Nat.add_sub_add_right, List.append_assoc]

theorem readFrom_zeroPadded (width value : Nat) :
    readFrom 10 0 (zeroPadded width value) = some value := by
  have zeros : ∀ count, readFrom 10 0 (List.replicate count '0') = some 0 := by
    intro count
    induction count with
    | zero => rfl
    | succ count ih => exact ih
  rw [zeroPadded, readFrom_append, zeros, Option.bind_some,
    readFrom_toDigits (by decide) (by decide)]

theorem zeroPadded_inj {value' : Nat} (same : zeroPadded width value = zeroPadded width value') :
    value = value' := by
  have read := readFrom_zeroPadded width value
  rw [same, readFrom_zeroPadded, Option.some.injEq] at read
  exact read.symm

theorem length_zeroPadded (positive : 0 < width) (small : value < 10 ^ width) :
    (zeroPadded width value).length = width := by
  induction width generalizing value with
  | zero => exact absurd positive (Nat.lt_irrefl 0)
  | succ width ih =>
      rcases Nat.eq_zero_or_pos width with one | more
      · subst one
        rw [zeroPadded_one small]
        rfl
      · have shorter : value / 10 < 10 ^ width :=
          Nat.div_lt_of_lt_mul (Nat.pow_succ' ▸ small)
        rw [zeroPadded_succ more, List.length_append, ih more shorter, List.length_singleton]

theorem ofDigitChars_zeroPadded (width value : Nat) :
    Nat.ofDigitChars 10 (zeroPadded width value) 0 = value := by
  rw [zeroPadded, Nat.ofDigitChars_append, Nat.ofDigitChars_replicate_zero, Nat.mul_zero,
    Nat.ofDigitChars_ten_toDigits]

theorem digitChar_sub {char : Char} (digit : char.isDigit = true) :
    char.toNat - '0'.toNat < 10 ∧ (char.toNat - '0'.toNat).digitChar = char := by
  rw [Char.isDigit, Bool.and_eq_true, decide_eq_true_eq, decide_eq_true_eq] at digit
  have low : 48 ≤ char.toNat := digit.1
  have high : char.toNat ≤ 57 := digit.2
  have small : char.toNat - '0'.toNat < 10 := by
    change char.toNat - 48 < 10
    omega
  refine ⟨small, Char.toNat_inj.mp ?_⟩
  rw [Nat.toNat_digitChar_of_lt_ten small]
  exact Nat.add_sub_cancel' low

/-- Digits are the padded text of their number. -/
theorem zeroPadded_ofDigitChars {digits : List Char} (some : digits ≠ [])
    (decimal : ∀ char ∈ digits, char.isDigit = true) :
    zeroPadded digits.length (Nat.ofDigitChars 10 digits 0) = digits := by
  induction digits using List.reverseRecOn with
  | nil => exact absurd rfl some
  | append_singleton front last ih =>
      rw [List.forall_mem_append] at decimal
      obtain ⟨small, same⟩ := digitChar_sub (decimal.2 last (List.mem_singleton_self last))
      rw [Nat.ofDigitChars_append, Nat.ofDigitChars_cons, Nat.ofDigitChars_nil, List.length_append,
        List.length_singleton]
      rcases List.eq_nil_or_concat front with none | more
      · subst none
        rw [Nat.ofDigitChars_nil, Nat.mul_zero, Nat.zero_add, List.length_nil,
          zeroPadded_one small, same]
        rfl
      · have nonempty : front ≠ [] := by
          obtain ⟨_, _, split⟩ := more
          rw [split, List.concat_eq_append]
          exact List.concat_ne_nil _ _
        have tens : (10 * Nat.ofDigitChars 10 front 0 + (last.toNat - '0'.toNat)) / 10 =
            Nat.ofDigitChars 10 front 0 := by omega
        have ones : (10 * Nat.ofDigitChars 10 front 0 + (last.toNat - '0'.toNat)) % 10 =
            last.toNat - '0'.toNat := by omega
        rw [zeroPadded_succ (List.length_pos_iff.mpr nonempty), tens, ones, same,
          ih nonempty decimal.1]

theorem digit_of_zeroPadded {char : Char} (present : char ∈ zeroPadded width value) :
    48 ≤ char.toNat ∧ char.toNat ≤ 57 := by
  rcases List.mem_append.mp present with zero | digit
  · rw [List.eq_of_mem_replicate zero]
    decide
  · have isDigit := Nat.isDigit_of_mem_toDigits (by decide) (by decide) digit
    rw [Char.isDigit, Bool.and_eq_true, decide_eq_true_eq, decide_eq_true_eq] at isDigit
    exact isDigit

end Padded

end Pkix.Numerals
