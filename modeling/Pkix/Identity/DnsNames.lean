import Pkix.Identity.Mailbox
import Pkix.Lib.StdText
import Pkix.Lib.Walk

/-! What the normalization of a DNS name lets through: valid labels between single dots. -/

namespace Pkix.Identity

open Splitting StdText Walk

section Lowercase

variable {char mark : Char} {text : Text}

/-- A character that is no letter. -/
def Unlettered (mark : Char) : Prop :=
  ¬ (65 ≤ mark.toNat ∧ mark.toNat ≤ 90) ∧ ¬ (97 ≤ mark.toNat ∧ mark.toNat ≤ 122)

instance (mark : Char) : Decidable (Unlettered mark) := inferInstanceAs (Decidable (_ ∧ _))

theorem toLower_eq_iff (unlettered : Unlettered mark) : char.toLower = mark ↔ char = mark := by
  rcases toLower_cases char with ⟨low, high, shifted⟩ | ⟨_, same⟩
  · constructor
    · intro lowered
      rw [lowered] at shifted
      exact absurd ⟨by omega, by omega⟩ unlettered.2
    · intro same
      rw [same] at low high
      exact absurd ⟨low, high⟩ unlettered.1
  · rw [same]

theorem mem_lowercase_iff (unlettered : Unlettered mark) :
    mark ∈ toAsciiLowercase text ↔ mark ∈ text := by
  simp [toAsciiLowercase, toLower_eq_iff unlettered]

theorem toLower_toLower (char : Char) : char.toLower.toLower = char.toLower := by
  rcases toLower_cases char with ⟨low, high, shifted⟩ | ⟨_, same⟩
  · rcases toLower_cases char.toLower with ⟨_, high', _⟩ | ⟨_, again⟩
    · omega
    · exact again
  · rw [same, same]

theorem lowercase_lowercase (text : Text) :
    toAsciiLowercase (toAsciiLowercase text) = toAsciiLowercase text := by
  simp only [toAsciiLowercase, List.map_map, Function.comp_def, toLower_toLower]

theorem utf8Size_toLower (char : Char) : char.toLower.utf8Size = char.utf8Size := by
  rcases toLower_cases char with ⟨low, high, shifted⟩ | ⟨_, same⟩
  · have small : char.val ≤ 127 := by
      rw [UInt32.le_iff_toNat_le]
      exact (Nat.le_trans high (by decide))
    have smallLower : char.toLower.val ≤ 127 := by
      rw [UInt32.le_iff_toNat_le]
      change char.toLower.toNat ≤ 127
      omega
    rw [Char.utf8Size_eq_one_iff.mpr small, Char.utf8Size_eq_one_iff.mpr smallLower]
  · rw [same]

theorem utf8ByteSize_lowercase (text : Text) :
    (String.ofList (toAsciiLowercase text)).utf8ByteSize = (String.ofList text).utf8ByteSize := by
  induction text with
  | nil => rfl
  | cons char rest ih =>
      have cons : toAsciiLowercase (char :: rest) = char.toLower :: toAsciiLowercase rest := rfl
      rw [cons, String.ofList_cons, String.ofList_cons, String.utf8ByteSize_append,
        String.utf8ByteSize_append, String.utf8ByteSize_singleton, String.utf8ByteSize_singleton,
        utf8Size_toLower, ih]

theorem labelChar_iff : labelChar char = true ↔
    (65 ≤ char.toNat ∧ char.toNat ≤ 90) ∨ (97 ≤ char.toNat ∧ char.toNat ≤ 122) ∨
      (48 ≤ char.toNat ∧ char.toNat ≤ 57) ∨ char = '-' ∨ char = '_' := by
  have shape : labelChar char = (((decide ('A'.val ≤ char.val ∧ char.val ≤ 'Z'.val) ||
      (decide ('a'.val ≤ char.val) && decide (char.val ≤ 'z'.val))) ||
      (decide ('0'.val ≤ char.val) && decide (char.val ≤ '9'.val))) || char == '-' ||
      char == '_') := rfl
  simp only [shape, Bool.or_eq_true, Bool.and_eq_true, decide_eq_true_eq, beq_iff_eq,
    UInt32.le_iff_toNat_le]
  change ((((65 ≤ char.toNat ∧ char.toNat ≤ 90) ∨ (97 ≤ char.toNat ∧ char.toNat ≤ 122)) ∨
    (48 ≤ char.toNat ∧ char.toNat ≤ 57)) ∨ char = '-') ∨ char = '_' ↔ _
  simp only [or_assoc]

theorem labelChar_toLower (valid : labelChar char = true) : labelChar char.toLower = true := by
  rcases toLower_cases char with ⟨low, high, shifted⟩ | ⟨_, same⟩
  · exact labelChar_iff.mpr (.inr (.inl ⟨by omega, by omega⟩))
  · rwa [same]

theorem labelChar_ascii (valid : labelChar char = true) : char.toNat < 128 := by
  rcases labelChar_iff.mp valid with upper | lower | digit | same | same
  · omega
  · omega
  · omega
  · rw [same]
    decide
  · rw [same]
    decide

end Lowercase

section Labels

variable {label name : Text}

theorem validateAsciiLabel_iff :
    validateAsciiLabel label = true ↔ label ≠ [] ∧ label.length ≤ dnsLabelMaxLen ∧
      label.head? ≠ some '-' ∧ label.getLast? ≠ some '-' ∧ ∀ char ∈ label, labelChar char = true := by
  simp [validateAsciiLabel, and_assoc]

theorem validateAsciiLabel_lowercase (valid : validateAsciiLabel label = true) :
    validateAsciiLabel (toAsciiLowercase label) = true := by
  rcases validateAsciiLabel_iff.mp valid with ⟨filled, short, first, last, chars⟩
  have hyphen : ∀ char : Char, char.toLower = '-' ↔ char = '-' :=
    fun char => toLower_eq_iff (by decide)
  apply validateAsciiLabel_iff.mpr
  refine ⟨?_, ?_, ?_, ?_, ?_⟩
  · simpa [toAsciiLowercase] using filled
  · simpa [toAsciiLowercase] using short
  · simpa [toAsciiLowercase, List.head?_map, hyphen] using first
  · simpa [toAsciiLowercase, List.getLast?_map, hyphen] using last
  · intro char present
    rcases List.mem_map.mp present with ⟨upper, inside, lowered⟩
    rw [← lowered]
    exact labelChar_toLower (chars upper inside)

/-- On the rest of the name, with the label read so far at its head. -/
theorem validateLabels_iff {rest : Text} (plain : '.' ∉ label) :
    validateLabels label rest = true ↔
      ∀ part ∈ (label ++ rest).splitOn '.', validateAsciiLabel part = true := by
  induction rest generalizing label with
  | nil => rw [validateLabels, List.append_nil, List.splitOn_eq_singleton plain, List.forall_mem_singleton]
  | cons char rest ih =>
      rw [validateLabels]
      split
      · rename_i period
        rw [period, List.splitOn_append_cons_self_of_not_mem plain, List.forall_mem_cons,
          Bool.and_eq_true, ih List.not_mem_nil, List.nil_append]
      · rename_i other
        have longer : '.' ∉ label ++ [char] := by
          simp [plain, Ne.symm other]
        rw [ih longer, List.append_assoc, List.singleton_append]

theorem validateAsciiDns_ok_iff :
    validateAsciiDns name = .ok () ↔ (String.ofList name).utf8ByteSize ≤ dnsNameMaxLen ∧
      ∀ part ∈ name.splitOn '.', validateAsciiLabel part = true := by
  have labels : validateLabels [] name = true ↔
      ∀ part ∈ name.splitOn '.', validateAsciiLabel part = true :=
    validateLabels_iff List.not_mem_nil
  rw [← labels]
  unfold validateAsciiDns
  split
  · rename_i long
    simp [Nat.not_le.mpr long]
  · rename_i short
    simp [Nat.not_lt.mp short]

theorem validateAsciiDns_lowercase (valid : validateAsciiDns name = .ok ()) :
    validateAsciiDns (toAsciiLowercase name) = .ok () := by
  rcases validateAsciiDns_ok_iff.mp valid with ⟨short, labels⟩
  apply validateAsciiDns_ok_iff.mpr
  constructor
  · rw [utf8ByteSize_lowercase]
    exact short
  · unfold toAsciiLowercase
    rw [splitOn_map (fun char => toLower_eq_iff (by decide))]
    intro part listed
    rcases List.mem_map.mp listed with ⟨upper, inside, lowered⟩
    rw [← lowered]
    exact validateAsciiLabel_lowercase (labels upper inside)

/-- A validated name is made of label characters and dots. -/
theorem char_of_valid {char : Char} (valid : validateAsciiDns name = .ok ()) (present : char ∈ name) :
    char = '.' ∨ labelChar char = true := by
  rcases @mem_splitOn_of_mem Char _ '.' char name present with period | ⟨part, listed, inside⟩
  · exact .inl period
  · have label := (validateAsciiDns_ok_iff.mp valid).2 part listed
    exact .inr ((validateAsciiLabel_iff.mp label).2.2.2.2 char inside)

theorem notMem_of_valid {char : Char} (valid : validateAsciiDns name = .ok ())
    (other : labelChar char = false) (notPeriod : char ≠ '.') : char ∉ name := by
  intro present
  rcases char_of_valid valid present with period | inLabel
  · exact notPeriod period
  · rw [other] at inLabel
    cases inLabel

theorem isAscii_iff {text : Text} : isAscii text = true ↔ ∀ char ∈ text, char.toNat < 128 := by
  simp only [isAscii, List.all_eq_true, decide_eq_true_eq]

theorem isAscii_of_valid (valid : validateAsciiDns name = .ok ()) : isAscii name = true := by
  rw [isAscii_iff]
  intro char present
  rcases char_of_valid valid present with period | inLabel
  · rw [period]
    decide
  · exact labelChar_ascii inLabel

theorem no_empty_label (valid : validateAsciiDns name = .ok ()) : [] ∉ name.splitOn '.' := by
  intro listed
  have label := (validateAsciiDns_ok_iff.mp valid).2 [] listed
  exact (validateAsciiLabel_iff.mp label).1 rfl

theorem ne_nil_of_valid (valid : validateAsciiDns name = .ok ()) : name ≠ [] := by
  intro empty
  have labels := no_empty_label valid
  rw [empty] at labels
  exact labels List.mem_cons_self

theorem getLast?_of_valid (valid : validateAsciiDns name = .ok ()) : name.getLast? ≠ some '.' := by
  intro last
  rcases List.getLast?_eq_some_iff.mp last with ⟨front, joined⟩
  have labels := no_empty_label valid
  rw [joined, List.splitOn_append_cons_self, List.mem_append] at labels
  exact labels (.inr List.mem_cons_self)

theorem stripTrailingDot_of_valid (valid : validateAsciiDns name = .ok ()) :
    stripTrailingDot name = name := by
  rw [stripTrailingDot, if_neg (getLast?_of_valid valid)]

end Labels

section Normalize

variable {domainToAscii : Text → Option Text} {name domain : Text}

theorem normalizeDnsName_ok_iff :
    normalizeDnsName domainToAscii name = .ok domain ↔
      '*' ∉ name ∧ stripTrailingDot name ≠ [] ∧
        ((isAscii (stripTrailingDot name) = true ∧
            validateAsciiDns (stripTrailingDot name) = .ok () ∧
            toAsciiLowercase (stripTrailingDot name) = domain) ∨
          (isAscii (stripTrailingDot name) = false ∧
            domainToAscii (stripTrailingDot name) = some domain ∧
            validateAsciiDns domain = .ok ())) := by
  unfold normalizeDnsName
  by_cases empty : name = []
  · rw [empty]
    simp [stripTrailingDot]
  · by_cases wild : '*' ∈ name
    · simp [wild, empty]
    · by_cases bare : stripTrailingDot name = []
      · simp [wild, bare, empty]
      · cases ascii : isAscii (stripTrailingDot name) with
        | true => simp [wild, bare, empty, then_ok]
        | false =>
            cases converted : domainToAscii (stripTrailingDot name) with
            | none => simp [wild, bare, empty]
            | some converted_ =>
                simp only [wild, bare, empty, then_ok, List.isEmpty_iff, List.contains_eq_mem,
                  decide_false, if_false, Except.ok.injEq, not_false_eq_true, ne_eq, true_and,
                  Bool.false_eq_true, false_and, false_or, Option.some.injEq]
                constructor
                · intro ⟨valid, same⟩
                  exact ⟨same, same ▸ valid⟩
                · intro ⟨same, valid⟩
                  exact ⟨same ▸ valid, same⟩

/-- A normalized name is valid, whichever way it was taken. -/
theorem valid_of_normalize (normalized : normalizeDnsName domainToAscii name = .ok domain) :
    validateAsciiDns domain = .ok () := by
  rcases normalizeDnsName_ok_iff.mp normalized with ⟨_, _, ⟨_, valid, lowered⟩ | ⟨_, _, valid⟩⟩
  · rw [← lowered]
    exact validateAsciiDns_lowercase valid
  · exact valid

end Normalize

end Pkix.Identity
