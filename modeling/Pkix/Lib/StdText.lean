import Mathlib.Tactic.Common

/-! Text functions of the source language's standard library: decimal numbers of fixed
width, and lower case over the character tables of Unicode. -/

namespace Pkix.StdText

section Utf8

def utf8 (text : List Char) : List UInt8 := text.flatMap String.utf8EncodeChar

theorem utf8_inj {text text' : List Char} (same : utf8 text = utf8 text') : text = text' := by
  have encoded : text.utf8Encode = text'.utf8Encode := congrArg List.toByteArray same
  have decoded := @List.utf8Decode?_utf8Encode text
  rw [encoded, List.utf8Decode?_utf8Encode, Option.some.injEq] at decoded
  exact (List.toArray_inj decoded).symm

theorem utf8EncodeChar_ascii {char : Char} (ascii : char.toNat < 128) :
    String.utf8EncodeChar char = [UInt8.ofNat char.toNat] := by
  have one : char.utf8Size = 1 := by
    rw [Char.utf8Size_eq_one_iff, UInt32.le_iff_toNat_le]
    exact Nat.le_of_lt_succ ascii
  rw [String.utf8EncodeChar_eq_singleton one]
  rfl

theorem utf8_ascii {text : List Char} (ascii : ∀ char ∈ text, char.toNat < 128) :
    utf8 text = text.map fun char => UInt8.ofNat char.toNat := by
  induction text with
  | nil => rfl
  | cons char rest ih =>
      rw [List.forall_mem_cons] at ascii
      have tail := ih ascii.2
      unfold utf8 at tail
      rw [utf8, List.flatMap_cons, utf8EncodeChar_ascii ascii.1, tail, List.map_cons,
        List.singleton_append]

theorem utf8_append (front back : List Char) : utf8 (front ++ back) = utf8 front ++ utf8 back :=
  List.flatMap_append

theorem length_le_utf8 (text : List Char) : text.length ≤ (utf8 text).length := by
  induction text with
  | nil => exact Nat.le_refl 0
  | cons char rest ih =>
      have step : utf8 (char :: rest) = String.utf8EncodeChar char ++ utf8 rest := rfl
      have positive : 0 < char.utf8Size := Char.utf8Size_pos char
      rw [step, List.length_append, String.length_utf8EncodeChar, List.length_cons]
      omega

/-- Of two fronts of one text, the one with fewer octets is the shorter one. -/
theorem length_le_of_utf8 {front back front' back' : List Char}
    (same : front ++ back = front' ++ back') (fewer : (utf8 front).length ≤ (utf8 front').length) :
    front.length ≤ front'.length := by
  rcases List.append_eq_append_iff.mp same with ⟨between, split, _⟩ | ⟨between, split, _⟩
  · rw [split, List.length_append]
    exact Nat.le_add_right _ _
  · have none := length_le_utf8 between
    rw [split, utf8_append, List.length_append] at fewer
    rw [split, List.length_append]
    omega

end Utf8

section Decimal

def parseDigits (digits : List Char) : Option Nat :=
  if digits ≠ [] ∧ digits.all Char.isDigit then some (Nat.ofDigitChars 10 digits 0) else none

def dropPlus : List Char → List Char
  | '+' :: digits => digits
  | digits => digits

def u64ToString (value : UInt64) : String := value.toNat.repr

def parseU64 (text : String) : Option UInt64 := do
  let value ← parseDigits (dropPlus text.toList)
  if value < UInt64.size then some (UInt64.ofNat value) else none

/-- One more than the largest signed 32-bit number. -/
def i32Limit : Nat := 2147483648

def i32ToString (value : Int32) : String :=
  if value.toInt < 0 then "-" ++ value.toInt.natAbs.repr else value.toInt.natAbs.repr

def parseI32 (text : String) : Option Int32 :=
  match text.toList with
  | '-' :: digits => do
      let value ← parseDigits digits
      if value ≤ i32Limit then some (Int32.ofInt (-value)) else none
  | digits => do
      let value ← parseDigits (dropPlus digits)
      if value < i32Limit then some (Int32.ofInt value) else none

theorem parseDigits_toDigits (value : Nat) : parseDigits (Nat.toDigits 10 value) = some value := by
  have digits : (Nat.toDigits 10 value).all Char.isDigit = true := by
    rw [List.all_eq_true]
    intro digit present
    exact Nat.isDigit_of_mem_toDigits (by decide) (by decide) present
  simp [parseDigits, digits, Nat.toDigits_ne_nil]

/-- No sign stands before the digits of a number. -/
theorem head_toDigits (value : Nat) : ∃ first rest, Nat.toDigits 10 value = first :: rest ∧
    first ≠ '+' ∧ first ≠ '-' := by
  cases written : Nat.toDigits 10 value with
  | nil => exact absurd written Nat.toDigits_ne_nil
  | cons first rest =>
      have present : first ∈ Nat.toDigits 10 value := by
        rw [written]
        exact List.mem_cons_self
      have digit : first.isDigit = true :=
        Nat.isDigit_of_mem_toDigits (by decide) (by decide) present
      refine ⟨first, rest, rfl, ?_, ?_⟩
      · intro plus
        subst plus
        exact absurd digit (by decide)
      · intro minus
        subst minus
        exact absurd digit (by decide)

theorem dropPlus_toDigits (value : Nat) :
    dropPlus (Nat.toDigits 10 value) = Nat.toDigits 10 value := by
  obtain ⟨first, rest, written, plus, _⟩ := head_toDigits value
  rw [written, dropPlus]
  intro digits same
  exact plus (List.cons.inj same).1

theorem parseU64_u64ToString (value : UInt64) : parseU64 (u64ToString value) = some value := by
  have fits : value.toNat < UInt64.size := value.toNat_lt
  unfold parseU64 u64ToString
  rw [Nat.toList_repr, dropPlus_toDigits, parseDigits_toDigits, Option.bind_eq_bind,
    Option.bind_some, if_pos fits, UInt64.ofNat_toNat]

theorem parseI32_i32ToString (value : Int32) : parseI32 (i32ToString value) = some value := by
  have low : -(i32Limit : Int) ≤ value.toInt := value.minValue_le_toInt
  have high : value.toInt < i32Limit := value.toInt_lt
  unfold i32ToString
  split
  · rename_i negative
    have magnitude : -(value.toInt.natAbs : Int) = value.toInt := by omega
    have fits : value.toInt.natAbs ≤ i32Limit := by omega
    have text : ("-" ++ value.toInt.natAbs.repr).toList =
        '-' :: Nat.toDigits 10 value.toInt.natAbs := by
      rw [String.toList_append, Nat.toList_repr]
      rfl
    unfold parseI32
    rw [text]
    change (parseDigits (Nat.toDigits 10 value.toInt.natAbs) >>= _) = _
    rw [parseDigits_toDigits, Option.bind_eq_bind, Option.bind_some, if_pos fits, magnitude,
      Int32.ofInt_toInt]
  · rename_i positive
    have magnitude : (value.toInt.natAbs : Int) = value.toInt := by omega
    have fits : value.toInt.natAbs < i32Limit := by omega
    obtain ⟨first, rest, written, _, minus⟩ := head_toDigits value.toInt.natAbs
    have unsigned : parseI32 value.toInt.natAbs.repr =
        (parseDigits (dropPlus (Nat.toDigits 10 value.toInt.natAbs)) >>= fun magnitude =>
          if magnitude < i32Limit then some (Int32.ofInt magnitude) else none) := by
      rw [parseI32, Nat.toList_repr, written]
      split
      · rename_i digits same
        exact absurd (List.cons.inj same).1 minus
      · rfl
    rw [unsigned, dropPlus_toDigits, parseDigits_toDigits, Option.bind_eq_bind, Option.bind_some,
      if_pos fits, magnitude, Int32.ofInt_toInt]

end Decimal

/-- The Unicode data that lower-casing reads. A character of a lower-case mapping is
itself in lower case. -/
structure UnicodeTables where
  toLower : Char → List Char
  caseIgnorable : Char → Bool
  cased : Char → Bool
  lowered : ∀ char, char ≠ 'Σ' → ∀ lower ∈ toLower char, lower ≠ 'Σ' ∧ toLower lower = [lower]
  sigma : toLower 'σ' = ['σ']
  finalSigma : toLower 'ς' = ['ς']

namespace UnicodeTables

variable (tables : UnicodeTables)

def caseIgnorableThenCased (chars : List Char) : Bool :=
  match chars.dropWhile tables.caseIgnorable with
  | [] => false
  | char :: _ => tables.cased char

/-- A capital sigma is lowered by its place in the word; `before` runs backwards. -/
def mapUppercaseSigma (before after : List Char) : Char :=
  if tables.caseIgnorableThenCased before && !tables.caseIgnorableThenCased after then 'ς' else 'σ'

def lowerFrom : (before rest : List Char) → List Char
  | _, [] => []
  | before, char :: rest =>
      (if char = 'Σ' then [tables.mapUppercaseSigma before rest] else tables.toLower char) ++
        lowerFrom (char :: before) rest

def toLowercase (text : String) : String := String.ofList (tables.lowerFrom [] text.toList)

def Lowered (char : Char) : Prop := char ≠ 'Σ' ∧ tables.toLower char = [char]

theorem lowered_mapUppercaseSigma (before after : List Char) :
    tables.Lowered (tables.mapUppercaseSigma before after) := by
  unfold mapUppercaseSigma
  split
  · exact ⟨by decide, tables.finalSigma⟩
  · exact ⟨by decide, tables.sigma⟩

theorem lowered_lowerFrom (before chars : List Char) :
    ∀ char ∈ tables.lowerFrom before chars, tables.Lowered char := by
  induction chars generalizing before with
  | nil => simp [lowerFrom]
  | cons first rest ih =>
      rw [lowerFrom]
      intro char present
      rcases List.mem_append.mp present with front | later
      · split at front
        · rw [List.mem_singleton.mp front]
          exact tables.lowered_mapUppercaseSigma before rest
        · rename_i plain
          exact tables.lowered first plain char front
      · exact ih _ char later

theorem lowerFrom_lowered (before chars : List Char)
    (lowered : ∀ char ∈ chars, tables.Lowered char) : tables.lowerFrom before chars = chars := by
  induction chars generalizing before with
  | nil => rfl
  | cons first rest ih =>
      rw [List.forall_mem_cons] at lowered
      rw [lowerFrom, if_neg lowered.1.1, lowered.1.2, ih _ lowered.2, List.singleton_append]

theorem toLowercase_idem (text : String) :
    tables.toLowercase (tables.toLowercase text) = tables.toLowercase text := by
  rw [toLowercase, toLowercase, String.toList_ofList,
    lowerFrom_lowered tables [] _ (tables.lowered_lowerFrom [] _)]

end UnicodeTables

theorem toLower_cases (char : Char) :
    65 ≤ char.toNat ∧ char.toNat ≤ 90 ∧ char.toLower.toNat = char.toNat + 32 ∨
      ¬ (65 ≤ char.toNat ∧ char.toNat ≤ 90) ∧ char.toLower = char := by
  unfold Char.toLower
  split
  · rename_i letter
    have low : 65 ≤ char.toNat := letter.1
    have high : char.toNat ≤ 90 := letter.2
    refine .inl ⟨low, high, ?_⟩
    change (char.val + ('a'.val - 'A'.val)).toNat = char.val.toNat + 32
    have shift : ('a'.val - 'A'.val).toNat = 32 := by decide
    have value : char.val.toNat = char.toNat := rfl
    rw [UInt32.toNat_add]
    omega
  · rename_i plain
    refine .inr ⟨?_, rfl⟩
    intro range
    exact plain ⟨range.1, range.2⟩

/-- The tables on ASCII; every other character stays as it is. -/
def asciiTables : UnicodeTables where
  toLower char := [char.toLower]
  caseIgnorable char := [39, 46, 58, 94, 96].contains char.toNat
  cased char := char.isAlpha
  lowered := by
    intro char plain lower present
    have sigma : 'Σ'.toNat = 931 := by decide
    rw [List.mem_singleton.mp present]
    rcases toLower_cases char with ⟨low, high, shifted⟩ | ⟨_, same⟩
    · refine ⟨?_, ?_⟩
      · intro capital
        rw [capital] at shifted
        omega
      · rcases toLower_cases char.toLower with ⟨_, high', _⟩ | ⟨_, again⟩
        · omega
        · rw [again]
    · rw [same, same]
      exact ⟨plain, rfl⟩
  sigma := by decide
  finalSigma := by decide

end Pkix.StdText
