import Mathlib.Data.List.Forall2
import Pkix.Identity.ServerName
import Pkix.Lib.Splitting

/-! The textual grammar of IP addresses and the texts the parser accepts beyond it: numbers behind a
plus sign, and groups with a single colon at the end. -/

namespace Pkix.Identity

open Pkix.Path Numerals Splitting StdText

section Grammar

/-- The digits of a number, behind a plus sign where signs are allowed. -/
def numeral (signs : Bool) (part : Text) : Text := if signs then dropPlus part else part

def DecimalOctet (signs : Bool) (part : Text) (value : Nat) : Prop :=
  readDigits 10 (numeral signs part) = some value ∧ value ≤ 255 ∧
    ¬ (1 < part.length ∧ part.head? = some '0')

def HexGroup (signs : Bool) (part : Text) (value : Nat) : Prop :=
  readDigits 16 (numeral signs part) = some value ∧ part.length ≤ 4

inductive Ipv4Text (signs : Bool) : Text → Bytes → Prop
  | quad {parts : List Text} {values : List Nat}
      (read : List.Forall₂ (DecimalOctet signs) parts values) (four : parts.length = 4) :
      Ipv4Text signs (['.'].intercalate parts) (values.map UInt8.ofNat)

/-- Eight groups, or fewer with one run of zeros elided. -/
inductive Ipv6Text (signs : Bool) : Text → List Nat → Prop
  | full {parts : List Text} {values : List Nat}
      (read : List.Forall₂ (HexGroup signs) parts values) (eight : parts.length = 8) :
      Ipv6Text signs ([':'].intercalate parts) values
  | elided {front back : List Text} {frontValues backValues : List Nat}
      (readFront : List.Forall₂ (HexGroup signs) front frontValues)
      (readBack : List.Forall₂ (HexGroup signs) back backValues)
      (short : front.length + back.length < 8) :
      Ipv6Text signs ([':'].intercalate front ++ ':' :: ':' :: [':'].intercalate back)
        (frontValues ++ List.replicate (8 - (front.length + back.length)) 0 ++ backValues)

/-- Groups with a single colon at the end: in place of an elided run, or behind one. -/
inductive OpenText (signs : Bool) : Text → List Nat → Prop
  | run {front : List Text} {values : List Nat} (read : List.Forall₂ (HexGroup signs) front values)
      (some_ : front ≠ []) (short : front.length < 8) :
      OpenText signs ([':'].intercalate front ++ [':'])
        (values ++ List.replicate (8 - front.length) 0)
  | behind {front back : List Text} {frontValues backValues : List Nat}
      (readFront : List.Forall₂ (HexGroup signs) front frontValues)
      (readBack : List.Forall₂ (HexGroup signs) back backValues) (some_ : back ≠ [])
      (short : front.length + back.length < 8) :
      OpenText signs ([':'].intercalate front ++ ':' :: ':' :: [':'].intercalate back ++ [':'])
        (frontValues ++ List.replicate (8 - (front.length + back.length)) 0 ++ backValues)

/-- The octets that a text stands for. -/
inductive IpText (signs : Bool) : Text → IpRepr → Prop
  | v4 {text : Text} {octets : Octets 4} (read : Ipv4Text signs text octets.val) :
      IpText signs text (.v4 octets)
  | v6 {text : Text} {groups : List Nat} {octets : Octets 16} (read : Ipv6Text signs text groups)
      (stored : octets.val = groups.flatMap groupBytes) : IpText signs text (.v6 octets)

inductive Bracketed (body : Text) : Text → Prop
  | bare : Bracketed body body
  | pair : Bracketed body ('[' :: body ++ [']'])

/-- An address but for plus signs or for a single colon at its end. -/
def Lapse (body : Text) : Prop :=
  (∃ address, IpText true body address ∧ '+' ∈ body) ∨ ∃ groups, OpenText true body groups

end Grammar

section Parts

variable {signs : Bool} {base value : Nat} {part : Text} {char : Char}

theorem notMem_of_numeral (other : digitValue char = none) (notPlus : signs = true → char ≠ '+')
    (read : readDigits base (numeral signs part) = some value) : char ∉ part := by
  cases signs with
  | false => exact notMem_of_readDigits other read
  | true =>
      rcases readDigits_dropPlus.mp read with plain | ⟨digits, signed, behind⟩
      · exact notMem_of_readDigits other plain
      · rw [signed, List.mem_cons, not_or]
        exact ⟨notPlus rfl, notMem_of_readDigits other behind⟩

theorem ne_nil_of_numeral (read : readDigits base (numeral signs part) = some value) :
    part ≠ [] := by
  intro empty
  rw [empty] at read
  cases signs <;> cases read

theorem numeral_signs (read : readDigits base (numeral false part) = some value) :
    readDigits base (numeral true part) = some value :=
  readDigits_dropPlus.mpr (.inl read)

theorem numeral_unsigned (unsigned : '+' ∉ part)
    (read : readDigits base (numeral true part) = some value) :
    readDigits base (numeral false part) = some value := by
  rcases readDigits_dropPlus.mp read with plain | ⟨digits, signed, _⟩
  · exact plain
  · rw [signed] at unsigned
    exact absurd List.mem_cons_self unsigned

theorem DecimalOctet.withSigns (read : DecimalOctet false part value) : DecimalOctet true part value :=
  ⟨numeral_signs read.1, read.2⟩

theorem HexGroup.withSigns (read : HexGroup false part value) : HexGroup true part value :=
  ⟨numeral_signs read.1, read.2⟩

/-- Every part in a list that is read is read by itself. -/
theorem forall₂_part {reads : Text → Nat → Prop} {parts : List Text} {values : List Nat}
    (read : List.Forall₂ reads parts values) (listed : part ∈ parts) :
    ∃ value, reads part value := by
  induction read with
  | nil => cases listed
  | cons here _ ih =>
      rcases List.mem_cons.mp listed with same | later
      · exact ⟨_, same ▸ here⟩
      · exact ih later

theorem mem_intercalate {mark item : Char} {parts : List Text} (present : item ∈ [mark].intercalate parts) :
    item = mark ∨ ∃ part ∈ parts, item ∈ part := by
  by_cases none_ : parts = []
  · rw [none_] at present
    cases present
  · induction parts with
    | nil => exact absurd rfl none_
    | cons first parts ih =>
        by_cases last : parts = []
        · rw [last, List.intercalate_singleton] at present
          exact .inr ⟨first, List.mem_cons_self, present⟩
        · rw [List.intercalate_cons_of_ne_nil last, List.mem_append, List.mem_append,
            List.mem_singleton] at present
          rcases present with (inFirst | isMark) | later
          · exact .inr ⟨first, List.mem_cons_self, inFirst⟩
          · exact .inl isMark
          · rcases ih later last with isMark | ⟨part, listed, inside⟩
            · exact .inl isMark
            · exact .inr ⟨part, List.mem_cons_of_mem _ listed, inside⟩

end Parts

section Ipv4

variable {part text : Text} {parts : List Text}

theorem parseOctet_some_iff {octet : UInt8} :
    parseOctet part = some octet ↔
      ∃ value, DecimalOctet true part value ∧ UInt8.ofNat value = octet := by
  unfold parseOctet DecimalOctet
  by_cases zero : 1 < part.length ∧ part.head? = some '0'
  · simp [zero]
  · by_cases empty : part = []
    · rw [empty]
      simp [numeral, dropPlus, readDigits]
    · have kept : ¬ (part.isEmpty = true ∨ (1 < part.length ∧ part.head? = some '0')) := by
        simp [empty, zero]
      rw [if_neg kept]
      change (fromStrRadix 10 u32Limit part).bind _ = _ ↔ _
      simp only [Option.bind_eq_some_iff, fromStrRadix_some_iff]
      constructor
      · intro taken
        rcases taken with ⟨value, ⟨read, _⟩, stored⟩
        split at stored
        · cases stored
        · rename_i small
          exact ⟨value, ⟨read, Nat.not_lt.mp small, zero⟩, Option.some.inj stored⟩
      · intro decimal
        rcases decimal with ⟨value, ⟨read, small, _⟩, stored⟩
        have fits : value < u32Limit := by
          unfold u32Limit
          omega
        exact ⟨value, ⟨read, fits⟩, by rw [if_neg (Nat.not_lt.mpr small), stored]⟩

theorem ipv4Loop_some_iff {octets result : Bytes} (few : octets.length ≤ 4) :
    ipv4Loop parts octets = some result ↔ octets.length + parts.length ≤ 4 ∧
      ∃ values, List.Forall₂ (DecimalOctet true) parts values ∧
        octets ++ values.map UInt8.ofNat = result := by
  induction parts generalizing octets with
  | nil => simp [ipv4Loop, few]
  | cons part rest ih =>
      rw [ipv4Loop]
      by_cases full : octets.length = 4
      · rw [if_pos full, full, List.length_cons]
        constructor
        · nofun
        · intro ⟨within, _⟩
          omega
      · rw [if_neg full, Option.bind_eq_some_iff]
        constructor
        · intro ⟨octet, read, looped⟩
          rcases parseOctet_some_iff.mp read with ⟨value, decimal, stored⟩
          have fewer : (octets ++ [octet]).length ≤ 4 := by
            rw [List.length_append, List.length_singleton]
            omega
          rcases (ih fewer).mp looped with ⟨within, values, readRest, joined⟩
          rw [List.length_append, List.length_singleton] at within
          refine ⟨by rw [List.length_cons]; omega, value :: values, .cons decimal readRest, ?_⟩
          rw [← joined, List.map_cons, stored, List.append_assoc, List.singleton_append]
        · intro ⟨within, values, readAll, joined⟩
          cases readAll with
          | @cons _ value _ values decimal readRest =>
              rw [List.length_cons] at within
              have fewer : (octets ++ [UInt8.ofNat value]).length ≤ 4 := by
                rw [List.length_append, List.length_singleton]
                omega
              refine ⟨UInt8.ofNat value, parseOctet_some_iff.mpr ⟨value, decimal, rfl⟩, ?_⟩
              apply (ih fewer).mpr
              rw [List.length_append, List.length_singleton]
              refine ⟨by omega, values, readRest, ?_⟩
              rw [← joined, List.map_cons, List.append_assoc, List.singleton_append]

/-- No dot stands inside a part that is read. -/
theorem splitOn_quad {signs : Bool} {values : List Nat}
    (read : List.Forall₂ (DecimalOctet signs) parts values) (some_ : parts ≠ []) :
    (['.'].intercalate parts).splitOn '.' = parts := by
  apply List.splitOn_intercalate '.' _ some_
  intro part listed
  rcases forall₂_part read listed with ⟨_, decimal⟩
  exact notMem_of_numeral (by decide) (fun _ => by decide) decimal.1

/-- The parser of dotted quads follows the grammar with signs. -/
theorem parseIpv4_some_iff {octets : Octets 4} :
    parseIpv4 text = some octets ↔ Ipv4Text true text octets.val := by
  unfold parseIpv4
  change (ipv4Loop (text.splitOn '.') []).bind _ = _ ↔ _
  rw [Option.bind_eq_some_iff]
  constructor
  · intro ⟨bytes, looped, filled⟩
    rcases (ipv4Loop_some_iff (by simp)).mp looped with ⟨_, values, read, joined⟩
    rw [List.nil_append] at joined
    split at filled
    · rename_i four
      cases filled
      have count : (text.splitOn '.').length = 4 := by
        rw [read.length_eq, ← List.length_map UInt8.ofNat, joined, four]
      have quad := Ipv4Text.quad read count
      rw [List.intercalate_splitOn, joined] at quad
      exact quad
    · cases filled
  · intro quad
    rcases octets with ⟨bytes, four⟩
    cases quad with
    | @quad parts values read count =>
        have some_ := List.ne_nil_of_length_eq_add_one count
        refine ⟨values.map UInt8.ofNat, ?_, by rw [dif_pos four]⟩
        rw [splitOn_quad read some_]
        exact (ipv4Loop_some_iff (by simp)).mpr ⟨by simp [count], values, read, rfl⟩

end Ipv4

section Groups

variable {part : Text} {parts : List Text} {groups : List Nat} {read : List Nat × Option Nat}

theorem dropPlus_length_le (text : Text) : (dropPlus text).length ≤ text.length := by
  unfold dropPlus
  split
  · rw [List.length_cons]
    omega
  · exact Nat.le_refl _

/-- Four hexadecimal digits fit a group. -/
theorem four_digits_lt {text : Text} {value : Nat} (short : text.length ≤ 4)
    (read : readDigits 16 text = some value) : value < u16Limit := by
  have bound := readDigits_lt read
  unfold u16Limit
  match text, short with
  | [], _ => exact bound.trans (by decide)
  | [_], _ => exact bound.trans (by simp)
  | [_, _], _ => exact bound.trans (by simp)
  | [_, _, _], _ => exact bound.trans (by simp)
  | [_, _, _, _], _ => exact bound
  | _ :: _ :: _ :: _ :: _ :: rest, long =>
      simp only [List.length_cons] at long
      omega

theorem hexGroup_iff {value : Nat} :
    HexGroup true part value ↔
      part.length ≤ 4 ∧ fromStrRadix 16 u16Limit part = some value := by
  rw [fromStrRadix_some_iff]
  constructor
  · intro ⟨read, short⟩
    exact ⟨short, read, four_digits_lt ((dropPlus_length_le part).trans short) read⟩
  · intro ⟨short, read, _⟩
    exact ⟨read, short⟩

theorem HexGroup.ne_nil {signs : Bool} {value : Nat} (read : HexGroup signs part value) :
    part ≠ [] := ne_nil_of_numeral read.1

theorem HexGroup.no_colon {signs : Bool} {value : Nat} (read : HexGroup signs part value) :
    ':' ∉ part := notMem_of_numeral (by decide) (fun _ => by decide) read.1

theorem ipv6Loop_group {rest : List Text} {zeroRunAt : Option Nat} (filled : part ≠ []) :
    ipv6Loop (part :: rest) groups zeroRunAt = some read ↔
      ∃ value, HexGroup true part value ∧ groups.length < 8 ∧
        ipv6Loop rest (groups ++ [value]) zeroRunAt = some read := by
  rw [ipv6Loop, if_neg (by simpa using filled)]
  by_cases long : 4 < part.length
  · rw [if_pos long]
    constructor
    · nofun
    · intro ⟨value, group, _⟩
      exact absurd group.2 (Nat.not_le.mpr long)
  · rw [if_neg long, Option.bind_eq_some_iff]
    have short := Nat.not_lt.mp long
    constructor
    · intro ⟨value, taken, looped⟩
      split at looped
      · cases looped
      · rename_i few
        rw [List.length_append, List.length_singleton] at few
        exact ⟨value, hexGroup_iff.mpr ⟨short, taken⟩, by omega, looped⟩
    · intro ⟨value, group, few, looped⟩
      refine ⟨value, (hexGroup_iff.mp group).2, ?_⟩
      rw [if_neg, looped]
      rw [List.length_append, List.length_singleton]
      omega

/-- The parts are these and perhaps an empty one at the end. -/
def EndsOpenly (back parts : List Text) : Prop := parts = back ∨ parts = back ++ [[]]

theorem endsOpenly_cons {first : Text} {back rest : List Text} :
    EndsOpenly (first :: back) (part :: rest) ↔ part = first ∧ EndsOpenly back rest := by
  simp [EndsOpenly, and_or_left]

/-- Behind the run of zeros come groups, and then the end or one empty part. -/
theorem ipv6Loop_behind_iff {runAt : Nat} (within : groups.length ≤ 8) :
    ipv6Loop parts groups (some runAt) = some read ↔
      ∃ back values, List.Forall₂ (HexGroup true) back values ∧
        EndsOpenly back parts ∧ groups.length + back.length ≤ 8 ∧
        read = (groups ++ values, some runAt) := by
  induction parts generalizing groups with
  | nil =>
      rw [ipv6Loop]
      constructor
      · intro ended
        cases ended
        exact ⟨[], [], .nil, .inl rfl, within, by rw [List.append_nil]⟩
      · intro ⟨back, values, each, shape, _, same⟩
        rcases shape with shape | shape
        · rw [← shape] at each
          cases each
          rw [same, List.append_nil]
        · exact absurd shape.symm (by simp)
  | cons part rest ih =>
      by_cases filled : part = []
      · rw [ipv6Loop, if_pos (by simp [filled]), if_pos Option.isSome_some]
        constructor
        · intro ended
          split at ended
          · rename_i last
            rw [List.isEmpty_iff] at last
            cases ended
            exact ⟨[], [], .nil, .inr (by rw [filled, last, List.nil_append]), within,
              by rw [List.append_nil]⟩
          · cases ended
        · intro ⟨back, values, each, shape, _, same⟩
          cases each with
          | nil =>
              have last : rest = [] := by
                rcases shape with shape | shape
                · cases shape
                · exact (List.cons.inj shape).2
              rw [last, same, List.append_nil]
              rfl
          | cons group _ => exact absurd ((endsOpenly_cons.mp shape).1 ▸ filled) group.ne_nil
      · rw [ipv6Loop_group filled]
        constructor
        · intro ⟨value, group, few, looped⟩
          have fewer : (groups ++ [value]).length ≤ 8 := by
            rw [List.length_append, List.length_singleton]
            omega
          rcases (ih fewer).mp looped with ⟨back, values, each, shape, total, same⟩
          rw [List.length_append, List.length_singleton] at total
          refine ⟨part :: back, value :: values, .cons group each,
            endsOpenly_cons.mpr ⟨rfl, shape⟩, ?_, ?_⟩
          · rw [List.length_cons]
            omega
          · rw [same, List.append_assoc, List.singleton_append]
        · intro ⟨back, values, each, shape, total, same⟩
          cases each with
          | nil =>
              rcases shape with shape | shape
              · cases shape
              · exact absurd (List.cons.inj shape).1 filled
          | @cons first value back values group each =>
              rcases endsOpenly_cons.mp shape with ⟨same_, later⟩
              rw [List.length_cons] at total
              have fewer : (groups ++ [value]).length ≤ 8 := by
                rw [List.length_append, List.length_singleton]
                omega
              refine ⟨value, same_ ▸ group, by omega, (ih fewer).mpr
                ⟨back, values, each, later, ?_, ?_⟩⟩
              · rw [List.length_append, List.length_singleton]
                omega
              · rw [same, List.append_assoc, List.singleton_append]

/-- How the loop goes on behind the groups it starts with. -/
inductive AfterGroups (read : List Nat × Option Nat) (groups : List Nat) : List Text → Prop
  | ended (same : read = (groups, none)) : AfterGroups read groups []
  | open_ (same : read = (groups, some groups.length)) : AfterGroups read groups [[]]
  | run {rest : List Text} (some_ : rest ≠ [])
      (looped : ipv6Loop rest groups (some groups.length) = some read) :
      AfterGroups read groups ([] :: rest)

theorem ipv6Loop_front_iff (within : groups.length ≤ 8) :
    ipv6Loop parts groups none = some read ↔
      ∃ front values rest, List.Forall₂ (HexGroup true) front values ∧ parts = front ++ rest ∧
        groups.length + front.length ≤ 8 ∧ AfterGroups read (groups ++ values) rest := by
  induction parts generalizing groups with
  | nil =>
      rw [ipv6Loop]
      constructor
      · intro ended
        cases ended
        exact ⟨[], [], [], .nil, rfl, within, .ended (by rw [List.append_nil])⟩
      · intro ⟨front, values, rest, each, shape, _, after⟩
        rcases List.append_eq_nil_iff.mp shape.symm with ⟨noFront, noRest⟩
        rw [noFront] at each
        rw [noRest] at after
        cases each
        cases after with
        | ended same => rw [same, List.append_nil]
  | cons part rest ih =>
      by_cases filled : part = []
      · rw [ipv6Loop, if_pos (by simp [filled]), if_neg (by simp)]
        constructor
        · intro looped
          refine ⟨[], [], [] :: rest, .nil, by rw [filled, List.nil_append], within, ?_⟩
          rw [List.append_nil]
          split at looped
          · rename_i last
            cases looped
            rw [List.isEmpty_iff.mp last]
            exact .open_ rfl
          · rename_i more
            exact .run (by simpa using more) looped
        · intro ⟨front, values, later, each, shape, _, after⟩
          cases each with
          | nil =>
              rw [List.nil_append] at shape
              rw [← shape, List.append_nil] at after
              cases after with
              | open_ same => rw [same, if_pos List.isEmpty_nil]
              | run some_ looped =>
                  rw [if_neg (by simpa using some_), looped]
          | cons group _ =>
              exact absurd ((List.cons.inj shape).1 ▸ filled) group.ne_nil
      · rw [ipv6Loop_group filled]
        constructor
        · intro ⟨value, group, few, looped⟩
          have fewer : (groups ++ [value]).length ≤ 8 := by
            rw [List.length_append, List.length_singleton]
            omega
          rcases (ih fewer).mp looped with ⟨front, values, later, each, shape, total, after⟩
          rw [List.length_append, List.length_singleton] at total
          rw [List.append_assoc, List.singleton_append] at after
          refine ⟨part :: front, value :: values, later, .cons group each,
            by rw [shape, List.cons_append], ?_, after⟩
          rw [List.length_cons]
          omega
        · intro ⟨front, values, later, each, shape, total, after⟩
          cases each with
          | nil =>
              rw [List.nil_append] at shape
              rw [← shape] at after
              cases after <;> exact absurd rfl filled
          | @cons first value front values group each =>
              rcases List.cons.inj shape with ⟨same, shape⟩
              rw [List.length_cons] at total
              have fewer : (groups ++ [value]).length ≤ 8 := by
                rw [List.length_append, List.length_singleton]
                omega
              refine ⟨value, same ▸ group, by omega, (ih fewer).mpr
                ⟨front, values, later, each, shape, ?_, ?_⟩⟩
              · rw [List.length_append, List.length_singleton]
                omega
              · rw [List.append_assoc, List.singleton_append]
                exact after

theorem fillGroups_none_iff {octets : Octets 16} :
    fillGroups groups none = some octets ↔
      groups.length = 8 ∧ octets.val = groups.flatMap groupBytes := by
  unfold fillGroups
  rcases octets with ⟨bytes, sixteen⟩
  dsimp only
  split
  · rename_i eight
    simp [eight, toOctets, eq_comm]
  · rename_i other
    simp [other]

theorem fillGroups_some_iff {runAt : Nat} {octets : Octets 16} :
    fillGroups groups (some runAt) = some octets ↔
      groups.length < 8 ∧ octets.val = (fillRun groups runAt).flatMap groupBytes := by
  unfold fillGroups
  rcases octets with ⟨bytes, sixteen⟩
  dsimp only
  split
  · rename_i short
    simp [short, toOctets, eq_comm]
  · rename_i other
    simp [other]

theorem fillRun_append (front back : List Nat) :
    fillRun (front ++ back) front.length =
      front ++ List.replicate (8 - (front.length + back.length)) 0 ++ back := by
  rw [fillRun, List.take_left, List.drop_left, List.length_append]

end Groups

section Texts

variable {signs : Bool} {parts front back : List Text} {values : List Nat} {text : Text}

/-- The parts of an empty text are one empty part. -/
def partsOf (parts : List Text) : List Text := if parts = [] then [[]] else parts

theorem splitOn_groups (read : List.Forall₂ (HexGroup signs) parts values) :
    ([':'].intercalate parts).splitOn ':' = partsOf parts := by
  unfold partsOf
  split
  · rename_i none_
    rw [none_]
    rfl
  · rename_i some_
    apply List.splitOn_intercalate ':' _ some_
    intro part listed
    rcases forall₂_part read listed with ⟨_, group⟩
    exact group.no_colon

theorem splitOn_colon (text : Text) : (':' :: text).splitOn ':' = [] :: text.splitOn ':' := by
  rw [List.splitOn_cons_eq_if_modifyHead, if_pos (by decide)]

/-- Parts with a separator between two lists of them. -/
theorem intercalate_append (someFront : front ≠ []) (someBack : back ≠ []) :
    [':'].intercalate (front ++ back) = [':'].intercalate front ++ ':' :: [':'].intercalate back := by
  induction front with
  | nil => exact absurd rfl someFront
  | cons part front ih =>
      by_cases last : front = []
      · rw [last, List.intercalate_singleton, List.singleton_append,
          List.intercalate_cons_of_ne_nil someBack, List.append_assoc, List.singleton_append]
      · rw [List.cons_append, List.intercalate_cons_of_ne_nil (by simp [last]), ih last,
          List.intercalate_cons_of_ne_nil last, List.append_assoc, List.append_assoc,
          List.append_assoc]

theorem intercalate_colon (some_ : parts ≠ []) :
    [':'].intercalate ([] :: parts) = ':' :: [':'].intercalate parts := by
  rw [List.intercalate_cons_of_ne_nil some_, List.nil_append, List.singleton_append]

/-- A text of groups does not start with a colon. -/
theorem groups_head (read : List.Forall₂ (HexGroup signs) parts values) (some_ : parts ≠ []) :
    ∃ first rest, [':'].intercalate parts = first :: rest ∧ first ≠ ':' := by
  cases read with
  | nil => exact absurd rfl some_
  | @cons part value later _ group _ =>
      cases shape : part with
      | nil => exact absurd shape group.ne_nil
      | cons first rest =>
          have plain := group.no_colon
          rw [shape] at plain
          refine ⟨first, ?_⟩
          by_cases last : later = []
          · exact ⟨rest, by rw [last, List.intercalate_singleton], (List.ne_of_not_mem_cons plain).symm⟩
          · refine ⟨rest ++ [':'] ++ [':'].intercalate later, ?_, (List.ne_of_not_mem_cons plain).symm⟩
            rw [List.intercalate_cons_of_ne_nil last, List.append_assoc, List.cons_append,
              List.append_assoc]

theorem not_leading (read : List.Forall₂ (HexGroup signs) parts values) (some_ : parts ≠ [])
    (more : Text) : ¬ [':'] <+: [':'].intercalate parts ++ more := by
  rcases groups_head read some_ with ⟨first, rest, head, notColon⟩
  rw [head]
  intro ⟨_, shape⟩
  exact notColon (List.cons.inj shape).1.symm

theorem endsOpenly_partsOf (parts : List Text) : EndsOpenly parts (partsOf parts) := by
  unfold partsOf
  split
  · rename_i none_
    exact .inr (by rw [none_, List.nil_append])
  · exact .inl rfl

/-- A text that the parser takes for an IPv6 address. -/
def LaxText (text : Text) (groups : List Nat) : Prop :=
  Ipv6Text true text groups ∨ OpenText true text groups

variable {frontValues backValues : List Nat} {rest : List Text}

theorem laxText_run (readFront : List.Forall₂ (HexGroup true) front frontValues)
    (readBack : List.Forall₂ (HexGroup true) back backValues)
    (short : front.length + back.length < 8) (ends : EndsOpenly back rest) :
    LaxText ([':'].intercalate front ++ ':' :: ':' :: [':'].intercalate rest)
      (frontValues ++ List.replicate (8 - (front.length + back.length)) 0 ++ backValues) := by
  rcases ends with same | openly
  · rw [same]
    exact .inl (.elided readFront readBack short)
  · rw [openly]
    by_cases none_ : back = []
    · have closed : [':'].intercalate (back ++ [[]]) = [':'].intercalate back := by
        rw [none_]
        rfl
      rw [closed]
      exact .inl (.elided readFront readBack short)
    · rw [intercalate_append none_ (List.cons_ne_nil _ _), List.intercalate_singleton]
      have text := OpenText.behind readFront readBack none_ short
      rw [List.append_assoc, List.cons_append, List.cons_append] at text
      exact .inr text

end Texts

section Ipv6

variable {text : Text} {octets : Octets 16}

/-- The reading of a text in which the run of zeros is reached. -/
theorem laxText_of_behind {front rest : List Text} {frontValues : List Nat}
    {read : List Nat × Option Nat} (readFront : List.Forall₂ (HexGroup true) front frontValues)
    (few : frontValues.length ≤ 8)
    (looped : ipv6Loop rest frontValues (some frontValues.length) = some read)
    (filled : fillGroups read.1 read.2 = some octets) :
    ∃ groups, LaxText ([':'].intercalate front ++ ':' :: ':' :: [':'].intercalate rest) groups ∧
      octets.val = groups.flatMap groupBytes := by
  rcases (ipv6Loop_behind_iff few).mp looped with ⟨back, values, readBack, ends, _, same⟩
  rw [same] at filled
  rcases fillGroups_some_iff.mp filled with ⟨short, stored⟩
  rw [fillRun_append, ← readFront.length_eq, ← readBack.length_eq] at stored
  rw [List.length_append, ← readFront.length_eq, ← readBack.length_eq] at short
  exact ⟨_, laxText_run readFront readBack short ends, stored⟩

theorem laxText_of_parseIpv6 (some_ : text ≠ []) (parsed : parseIpv6 text = some octets) :
    ∃ groups, LaxText text groups ∧ octets.val = groups.flatMap groupBytes := by
  unfold parseIpv6 at parsed
  split at parsed
  · rename_i leading
    rcases leading with ⟨tail, shape⟩
    have text_ : text = ':' :: ':' :: tail := shape.symm
    split at parsed
    · rename_i bare
      cases parsed
      rw [bare]
      exact ⟨List.replicate 8 0, .inl (.elided .nil .nil (by decide)), rfl⟩
    · rcases Option.bind_eq_some_iff.mp parsed with ⟨read, looped, filled⟩
      rw [text_, splitOn_colon, splitOn_colon, List.drop_succ_cons, List.drop_succ_cons,
        List.drop_zero] at looped
      rcases laxText_of_behind .nil (Nat.zero_le 8) looped filled with ⟨groups, lax, stored⟩
      rw [List.intercalate_splitOn] at lax
      rw [text_]
      exact ⟨groups, lax, stored⟩
  · split at parsed
    · cases parsed
    · rename_i plain
      rcases Option.bind_eq_some_iff.mp parsed with ⟨read, looped, filled⟩
      rcases (ipv6Loop_front_iff (by simp)).mp looped with
        ⟨front, values, rest, readFront, shape, few, after⟩
      rw [List.length_nil, Nat.zero_add] at few
      rw [List.nil_append] at after
      have joined : [':'].intercalate (text.splitOn ':') = text := List.intercalate_splitOn ':'
      rw [shape] at joined
      cases after with
      | ended same =>
          rw [same] at filled
          rcases fillGroups_none_iff.mp filled with ⟨eight, stored⟩
          rw [List.append_nil] at joined
          rw [← joined]
          exact ⟨values, .inl (.full readFront (readFront.length_eq.trans eight)), stored⟩
      | open_ same =>
          rw [same] at filled
          rcases fillGroups_some_iff.mp filled with ⟨short, stored⟩
          have someFront : front ≠ [] := by
            intro none_
            rw [none_] at joined
            exact some_ joined.symm
          have values_ := fillRun_append values []
          rw [List.append_nil, List.append_nil, List.length_nil, Nat.add_zero] at values_
          rw [values_, ← readFront.length_eq] at stored
          rw [← readFront.length_eq] at short
          rw [intercalate_append someFront (List.cons_ne_nil _ _), List.intercalate_singleton] at joined
          rw [← joined]
          exact ⟨_, .inr (.run readFront someFront short), stored⟩
      | @run rest someRest looped =>
          have someFront : front ≠ [] := by
            intro none_
            rw [none_, List.nil_append, intercalate_colon someRest] at joined
            exact plain ⟨_, joined⟩
          rw [intercalate_append someFront (List.cons_ne_nil _ _), intercalate_colon someRest] at joined
          rw [← joined]
          exact laxText_of_behind readFront (readFront.length_eq ▸ few) looped filled

theorem parseIpv6_of_parts (plain : ¬ [':'] <+: text) {groups : List Nat} {runAt : Option Nat}
    (looped : ipv6Loop (text.splitOn ':') [] none = some (groups, runAt))
    (filled : fillGroups groups runAt = some octets) : parseIpv6 text = some octets := by
  have notRun : ¬ [':', ':'] <+: text := fun ⟨tail, shape⟩ => plain ⟨':' :: tail, shape⟩
  rw [parseIpv6, if_neg notRun, if_neg plain, looped, Option.bind_some, filled]

/-- A run of zeros behind the groups it follows, at the head of the text too. -/
theorem parseIpv6_run {front back : List Text} {frontValues backValues : List Nat} {tail : Text}
    (readFront : List.Forall₂ (HexGroup true) front frontValues)
    (readBack : List.Forall₂ (HexGroup true) back backValues)
    (short : front.length + back.length < 8) (ends : EndsOpenly back (tail.splitOn ':'))
    (stored : octets.val = (frontValues ++
      List.replicate (8 - (front.length + back.length)) 0 ++ backValues).flatMap groupBytes) :
    parseIpv6 ([':'].intercalate front ++ ':' :: ':' :: tail) = some octets := by
  rw [readFront.length_eq, readBack.length_eq] at short
  rw [readFront.length_eq, readBack.length_eq, ← fillRun_append] at stored
  have filled : fillGroups (frontValues ++ backValues) (some frontValues.length) = some octets :=
    fillGroups_some_iff.mpr ⟨by rw [List.length_append]; exact short, stored⟩
  have looped : ipv6Loop (tail.splitOn ':') frontValues (some frontValues.length) =
      some (frontValues ++ backValues, some frontValues.length) :=
    (ipv6Loop_behind_iff (by omega)).mpr
      ⟨back, backValues, readBack, ends, by rw [readBack.length_eq]; omega, rfl⟩
  by_cases someFront : front = []
  · rw [someFront] at readFront ⊢
    cases readFront
    change parseIpv6 (':' :: ':' :: tail) = some octets
    unfold parseIpv6
    rw [if_pos ⟨tail, rfl⟩]
    split
    · rename_i bare
      cases bare
      have none_ : back = [] := by
        rcases ends with same | openly
        · rw [← same] at readBack
          cases readBack with
          | cons group _ => exact absurd rfl group.ne_nil
        · exact (List.append_left_eq_self.mp openly.symm)
      rw [none_] at readBack
      cases readBack
      have zeros : toOctets (List.replicate 8 0) rfl = octets := Subtype.ext stored.symm
      rw [zeros]
    · rw [splitOn_colon, splitOn_colon]
      rw [List.length_nil] at looped filled
      change (ipv6Loop (tail.splitOn ':') [] (some 0)).bind _ = _
      rw [looped, Option.bind_some]
      exact filled
  · have plain := not_leading readFront someFront (':' :: ':' :: tail)
    have parts : ([':'].intercalate front ++ ':' :: ':' :: tail).splitOn ':' =
        front ++ [] :: tail.splitOn ':' := by
      rw [List.splitOn_append_cons_self, splitOn_groups readFront, splitOn_colon, partsOf,
        if_neg someFront]
    apply parseIpv6_of_parts plain _ filled
    rw [parts]
    exact (ipv6Loop_front_iff (by simp)).mpr
      ⟨front, frontValues, _, readFront, rfl, by rw [readFront.length_eq, List.length_nil]; omega,
        .run (List.splitOn_ne_nil ':' tail) looped⟩

theorem parseIpv6_of_laxText {groups : List Nat} (lax : LaxText text groups)
    (stored : octets.val = groups.flatMap groupBytes) : parseIpv6 text = some octets := by
  rcases lax with closed | openly
  · cases closed with
    | @full parts values read eight =>
        have some_ := List.ne_nil_of_length_eq_add_one eight
        have plain := not_leading read some_ []
        rw [List.append_nil] at plain
        have filled := fillGroups_none_iff.mpr ⟨read.length_eq.symm.trans eight, stored⟩
        apply parseIpv6_of_parts plain _ filled
        rw [splitOn_groups read, partsOf, if_neg some_]
        exact (ipv6Loop_front_iff (by simp)).mpr
          ⟨parts, groups, [], read, (List.append_nil _).symm, by simp [eight], .ended rfl⟩
    | elided readFront readBack short =>
        apply parseIpv6_run readFront readBack short _ stored
        rw [splitOn_groups readBack]
        exact endsOpenly_partsOf _
  · cases openly with
    | @run front values read some_ short =>
        have plain := not_leading read some_ [':']
        have filled : fillGroups values (some values.length) = some octets := by
          have run := fillRun_append values []
          rw [List.append_nil, List.append_nil, List.length_nil, Nat.add_zero] at run
          rw [read.length_eq] at short stored
          exact fillGroups_some_iff.mpr ⟨short, by rw [run, stored]⟩
        apply parseIpv6_of_parts plain _ filled
        rw [List.splitOn_append_cons_self, splitOn_groups read, partsOf, if_neg some_]
        exact (ipv6Loop_front_iff (by simp)).mpr
          ⟨front, values, [[]], read, rfl, by rw [List.length_nil]; omega, .open_ rfl⟩
    | @behind front back frontValues backValues readFront readBack some_ short =>
        rw [List.append_assoc, List.cons_append, List.cons_append]
        apply parseIpv6_run readFront readBack short _ stored
        rw [List.splitOn_append_cons_self, splitOn_groups readBack, partsOf, if_neg some_]
        exact .inr rfl

end Ipv6

end Pkix.Identity
