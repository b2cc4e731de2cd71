import Pkix.Identity.IpGrammar

/-! Which texts the IP address parser accepts: the textual grammar, and nothing else but for plus
signs and a single colon at the end. -/

namespace Pkix.Identity

open Pkix.Path Numerals Splitting StdText

section Characters

variable {signs : Bool} {char : Char} {text : Text}

/-- A character that no part of an address holds. -/
structure Foreign (signs : Bool) (char : Char) : Prop where
  noDigit : digitValue char = none
  noSign : signs = true → char ≠ '+'

theorem foreign_bracket (signs : Bool) : Foreign signs '[' := ⟨by decide, fun _ => by decide⟩

theorem foreign_percent (signs : Bool) : Foreign signs '%' := ⟨by decide, fun _ => by decide⟩

theorem foreign_colon (signs : Bool) : Foreign signs ':' := ⟨by decide, fun _ => by decide⟩

theorem foreign_plus : Foreign false '+' := ⟨by decide, nofun⟩

theorem groups_notMem {parts : List Text} {values : List Nat} (foreign : Foreign signs char)
    (notColon : char ≠ ':') (read : List.Forall₂ (HexGroup signs) parts values) :
    char ∉ [':'].intercalate parts := by
  intro present
  rcases mem_intercalate present with colon | ⟨part, listed, inside⟩
  · exact notColon colon
  · rcases forall₂_part read listed with ⟨_, group⟩
    exact notMem_of_numeral foreign.noDigit foreign.noSign group.1 inside

theorem Ipv4Text.notMem {octets : Bytes} (foreign : Foreign signs char) (notPeriod : char ≠ '.')
    (read : Ipv4Text signs text octets) : char ∉ text := by
  cases read with
  | quad read =>
      intro present
      rcases mem_intercalate present with period | ⟨part, listed, inside⟩
      · exact notPeriod period
      · rcases forall₂_part read listed with ⟨_, decimal⟩
        exact notMem_of_numeral foreign.noDigit foreign.noSign decimal.1 inside

theorem Ipv6Text.notMem {groups : List Nat} (foreign : Foreign signs char) (notColon : char ≠ ':')
    (read : Ipv6Text signs text groups) : char ∉ text := by
  cases read with
  | full read => exact groups_notMem foreign notColon read
  | elided readFront readBack =>
      simp [groups_notMem foreign notColon readFront, groups_notMem foreign notColon readBack,
        notColon]

theorem OpenText.notMem {groups : List Nat} (foreign : Foreign signs char) (notColon : char ≠ ':')
    (read : OpenText signs text groups) : char ∉ text := by
  cases read with
  | run read => simp [groups_notMem foreign notColon read, notColon]
  | behind readFront readBack =>
      simp [groups_notMem foreign notColon readFront, groups_notMem foreign notColon readBack,
        notColon]

theorem IpText.notMem {address : IpRepr} (foreign : Foreign signs char) (notPeriod : char ≠ '.')
    (notColon : char ≠ ':') (read : IpText signs text address) : char ∉ text := by
  cases read with
  | v4 read => exact read.notMem foreign notPeriod
  | v6 read => exact read.notMem foreign notColon

theorem Ipv4Text.no_colon {octets : Bytes} (read : Ipv4Text signs text octets) : ':' ∉ text :=
  read.notMem (foreign_colon signs) (by decide)

theorem Ipv6Text.colon {groups : List Nat} (read : Ipv6Text signs text groups) : ':' ∈ text := by
  cases read with
  | @full parts _ read eight =>
      match parts, eight with
      | first :: second :: rest, _ => simp [List.intercalate_cons_cons]
  | elided => simp

theorem OpenText.colon {groups : List Nat} (read : OpenText signs text groups) : ':' ∈ text := by
  cases read with
  | run => simp
  | behind => simp

end Characters

section Signs

variable {text : Text} {parts : List Text} {values : List Nat}

theorem mem_intercalate_of_mem {mark item : Char} {part : Text} (listed : part ∈ parts)
    (inside : item ∈ part) : item ∈ [mark].intercalate parts := by
  induction parts with
  | nil => cases listed
  | cons first parts ih =>
      by_cases last : parts = []
      · rw [last, List.mem_singleton] at listed
        rw [last, List.intercalate_singleton, ← listed]
        exact inside
      · rw [List.intercalate_cons_of_ne_nil last, List.mem_append, List.mem_append]
        rcases List.mem_cons.mp listed with here | later
        · exact .inl (.inl (here ▸ inside))
        · exact .inr (ih later)

/-- Without a plus sign among the parts, each is read without one. -/
theorem forall₂_unsigned {mark : Char} {withSigns without : Text → Nat → Prop}
    (unsigned : '+' ∉ [mark].intercalate parts)
    (plain : ∀ part value, '+' ∉ part → withSigns part value → without part value)
    (read : List.Forall₂ withSigns parts values) : List.Forall₂ without parts values := by
  rw [List.forall₂_iff_get] at read ⊢
  refine ⟨read.1, fun index inParts inValues => ?_⟩
  apply plain _ _ _ (read.2 index inParts inValues)
  intro sign
  exact unsigned (mem_intercalate_of_mem (List.get_mem parts ⟨index, inParts⟩) sign)

theorem DecimalOctet.unsigned (part : Text) (value : Nat) (plain : '+' ∉ part)
    (read : DecimalOctet true part value) : DecimalOctet false part value :=
  ⟨numeral_unsigned plain read.1, read.2⟩

theorem HexGroup.unsigned (part : Text) (value : Nat) (plain : '+' ∉ part)
    (read : HexGroup true part value) : HexGroup false part value :=
  ⟨numeral_unsigned plain read.1, read.2⟩

theorem Ipv4Text.unsigned {octets : Bytes} (plain : '+' ∉ text)
    (read : Ipv4Text true text octets) : Ipv4Text false text octets := by
  cases read with
  | quad each four => exact .quad (forall₂_unsigned plain DecimalOctet.unsigned each) four

theorem Ipv6Text.unsigned {groups : List Nat} (plain : '+' ∉ text)
    (read : Ipv6Text true text groups) : Ipv6Text false text groups := by
  cases read with
  | full each eight => exact .full (forall₂_unsigned plain HexGroup.unsigned each) eight
  | elided readFront readBack short =>
      rw [List.mem_append, List.mem_cons, List.mem_cons, not_or, not_or, not_or] at plain
      exact .elided (forall₂_unsigned plain.1 HexGroup.unsigned readFront)
        (forall₂_unsigned plain.2.2.2 HexGroup.unsigned readBack) short

theorem IpText.unsigned {address : IpRepr} (plain : '+' ∉ text) (read : IpText true text address) :
    IpText false text address := by
  cases read with
  | v4 read => exact .v4 (read.unsigned plain)
  | v6 read stored => exact .v6 (read.unsigned plain) stored

theorem Ipv4Text.withSigns {octets : Bytes} (read : Ipv4Text false text octets) :
    Ipv4Text true text octets := by
  cases read with
  | quad each four => exact .quad (each.imp fun _ _ => DecimalOctet.withSigns) four

theorem Ipv6Text.withSigns {groups : List Nat} (read : Ipv6Text false text groups) :
    Ipv6Text true text groups := by
  cases read with
  | full each eight => exact .full (each.imp fun _ _ => HexGroup.withSigns) eight
  | elided readFront readBack short =>
      exact .elided (readFront.imp fun _ _ => HexGroup.withSigns)
        (readBack.imp fun _ _ => HexGroup.withSigns) short

theorem IpText.withSigns {address : IpRepr} (read : IpText false text address) :
    IpText true text address := by
  cases read with
  | v4 read => exact .v4 read.withSigns
  | v6 read stored => exact .v6 read.withSigns stored

end Signs

section LoneColon

variable {signs : Bool} {text : Text} {groups : List Nat}

/-- The text ends with a colon that no colon precedes. -/
def LoneColon (text : Text) : Prop :=
  ∃ front, text = front ++ [':'] ∧ front.getLast? ≠ some ':'

theorem groups_last {parts : List Text} {values : List Nat}
    (read : List.Forall₂ (HexGroup signs) parts values) (some_ : parts ≠ []) (more : Text) :
    (more ++ [':'].intercalate parts).getLast? ≠ some ':' := by
  induction read generalizing more with
  | nil => exact absurd rfl some_
  | @cons part value later values group _ ih =>
      by_cases last : later = []
      · rw [last, List.intercalate_singleton, List.getLast?_append_of_ne_nil _ group.ne_nil]
        intro colon
        exact group.no_colon (List.mem_of_getLast? colon)
      · rw [List.intercalate_cons_of_ne_nil last, ← List.append_assoc]
        exact ih last _

theorem OpenText.loneColon (read : OpenText signs text groups) : LoneColon text := by
  cases read with
  | run read some_ =>
      have last := groups_last read some_ []
      exact ⟨_, rfl, last⟩
  | @behind front back _ _ _ readBack some_ =>
      have last := groups_last readBack some_ ([':'].intercalate front ++ [':', ':'])
      rw [List.append_assoc] at last
      exact ⟨_, rfl, last⟩

theorem Ipv6Text.not_loneColon (read : Ipv6Text signs text groups) : ¬ LoneColon text := by
  intro ⟨start, shape, alone⟩
  cases read with
  | @full parts _ read eight =>
      have some_ := List.ne_nil_of_length_eq_add_one eight
      apply groups_last read some_ []
      rw [List.nil_append, shape, List.getLast?_concat]
  | @elided front back _ _ _ readBack =>
      by_cases none_ : back = []
      · have double : [':'].intercalate front ++ ':' :: ':' :: [':'].intercalate back =
            ([':'].intercalate front ++ [':']) ++ [':'] := by
          rw [none_, List.append_assoc]
          rfl
        rw [double] at shape
        rw [← (List.append_inj' shape rfl).1, List.getLast?_concat] at alone
        exact alone rfl
      · apply groups_last readBack none_ ([':'].intercalate front ++ [':', ':'])
        rw [List.append_assoc]
        change ([':'].intercalate front ++ ':' :: ':' :: [':'].intercalate back).getLast? = _
        rw [shape, List.getLast?_concat]

/-- No address in its textual grammar is open at the end. -/
theorem OpenText.not_ipText {address : IpRepr} (read : OpenText true text groups) :
    ¬ IpText signs text address := by
  intro strict
  cases strict with
  | v4 quad => exact quad.no_colon read.colon
  | v6 closed => exact closed.not_loneColon read.loneColon

theorem OpenText.length_groups (read : OpenText signs text groups) : groups.length = 8 := by
  cases read with
  | run read _ short =>
      rw [List.length_append, List.length_replicate, ← read.length_eq]
      omega
  | behind readFront readBack _ short =>
      rw [List.length_append, List.length_append, List.length_replicate, ← readFront.length_eq,
        ← readBack.length_eq]
      omega

end LoneColon

section Parser

variable {body text : Text} {address : IpRepr} {name : ServerName}

/-- The texts the parser accepts. -/
inductive Accepted (body : Text) : IpRepr → Prop
  | lax {address : IpRepr} (read : IpText true body address) : Accepted body address
  | openEnd {groups : List Nat} {octets : Octets 16} (read : OpenText true body groups)
      (stored : octets.val = groups.flatMap groupBytes) : Accepted body (.v6 octets)

theorem Accepted.notMem {char : Char} (foreign : Foreign true char) (notPeriod : char ≠ '.')
    (notColon : char ≠ ':') (accepted : Accepted body address) : char ∉ body := by
  cases accepted with
  | lax read => exact read.notMem foreign notPeriod notColon
  | openEnd read _ => exact read.notMem foreign notColon

theorem Ipv4Text.ne_nil {signs : Bool} {octets : Bytes} (read : Ipv4Text signs text octets) :
    text ≠ [] := by
  cases read with
  | @quad parts _ read four =>
      match parts, four with
      | first :: second :: rest, _ => simp [List.intercalate_cons_cons]

theorem parseIpLiteral_some_iff : parseIpLiteral body = some address ↔ Accepted body address := by
  unfold parseIpLiteral
  constructor
  · intro parsed
    split at parsed
    · cases parsed
    · rename_i filled
      rw [List.isEmpty_iff] at filled
      split at parsed
      · rcases Option.map_eq_some_iff.mp parsed with ⟨octets, read, same⟩
        cases same
        rcases laxText_of_parseIpv6 filled read with ⟨groups, closed | openly, stored⟩
        · exact .lax (.v6 closed stored)
        · exact .openEnd openly stored
      · rcases Option.map_eq_some_iff.mp parsed with ⟨octets, read, same⟩
        cases same
        exact .lax (.v4 (parseIpv4_some_iff.mp read))
  · intro accepted
    cases accepted with
    | lax read =>
        cases read with
        | v4 read =>
            have noColon : body.contains ':' = false := by simpa using read.no_colon
            have filled : body.isEmpty = false := by simpa using read.ne_nil
            rw [filled, noColon, parseIpv4_some_iff.mpr read]
            rfl
        | v6 read stored =>
            have colon : body.contains ':' = true := by simpa using read.colon
            have filled : body.isEmpty = false := by simpa using List.ne_nil_of_mem read.colon
            rw [filled, colon, parseIpv6_of_laxText (.inl read) stored]
            rfl
    | openEnd read stored =>
        have colon : body.contains ':' = true := by simpa using read.colon
        have filled : body.isEmpty = false := by simpa using List.ne_nil_of_mem read.colon
        rw [filled, colon, parseIpv6_of_laxText (.inr read) stored]
        rfl

/-- Between brackets or not, a text without an opening bracket is what the parser reads. -/
theorem bracketed_iff (plain : '[' ∉ body) : Bracketed body text ↔ unbracket text = body := by
  constructor
  · intro bracketed
    cases bracketed with
    | bare =>
        unfold unbracket
        split
        · exact absurd List.mem_cons_self plain
        · rfl
    | pair =>
        change (if (body ++ [']']).getLast? = some ']' then (body ++ [']']).dropLast
          else '[' :: (body ++ [']'])) = body
        rw [List.getLast?_concat, if_pos rfl, List.dropLast_concat]
  · intro same
    unfold unbracket at same
    split at same
    · rename_i rest
      split at same
      · rename_i closed
        rcases List.getLast?_eq_some_iff.mp closed with ⟨inner, joined⟩
        rw [joined, List.dropLast_concat] at same
        rw [joined, ← same]
        exact .pair
      · rw [← same] at plain
        exact absurd List.mem_cons_self plain
    · rw [same]
      exact .bare

theorem Accepted.no_bracket (accepted : Accepted body address) : '[' ∉ body :=
  accepted.notMem (foreign_bracket true) (by decide) (by decide)

theorem ipAddress_ok_iff :
    ServerName.ipAddress text = .ok name ↔
      ∃ body address, Bracketed body text ∧ Accepted body address ∧ name = ⟨.ip address⟩ := by
  unfold ServerName.ipAddress
  constructor
  · intro parsed
    split at parsed
    · cases parsed
    · split at parsed
      · cases parsed
      · rename_i address literal
        cases parsed
        have accepted := parseIpLiteral_some_iff.mp literal
        exact ⟨_, address, (bracketed_iff accepted.no_bracket).mpr rfl, accepted, rfl⟩
  · intro ⟨body, address, bracketed, accepted, same⟩
    rw [(bracketed_iff accepted.no_bracket).mp bracketed]
    have noZone : body.contains '%' = false := by
      simpa using accepted.notMem (foreign_percent true) (by decide) (by decide)
    rw [noZone, parseIpLiteral_some_iff.mpr accepted, same]
    rfl

end Parser

/-- The name that a text stands for by the textual grammar. -/
def DenotesIp (text : Text) (name : ServerName) : Prop :=
  ∃ body address, Bracketed body text ∧ IpText false body address ∧ name = ⟨.ip address⟩

theorem DenotesIp.no_sign {text : Text} {name : ServerName} (denotes : DenotesIp text name) :
    '+' ∉ text := by
  rcases denotes with ⟨body, _, bracketed, strict, _⟩
  have plain := strict.notMem foreign_plus (by decide) (by decide)
  cases bracketed with
  | bare => exact plain
  | pair => simp [plain]

theorem Bracketed.mem {body text : Text} {char : Char} (bracketed : Bracketed body text)
    (inside : char ∈ body) : char ∈ text := by
  cases bracketed with
  | bare => exact inside
  | pair => simp [inside]

theorem not_denotesIp_of_open {text body : Text} {groups : List Nat} {name : ServerName}
    (bracketed : Bracketed body text) (read : OpenText true body groups) :
    ¬ DenotesIp text name := by
  intro ⟨other, _, otherBracketed, strict, _⟩
  have noBracket := strict.notMem (foreign_bracket false) (by decide) (by decide)
  have plain := read.notMem (foreign_bracket true) (by decide)
  have same : other = body :=
    ((bracketed_iff noBracket).mp otherBracketed).symm.trans ((bracketed_iff plain).mp bracketed)
  rw [same] at strict
  exact read.not_ipText strict

theorem ipAddress_of_denotesIp {text : Text} {name : ServerName} (denotes : DenotesIp text name) :
    ServerName.ipAddress text = .ok name := by
  rcases denotes with ⟨body, address, bracketed, strict, same⟩
  exact ipAddress_ok_iff.mpr ⟨body, address, bracketed, .lax strict.withSigns, same⟩

/-- The parser accepts a text exactly when it is an address, and stores what it stands for, unless
the text is an address but for plus signs or for a single colon at its end. -/
theorem ipAddress_exact_iff (text : Text) :
    (∀ name, ServerName.ipAddress text = .ok name ↔ DenotesIp text name) ↔
      ¬ ∃ body, Bracketed body text ∧ Lapse body := by
  constructor
  · intro exact_ ⟨body, bracketed, lapse⟩
    rcases lapse with ⟨address, read, sign⟩ | ⟨groups, read⟩
    · have parsed := ipAddress_ok_iff.mpr ⟨body, address, bracketed, .lax read, rfl⟩
      exact ((exact_ _).mp parsed).no_sign (bracketed.mem sign)
    · have accepted : Accepted body (.v6 (toOctets groups read.length_groups)) :=
        .openEnd read rfl
      have parsed := ipAddress_ok_iff.mpr ⟨body, _, bracketed, accepted, rfl⟩
      exact not_denotesIp_of_open bracketed read ((exact_ _).mp parsed)
  · intro strictly name
    constructor
    · intro parsed
      rcases ipAddress_ok_iff.mp parsed with ⟨body, address, bracketed, accepted, same⟩
      cases accepted with
      | lax read =>
          have plain : '+' ∉ body := fun sign => strictly ⟨body, bracketed, .inl ⟨address, read, sign⟩⟩
          exact ⟨body, address, bracketed, read.unsigned plain, same⟩
      | openEnd read _ => exact absurd ⟨body, bracketed, .inr ⟨_, read⟩⟩ strictly
    · exact ipAddress_of_denotesIp

/-- A plus sign and a lone colon that the parser lets through. -/
theorem sign_and_openEnd_accepted :
    (ServerName.ipAddress "+1.2.3.4".toList = .ok ⟨.ip (.v4 ⟨[1, 2, 3, 4], rfl⟩)⟩ ∧
      ∀ name, ¬ DenotesIp "+1.2.3.4".toList name) ∧
    (ServerName.ipAddress "fe80:".toList =
        .ok ⟨.ip (.v6 ⟨[254, 128, 0, 0, 0, 0, 0, 0, 0, 0, 0, 0, 0, 0, 0, 0], rfl⟩)⟩ ∧
      ∀ name, ¬ DenotesIp "fe80:".toList name) := by
  have group : HexGroup true "fe80".toList 0xfe80 := ⟨by decide +kernel, by decide⟩
  have openEnd : OpenText true "fe80:".toList ([0xfe80] ++ List.replicate 7 0) :=
    .run (.cons group .nil) (List.cons_ne_nil _ _) (by decide)
  refine ⟨⟨by decide +kernel, ?_⟩, by decide +kernel, ?_⟩
  · intro name denotes
    exact denotes.no_sign (by decide)
  · intro name
    exact not_denotesIp_of_open .bare openEnd

end Pkix.Identity
