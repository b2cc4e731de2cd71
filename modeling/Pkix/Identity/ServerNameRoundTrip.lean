import Pkix.Identity.DnsMatching
import Pkix.Identity.IpExactness

/-! Parsing the text form of a parsed server name: what comes back is the name itself, unless the
normalization of a DNS name has turned it into an IP literal. -/

namespace Pkix.Identity

open Pkix.Path Numerals Splitting StdText Walk

section Addresses

theorem decimalOctet_toDigits {value : Nat} (small : value ≤ 255) :
    DecimalOctet false (Nat.toDigits 10 value) value := by
  refine ⟨readDigits_toDigits (by decide) (by decide) value, small, ?_⟩
  intro ⟨long, leading⟩
  by_cases positive : 0 < value
  · exact head_toDigits_ne_zero (by decide) positive leading
  · have zero : value = 0 := by omega
    rw [zero, Nat.toDigits_zero] at long
    exact absurd long (by decide)

theorem hexGroup_toDigits {value : Nat} (small : value < 65536) :
    HexGroup false (Nat.toDigits 16 value) value :=
  ⟨readDigits_toDigits (by decide) (by decide) value,
    (Nat.length_toDigits_le_iff (by decide) (by decide)).mpr small⟩

theorem forall₂_map {written : Nat → Text} {reads : Text → Nat → Prop} {values : List Nat}
    (each : ∀ value ∈ values, reads (written value) value) :
    List.Forall₂ reads (values.map written) values := by
  induction values with
  | nil => exact .nil
  | cons value values ih =>
      rw [List.forall_mem_cons] at each
      exact .cons each.1 (ih each.2)

theorem fromBeBytes_lt (bytes : Bytes) : ∀ group ∈ ServerName.fromBeBytes bytes, group < 65536 := by
  induction bytes using ServerName.fromBeBytes.induct with
  | case1 high low rest ih =>
      rw [ServerName.fromBeBytes, List.forall_mem_cons]
      have highBound := high.toNat_lt
      have lowBound := low.toNat_lt
      exact ⟨by omega, ih⟩
  | case2 bytes other =>
      rw [ServerName.fromBeBytes]
      · nofun
      · exact other

theorem groupBytes_pair (high low : UInt8) :
    groupBytes (256 * high.toNat + low.toNat) = [high, low] := by
  have lowBound := low.toNat_lt
  have quotient : (256 * high.toNat + low.toNat) / 256 = high.toNat := by omega
  have remainder : (256 * high.toNat + low.toNat) % 256 = low.toNat := by omega
  rw [groupBytes, quotient, remainder, UInt8.ofNat_toNat, UInt8.ofNat_toNat]

/-- An even number of octets is cut into groups and put together again. -/
theorem fromBeBytes_groups {count : Nat} {bytes : Bytes} (even : bytes.length = 2 * count) :
    (ServerName.fromBeBytes bytes).length = count ∧
      (ServerName.fromBeBytes bytes).flatMap groupBytes = bytes := by
  induction count generalizing bytes with
  | zero =>
      rw [List.length_eq_zero_iff.mp even]
      exact ⟨rfl, rfl⟩
  | succ count ih =>
      match bytes, even with
      | high :: low :: rest, even =>
          simp only [List.length_cons] at even
          rcases ih (by omega : rest.length = 2 * count) with ⟨length_, joined⟩
          rw [ServerName.fromBeBytes, List.length_cons, length_, List.flatMap_cons,
            groupBytes_pair, joined]
          exact ⟨rfl, rfl⟩

theorem display_v4 (octets : Octets 4) :
    Ipv4Text false (ServerName.display ⟨.ip (.v4 octets)⟩) octets.val := by
  have each : ∀ value ∈ octets.val.map UInt8.toNat,
      DecimalOctet false (Nat.toDigits 10 value) value := by
    intro value listed
    rcases List.mem_map.mp listed with ⟨octet, _, same⟩
    have bound := octet.toNat_lt
    exact decimalOctet_toDigits (by omega)
  have quad := Ipv4Text.quad (forall₂_map each) (by rw [List.length_map, List.length_map, octets.2])
  rw [List.map_map, List.map_map] at quad
  have stored : octets.val.map (UInt8.ofNat ∘ UInt8.toNat) = octets.val := by
    simp [Function.comp_def]
  rw [stored] at quad
  exact quad

theorem display_v6 (octets : Octets 16) :
    ∃ body, ServerName.display ⟨.ip (.v6 octets)⟩ = '[' :: body ++ [']'] ∧
      IpText false body (.v6 octets) := by
  have even : octets.val.length = 2 * 8 := octets.2
  rcases fromBeBytes_groups even with ⟨eight, joined⟩
  have each : ∀ value ∈ ServerName.fromBeBytes octets.val,
      HexGroup false (Nat.toDigits 16 value) value :=
    fun value listed => hexGroup_toDigits (fromBeBytes_lt octets.val value listed)
  have groups := Ipv6Text.full (forall₂_map each) (by rw [List.length_map, eight])
  exact ⟨_, rfl, .v6 groups joined.symm⟩

/-- The text form of an address is in the textual grammar. -/
theorem denotesIp_display (address : IpRepr) :
    DenotesIp (ServerName.display ⟨.ip address⟩) ⟨.ip address⟩ := by
  cases address with
  | v4 octets => exact ⟨_, _, .bare, .v4 (display_v4 octets), rfl⟩
  | v6 octets =>
      rcases display_v6 octets with ⟨body, shown, read⟩
      rw [shown]
      exact ⟨body, _, .pair, read, rfl⟩

end Addresses

section Quads

variable {text quad : Text}

def IsQuad (text : Text) : Prop := ∃ octets, Ipv4Text false text octets

theorem Ipv4Text.four_parts {signs : Bool} {octets : Bytes} (read : Ipv4Text signs text octets) :
    (text.splitOn '.').length = 4 := by
  cases read with
  | @quad parts _ read four =>
      have some_ := List.ne_nil_of_length_eq_add_one four
      rw [splitOn_quad read some_, four]

theorem Ipv4Text.length_octets {signs : Bool} {octets : Bytes}
    (read : Ipv4Text signs text octets) : octets.length = 4 := by
  cases read with
  | quad read four => rw [List.length_map, ← read.length_eq, four]

theorem IsQuad.address (isQuad : IsQuad text) : ∃ octets, IpText false text (.v4 octets) := by
  rcases isQuad with ⟨octets, read⟩
  exact ⟨⟨octets, read.length_octets⟩, .v4 read⟩

/-- A character of a dotted quad: a digit or the dot. -/
theorem char_of_quad {char : Char} (isQuad : IsQuad text) (present : char ∈ text) :
    char = '.' ∨ ∃ digit, toDigit 10 char = some digit := by
  rcases isQuad with ⟨octets, read⟩
  cases read with
  | quad read =>
      rcases mem_intercalate present with period | ⟨part, listed, inside⟩
      · exact .inl period
      · rcases forall₂_part read listed with ⟨_, decimal⟩
        exact .inr (readDigits_digits decimal.1 inside)

theorem decimal_range {char : Char} {digit : Nat} (isDigit : toDigit 10 char = some digit) :
    48 ≤ char.toNat ∧ char.toNat ≤ 57 := by
  rw [toDigit, Option.filter_eq_some_iff, decide_eq_true_eq] at isDigit
  rcases isDigit with ⟨value, small⟩
  unfold digitValue at value
  split at value
  · assumption
  · split at value
    · have same := Option.some.inj value
      omega
    · split at value
      · have same := Option.some.inj value
        omega
      · cases value

theorem unlettered_of_quad {char : Char} (isQuad : IsQuad text) (present : char ∈ text) :
    Unlettered char := by
  rcases char_of_quad isQuad present with period | ⟨_, isDigit⟩
  · rw [period]
    decide
  · have range := decimal_range isDigit
    exact ⟨fun upper => by omega, fun lower => by omega⟩

/-- Lower-casing takes nothing but the quad itself to a quad. -/
theorem lowercase_quad_iff (isQuad : IsQuad quad) : toAsciiLowercase text = quad ↔ text = quad := by
  constructor
  · intro lowered
    have fixed : ∀ char ∈ text, char.toLower = char := by
      intro char present
      have inside : char.toLower ∈ quad := lowered ▸ List.mem_map_of_mem present
      exact ((toLower_eq_iff (unlettered_of_quad isQuad inside)).mp rfl).symm
    rw [← lowered, toAsciiLowercase, List.map_congr_left fixed, List.map_id']
  · intro same
    rw [same, toAsciiLowercase]
    have fixed : ∀ char ∈ quad, char.toLower = char :=
      fun char present => (toLower_eq_iff (unlettered_of_quad isQuad present)).mpr rfl
    rw [List.map_congr_left fixed, List.map_id']

theorem isAscii_of_quad (isQuad : IsQuad text) : isAscii text = true := by
  rw [isAscii_iff]
  intro char present
  rcases char_of_quad isQuad present with period | ⟨_, isDigit⟩
  · rw [period]
    decide
  · have range := decimal_range isDigit
    omega

end Quads

section RoundTrip

variable {domainToAscii : Text → Option Text} {text target : Text} {name : ServerName}

/-- Normalization takes the text to a dotted quad, which the address parser did not see. -/
def LandsOnQuad (domainToAscii : Text → Option Text) (text : Text) : Prop :=
  ∃ quad, IsQuad quad ∧ (text = quad ++ ['.'] ∨
    (isAscii (stripTrailingDot text) = false ∧ domainToAscii (stripTrailingDot text) = some quad))

/-- Among the valid host names, the dotted quads are what the address parser accepts. -/
theorem ipAddress_of_valid (valid : validateAsciiDns target = .ok ()) :
    (∃ name, ServerName.ipAddress target = .ok name) ↔ IsQuad target := by
  have noSign : '+' ∉ target := notMem_of_valid valid (by decide) (by decide)
  have noColon : ':' ∉ target := notMem_of_valid valid (by decide) (by decide)
  have noBracket : '[' ∉ target := notMem_of_valid valid (by decide) (by decide)
  constructor
  · intro ⟨name, parsed⟩
    rcases ipAddress_ok_iff.mp parsed with ⟨body, address, bracketed, accepted, _⟩
    cases bracketed with
    | pair => exact absurd List.mem_cons_self noBracket
    | bare =>
        cases accepted with
        | lax read =>
            cases read.unsigned noSign with
            | v4 strict => exact ⟨_, strict⟩
            | v6 strict => exact absurd strict.colon noColon
        | openEnd read => exact absurd read.colon noColon
  · intro isQuad
    rcases isQuad.address with ⟨octets, read⟩
    exact ⟨_, ipAddress_of_denotesIp ⟨_, _, .bare, read, rfl⟩⟩

theorem parse_of_ipAddress (parsed : ServerName.ipAddress text = .ok name) :
    ServerName.parse domainToAscii text = .ok name := by
  rw [ServerName.parse, parsed]

theorem serverName_parse_ok (accepted : ServerName.parse domainToAscii text = .ok name) :
    (∃ address, ServerName.ipAddress text = .ok ⟨.ip address⟩ ∧ name = ⟨.ip address⟩) ∨
      (∀ other, ServerName.ipAddress text ≠ .ok other) ∧
        ∃ target, normalizeDnsName domainToAscii text = .ok target ∧ name = ⟨.dns target⟩ := by
  unfold ServerName.parse at accepted
  split at accepted
  · rename_i address parsed
    cases accepted
    rcases ipAddress_ok_iff.mp parsed with ⟨_, address, _, _, same⟩
    exact .inl ⟨address, by rw [parsed, same], same⟩
  · rename_i failed
    refine .inr ⟨?_, dnsName_ok accepted⟩
    intro other parsed
    rw [parsed] at failed
    cases failed

/-- A normal name is its own normal form. -/
theorem normalize_normal (valid : validateAsciiDns target = .ok ())
    (lowered : toAsciiLowercase target = target) :
    normalizeDnsName domainToAscii target = .ok target := by
  apply normalizeDnsName_ok_iff.mpr
  rw [stripTrailingDot_of_valid valid]
  exact ⟨notMem_of_valid valid (by decide) (by decide), ne_nil_of_valid valid,
    .inl ⟨isAscii_of_valid valid, valid, lowered⟩⟩

theorem parse_normal_iff (valid : validateAsciiDns target = .ok ())
    (lowered : toAsciiLowercase target = target) :
    ServerName.parse domainToAscii target = .ok ⟨.dns target⟩ ↔ ¬ IsQuad target := by
  rw [← ipAddress_of_valid valid]
  unfold ServerName.parse
  cases parsed : ServerName.ipAddress target with
  | ok other =>
      rcases ipAddress_ok_iff.mp parsed with ⟨_, address, _, _, same⟩
      simp [same]
  | error failure =>
      simp [ServerName.dnsName, normalize_normal valid lowered, bind, Except.bind]

theorem stripTrailingDot_concat (front : Text) : stripTrailingDot (front ++ ['.']) = front := by
  rw [stripTrailingDot, List.getLast?_concat, if_pos rfl, List.dropLast_concat]

/-- For a text that is no address, what it lands on is its normal form. -/
theorem landsOnQuad_iff (unread : ∀ other, ServerName.ipAddress text ≠ .ok other)
    (normalized : normalizeDnsName domainToAscii text = .ok target) :
    LandsOnQuad domainToAscii text ↔ IsQuad target := by
  rcases normalizeDnsName_ok_iff.mp normalized with ⟨_, _, kinds⟩
  constructor
  · intro ⟨quad, isQuad, landed⟩
    rcases landed with same | ⟨international, converted⟩
    · rw [same, stripTrailingDot_concat] at kinds
      rcases kinds with ⟨_, _, lowered⟩ | ⟨international, _⟩
      · rw [← lowered, (lowercase_quad_iff isQuad).mpr rfl]
        exact isQuad
      · rw [isAscii_of_quad isQuad] at international
        cases international
    · rcases kinds with ⟨ascii, _⟩ | ⟨_, again, _⟩
      · rw [international] at ascii
        cases ascii
      · rw [converted] at again
        cases again
        exact isQuad
  · intro isQuad
    refine ⟨target, isQuad, ?_⟩
    rcases kinds with ⟨_, _, lowered⟩ | ⟨international, converted, _⟩
    · have stripped := (lowercase_quad_iff isQuad).mp lowered
      unfold stripTrailingDot at stripped
      split at stripped
      · rename_i last
        rcases List.getLast?_eq_some_iff.mp last with ⟨front, joined⟩
        rw [joined, List.dropLast_concat] at stripped
        exact .inl (by rw [joined, stripped])
      · rcases isQuad.address with ⟨octets, read⟩
        rw [← stripped] at read
        exact absurd (ipAddress_of_denotesIp ⟨_, _, .bare, read, rfl⟩) (unread _)
    · exact .inr ⟨international, converted⟩

theorem foreign_of_nonAscii {char : Char} (beyond : ¬ char.toNat < 128) (signs : Bool) :
    Foreign signs char := by
  refine ⟨?_, ?_⟩
  · unfold digitValue
    rw [if_neg (by omega), if_neg (by omega), if_neg (by omega)]
  · intro _ same
    rw [same] at beyond
    exact beyond (by decide)

theorem mem_of_mem_stripTrailingDot {char : Char} (present : char ∈ stripTrailingDot text) :
    char ∈ text := by
  unfold stripTrailingDot at present
  split at present
  · exact List.mem_of_mem_dropLast present
  · exact present

/-- An address is in ASCII. -/
theorem isAscii_of_ipAddress (parsed : ServerName.ipAddress text = .ok name) :
    isAscii (stripTrailingDot text) = true := by
  rcases ipAddress_ok_iff.mp parsed with ⟨body, _, bracketed, accepted, _⟩
  rw [isAscii_iff]
  intro char present
  by_contra beyond
  have notIn := accepted.notMem (foreign_of_nonAscii beyond true)
    (fun same => beyond (same ▸ by decide)) (fun same => beyond (same ▸ by decide))
  have inText := mem_of_mem_stripTrailingDot present
  cases bracketed with
  | bare => exact notIn inText
  | pair =>
      simp only [List.cons_append, List.mem_cons, List.mem_append, List.not_mem_nil,
        or_false] at inText
      rcases inText with opens | inBody | closes
      · exact beyond (opens ▸ by decide)
      · exact notIn inBody
      · exact beyond (closes ▸ by decide)

theorem not_landsOnQuad_of_ipAddress (parsed : ServerName.ipAddress text = .ok name) :
    ¬ LandsOnQuad domainToAscii text := by
  intro ⟨quad, isQuad, landed⟩
  rcases landed with same | ⟨international, _⟩
  · rcases isQuad with ⟨octets, quad_⟩
    have noBracket : '[' ∉ quad ++ ['.'] := by
      simpa using quad_.notMem (foreign_bracket false) (by decide)
    have noColon : ':' ∉ quad ++ ['.'] := by
      simpa using quad_.no_colon
    rcases ipAddress_ok_iff.mp parsed with ⟨body, _, bracketed, accepted, _⟩
    rw [same] at bracketed
    generalize shape : quad ++ ['.'] = dotted at bracketed noBracket noColon
    cases bracketed with
    | pair => exact absurd List.mem_cons_self noBracket
    | bare =>
        cases accepted with
        | lax read =>
            cases read with
            | v4 read =>
                have parts := read.four_parts
                rw [← shape, List.splitOn_append_cons_self, List.length_append,
                  quad_.four_parts] at parts
                exact absurd parts (by decide)
            | v6 read => exact noColon read.colon
        | openEnd read => exact noColon read.colon
  · rw [isAscii_of_ipAddress parsed] at international
    cases international

/-- A parsed name comes back from its text form exactly when normalization has not landed on a
dotted quad. -/
theorem parse_display_iff
    (lowerCase : ∀ domain ascii, domainToAscii domain = some ascii → toAsciiLowercase ascii = ascii)
    (accepted : ServerName.parse domainToAscii text = .ok name) :
    ServerName.parse domainToAscii name.display = .ok name ↔ ¬ LandsOnQuad domainToAscii text := by
  rcases serverName_parse_ok accepted with ⟨address, parsed, same⟩ | ⟨unread, target, normalized, same⟩
  · have shown := ipAddress_of_denotesIp (denotesIp_display address)
    rw [same, parse_of_ipAddress shown]
    simp only [true_iff]
    exact not_landsOnQuad_of_ipAddress parsed
  · have lowered : toAsciiLowercase target = target := by
      rcases normalizeDnsName_ok_iff.mp normalized with
        ⟨_, _, ⟨_, _, lowered⟩ | ⟨_, converted, _⟩⟩
      · rw [← lowered, lowercase_lowercase]
      · exact lowerCase _ _ converted
    rw [same, landsOnQuad_iff unread normalized]
    exact parse_normal_iff (valid_of_normalize normalized) lowered

end RoundTrip

namespace Concrete

theorem asciiToAscii_lowerCase (domain ascii : Text) (converted : asciiToAscii domain = some ascii) :
    toAsciiLowercase ascii = ascii := by
  unfold asciiToAscii at converted
  split at converted
  · rw [← Option.some.inj converted, lowercase_lowercase]
  · cases converted

theorem host_display :
    ServerName.parse asciiToAscii (ServerName.display ⟨.dns host⟩) = .ok ⟨.dns host⟩ ↔
      ¬ LandsOnQuad asciiToAscii hostText :=
  parse_display_iff asciiToAscii_lowerCase (by decide +kernel)

/-- A dotted quad in absolute form is stored as a host name and comes back as an address. -/
theorem absoluteQuad_returns_address :
    ServerName.parse asciiToAscii "1.2.3.4.".toList = .ok ⟨.dns "1.2.3.4".toList⟩ ∧
      ServerName.parse asciiToAscii (ServerName.display ⟨.dns "1.2.3.4".toList⟩) =
        .ok ⟨.ip (.v4 ⟨[1, 2, 3, 4], rfl⟩)⟩ := by
  exact ⟨by decide +kernel, by decide +kernel⟩

end Concrete

end Pkix.Identity
