import Pkix.Identity.Mailbox
import Pkix.Lib.Numerals

/-! Server names: a DNS hostname or an IP literal, with the parsers of both and the text form. -/

namespace Pkix.Identity

open Pkix.Path Numerals

/-- An array of a fixed number of octets. -/
abbrev Octets (count : Nat) := { bytes : Bytes // bytes.length = count }

inductive IpRepr
  | v4 (octets : Octets 4)
  | v6 (octets : Octets 16)
  deriving DecidableEq, Repr

def IpRepr.asBytes : IpRepr → Bytes
  | .v4 octets => octets.val
  | .v6 octets => octets.val

inductive ServerNameRepr
  | dns (name : Text)
  | ip (address : IpRepr)
  deriving DecidableEq, Repr

structure ServerName where
  repr : ServerNameRepr
  deriving DecidableEq, Repr

def u16Limit : Nat := 65536
def u32Limit : Nat := 4294967296

section Ipv4

def parseOctet (part : Text) : Option UInt8 :=
  if part.isEmpty ∨ (1 < part.length ∧ part.head? = some '0') then none
  else do
    let value ← fromStrRadix 10 u32Limit part
    if 255 < value then none else some (UInt8.ofNat value)

/-- The loop over the parts, with the octets read so far. -/
def ipv4Loop : (parts : List Text) → (octets : Bytes) → Option Bytes
  | [], octets => some octets
  | part :: rest, octets =>
      if octets.length = 4 then none
      else (parseOctet part).bind (fun octet => ipv4Loop rest (octets ++ [octet]))

def parseIpv4 (text : Text) : Option (Octets 4) := do
  let octets ← ipv4Loop (text.splitOn '.') []
  if filled : octets.length = 4 then some ⟨octets, filled⟩ else none

end Ipv4

section Ipv6

/-- The loop over the parts, with the groups read so far and the place of the run of zeros. A part
with other than ASCII characters has no value, whatever its length in bytes. -/
def ipv6Loop : (parts : List Text) → (groups : List Nat) → (zeroRunAt : Option Nat) →
    Option (List Nat × Option Nat)
  | [], groups, zeroRunAt => some (groups, zeroRunAt)
  | part :: rest, groups, zeroRunAt =>
      if part.isEmpty then
        if zeroRunAt.isSome then
          if rest.isEmpty then some (groups, zeroRunAt) else none
        else if rest.isEmpty then some (groups, some groups.length)
        else ipv6Loop rest groups (some groups.length)
      else if 4 < part.length then none
      else
        (fromStrRadix 16 u16Limit part).bind (fun value =>
          if 8 < (groups ++ [value]).length then none
          else ipv6Loop rest (groups ++ [value]) zeroRunAt)

def groupBytes (group : Nat) : Bytes := [UInt8.ofNat (group / 256), UInt8.ofNat (group % 256)]

theorem length_flatMap_groupBytes (groups : List Nat) :
    (groups.flatMap groupBytes).length = 2 * groups.length := by
  induction groups with
  | nil => rfl
  | cons group groups ih =>
      rw [List.flatMap_cons, List.length_append, ih, List.length_cons]
      simp only [groupBytes, List.length_cons, List.length_nil]
      omega

def toOctets (groups : List Nat) (eight : groups.length = 8) : Octets 16 :=
  ⟨groups.flatMap groupBytes, by rw [length_flatMap_groupBytes, eight]⟩

/-- The groups with the elided zeros filled in. -/
def fillRun (groups : List Nat) (zeroRunAt : Nat) : List Nat :=
  groups.take zeroRunAt ++ List.replicate (8 - groups.length) 0 ++ groups.drop zeroRunAt

theorem length_fillRun {groups : List Nat} (short : groups.length < 8) (zeroRunAt : Nat) :
    (fillRun groups zeroRunAt).length = 8 := by
  have whole := congrArg List.length (List.take_append_drop zeroRunAt groups)
  rw [List.length_append] at whole
  rw [fillRun, List.length_append, List.length_append, List.length_replicate]
  omega

def fillGroups (groups : List Nat) : (zeroRunAt : Option Nat) → Option (Octets 16)
  | none => if eight : groups.length = 8 then some (toOctets groups eight) else none
  | some zeroRunAt =>
      if short : groups.length < 8 then
        some (toOctets (fillRun groups zeroRunAt) (length_fillRun short zeroRunAt))
      else none

def parseIpv6 (text : Text) : Option (Octets 16) :=
  if [':', ':'] <+: text then
    if text = [':', ':'] then some (toOctets (List.replicate 8 0) rfl)
    else
      (ipv6Loop ((text.splitOn ':').drop 2) [] (some 0)).bind (fun read =>
        fillGroups read.1 read.2)
  else if [':'] <+: text then none
  else (ipv6Loop (text.splitOn ':') [] none).bind (fun read => fillGroups read.1 read.2)

end Ipv6

def parseIpLiteral (text : Text) : Option IpRepr :=
  if text.isEmpty then none
  else if text.contains ':' then (parseIpv6 text).map .v6
  else (parseIpv4 text).map .v4

/-- The text between a pair of square brackets, or the text as it is. -/
def unbracket : Text → Text
  | '[' :: rest => if rest.getLast? = some ']' then rest.dropLast else '[' :: rest
  | text => text

namespace ServerName

def ipAddress (ip : Text) : Result ServerName :=
  if (unbracket ip).contains '%' then .error .malformedInput
  else
    match parseIpLiteral (unbracket ip) with
    | none => .error .malformedInput
    | some parsed => .ok ⟨.ip parsed⟩

section Parse

variable (domainToAscii : Text → Option Text)

def dnsName (name : Text) : Result ServerName := do
  let normalized ← normalizeDnsName domainToAscii name
  .ok ⟨.dns normalized⟩

/-- The IP literal is tried first. -/
def parse (input : Text) : Result ServerName :=
  match ipAddress input with
  | .ok name => .ok name
  | .error _ => dnsName domainToAscii input

end Parse

/-- The groups of two octets each, the high one first. -/
def fromBeBytes : Bytes → List Nat
  | high :: low :: rest => (256 * high.toNat + low.toNat) :: fromBeBytes rest
  | _ => []

def display (name : ServerName) : Text :=
  match name.repr with
  | .dns hostname => hostname
  | .ip (.v4 octets) =>
      ['.'].intercalate (octets.val.map (fun octet => Nat.toDigits 10 octet.toNat))
  | .ip (.v6 octets) =>
      '[' :: [':'].intercalate ((fromBeBytes octets.val).map (Nat.toDigits 16)) ++ [']']

end ServerName

end Pkix.Identity
