import Mathlib.Data.List.Infix
import Pkix.Lib.Splitting
import Pkix.Path.Asn1

/-! Mailbox names: the parser of a reference mailbox and what it leaves in the fields. -/

namespace Pkix.Identity

open Pkix.Path Splitting

/-- Text by its characters. -/
abbrev Text := List Char

inductive IdentityError
  | malformedInput
  | noMatchingSan
  | missingSan
  | malformedSan
  deriving DecidableEq, Repr

abbrev Result (α : Type) := Except IdentityError α

structure MailboxName where
  localPart : Text
  domainALabel : Text
  isInternationalized : Bool
  deriving DecidableEq, Repr

def dnsNameMaxLen : Nat := 253
def dnsLabelMaxLen : Nat := 63

def isAscii (text : Text) : Bool := text.all fun char => decide (char.toNat < 128)

def toAsciiLowercase (text : Text) : Text := text.map Char.toLower

def eqIgnoreAsciiCase (a b : Text) : Bool := toAsciiLowercase a == toAsciiLowercase b

/-- The characters of Unicode's White_Space property. -/
def isWhitespace (char : Char) : Bool :=
  [0x20, 0x85, 0xA0, 0x1680, 0x2028, 0x2029, 0x202F, 0x205F, 0x3000].contains char.toNat ||
    decide (0x09 ≤ char.toNat ∧ char.toNat ≤ 0x0D) ||
    decide (0x2000 ≤ char.toNat ∧ char.toNat ≤ 0x200A)

/-- White space, NUL, angle brackets, the comma and the quotation mark. -/
def forbiddenInLocal (char : Char) : Bool :=
  isWhitespace char || [0x00, 0x3C, 0x3E, 0x2C, 0x22].contains char.toNat

/-- RFC 5322 atext other than letters and digits, and the period. -/
def atextSpecials : List Nat :=
  [33, 35, 36, 37, 38, 39, 42, 43, 45, 47, 61, 63, 94, 95, 96, 123, 124, 125, 126, 46]

def validateAsciiLocalPart (text : Text) : Result Unit :=
  if text.isEmpty then .error .malformedInput
  else if text.head? = some '.' ∨ text.getLast? = some '.' ∨ ['.', '.'] <:+: text then
    .error .malformedInput
  else if text.all (fun char => char.isAlphanum || atextSpecials.contains char.toNat) then .ok ()
  else .error .malformedInput

def labelChar (char : Char) : Bool := char.isAlphanum || char == '-' || char == '_'

def validateAsciiLabel (label : Text) : Bool :=
  !label.isEmpty && decide (label.length ≤ dnsLabelMaxLen) && label.head? != some '-' &&
    label.getLast? != some '-' && label.all labelChar

/-- The loop over the name, with the label read so far. -/
def validateLabels : (label rest : Text) → Bool
  | label, [] => validateAsciiLabel label
  | label, char :: rest =>
      if char = '.' then validateAsciiLabel label && validateLabels [] rest
      else validateLabels (label ++ [char]) rest

def validateAsciiDns (name : Text) : Result Unit :=
  if dnsNameMaxLen < (String.ofList name).utf8ByteSize then .error .malformedInput
  else if validateLabels [] name then .ok ()
  else .error .malformedInput

def stripTrailingDot (name : Text) : Text :=
  if name.getLast? = some '.' then name.dropLast else name

section Parse

variable (domainToAscii : Text → Option Text)

def normalizeDnsName (name : Text) : Result Text :=
  if name.isEmpty then .error .malformedInput
  else if name.contains '*' then .error .malformedInput
  else if (stripTrailingDot name).isEmpty then .error .malformedInput
  else if isAscii (stripTrailingDot name) then do
    validateAsciiDns (stripTrailingDot name)
    .ok (toAsciiLowercase (stripTrailingDot name))
  else
    match domainToAscii (stripTrailingDot name) with
    | none => .error .malformedInput
    | some ascii => do
        validateAsciiDns ascii
        .ok ascii

def MailboxName.parse (mailbox : Text) : Result MailboxName :=
  match splitLast '@' mailbox with
  | none => .error .malformedInput
  | some (localRaw, domainRaw) =>
      if localRaw.isEmpty ∨ domainRaw.isEmpty then .error .malformedInput
      else if localRaw.contains '@' then .error .malformedInput
      else if localRaw.any forbiddenInLocal then .error .malformedInput
      else do
        let _ ← (if isAscii localRaw then validateAsciiLocalPart localRaw else .ok ())
        let domainALabel ← normalizeDnsName domainToAscii domainRaw
        .ok { localPart := localRaw, domainALabel, isInternationalized := !isAscii localRaw }

end Parse

end Pkix.Identity
