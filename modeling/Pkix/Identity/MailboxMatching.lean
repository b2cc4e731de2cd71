import Pkix.Identity.DnsNames
import Pkix.Path.ConcreteCodec

/-! Matching a certificate's alternative names against a reference mailbox. -/

namespace Pkix.Identity

open Pkix.Path Splitting StdText Walk

def oidSmtpUtf8Mailbox : ObjectIdentifier := ⟨[1, 3, 6, 1, 5, 5, 7, 8, 9]⟩

def asStr (name : Ia5String) : Text := name.bytes.map fun octet => Char.ofNat octet.toNat

def decodeUtf8StringAny (any : Any) : Result Text :=
  if any.tag = .utf8String then
    match any.value.toByteArray.utf8Decode? with
    | some chars => .ok chars.toList
    | none => .error .malformedSan
  else .error .malformedSan

def matchesRfc822Mailbox (sanValue : Text) (target : MailboxName) : Bool :=
  match splitLast '@' sanValue with
  | none => false
  | some (sanLocal, sanDomain) =>
      if sanLocal ≠ target.localPart then false
      else eqIgnoreAsciiCase sanDomain target.domainALabel

def findSan (codec : DerCodec) (cert : Certificate) : Result SubjectAltName :=
  match findExtension cert oidSubjectAltName with
  | none => .error .missingSan
  | some extension =>
      match codec.subjectAltName extension.extnValue with
      | none => .error .malformedSan
      | some san => .ok san

section Verify

variable (domainToAscii : Text → Option Text)

def matchesSmtpUtf8Mailbox (sanValue : Text) (target : MailboxName) : Bool :=
  match splitLast '@' sanValue with
  | none => false
  | some (sanLocal, sanDomain) =>
      if sanLocal ≠ target.localPart then false
      else
        match domainToAscii sanDomain with
        | none => false
        | some sanDomainA => eqIgnoreAsciiCase sanDomainA target.domainALabel

/-- The SmtpUTF8Mailbox arm does not look at `isInternationalized`. -/
def sanEntryMatchesMailbox (entry : GeneralName) (target : MailboxName) : Bool :=
  match entry with
  | .rfc822Name rfc822 =>
      if target.isInternationalized then false else matchesRfc822Mailbox (asStr rfc822) target
  | .otherName typeId value =>
      if typeId = oidSmtpUtf8Mailbox then
        match decodeUtf8StringAny value with
        | .ok utf8 => matchesSmtpUtf8Mailbox domainToAscii utf8 target
        | .error _ => false
      else false
  | _ => false

def verifyMailbox (codec : DerCodec) (cert : Certificate) (mailbox : MailboxName) :
    Result Unit := do
  let san ← findSan codec cert
  if san.any (fun entry => sanEntryMatchesMailbox domainToAscii entry mailbox) then .ok ()
  else .error .noMatchingSan

end Verify

section Specification

variable (domainToAscii : Text → Option Text) (mailbox : MailboxName)

/-- The text is a mailbox with these two parts, cut at its last at-sign. -/
def Presents (text localPart domain : Text) : Prop :=
  text = localPart ++ '@' :: domain ∧ '@' ∉ domain

def Rfc822Equals (entry : GeneralName) : Prop :=
  ∃ rfc822 domain, entry = .rfc822Name rfc822 ∧
    asStr rfc822 = mailbox.localPart ++ '@' :: domain ∧
    toAsciiLowercase domain = toAsciiLowercase mailbox.domainALabel

def SmtpUtf8Equals (entry : GeneralName) : Prop :=
  ∃ value text domain aLabel, entry = .otherName oidSmtpUtf8Mailbox value ∧
    decodeUtf8StringAny value = .ok text ∧ Presents text mailbox.localPart domain ∧
    domainToAscii domain = some aLabel ∧
    toAsciiLowercase aLabel = toAsciiLowercase mailbox.domainALabel

/-- Each form speaks for its own mailboxes: the verdict is the one of the form that the
local part calls for, and the other form never matches. -/
structure FormsExact (codec : DerCodec) (cert : Certificate) (san : SubjectAltName) : Prop where
  verdict : verifyMailbox domainToAscii codec cert mailbox = .ok () ↔
    (isAscii mailbox.localPart = true ∧ ∃ entry ∈ san, Rfc822Equals mailbox entry) ∨
      (isAscii mailbox.localPart = false ∧
        ∃ entry ∈ san, SmtpUtf8Equals domainToAscii mailbox entry)
  smtpUtf8Apart : isAscii mailbox.localPart = true → ∀ typeId value,
    .otherName typeId value ∈ san →
      sanEntryMatchesMailbox domainToAscii (.otherName typeId value) mailbox = false
  rfc822Apart : isAscii mailbox.localPart = false → ∀ rfc822, .rfc822Name rfc822 ∈ san →
    sanEntryMatchesMailbox domainToAscii (.rfc822Name rfc822) mailbox = false

end Specification

section Parsed

variable {domainToAscii : Text → Option Text}

theorem at_mem_lowercase {text : Text} : '@' ∈ toAsciiLowercase text ↔ '@' ∈ text :=
  mem_lowercase_iff (by decide)

theorem at_notMem_of_normalize {name domain : Text}
    (normalized : normalizeDnsName domainToAscii name = .ok domain) : '@' ∉ domain :=
  notMem_of_valid (valid_of_normalize normalized) (by decide) (by decide)

/-- What the parser guarantees of the fields. -/
theorem parse_ok {text : Text} {mailbox : MailboxName}
    (parsed : MailboxName.parse domainToAscii text = .ok mailbox) :
    '@' ∉ mailbox.localPart ∧ '@' ∉ mailbox.domainALabel ∧
      mailbox.isInternationalized = !isAscii mailbox.localPart := by
  unfold MailboxName.parse at parsed
  split at parsed
  · cases parsed
  · split at parsed
    · cases parsed
    · split at parsed
      · cases parsed
      · rename_i single
        split at parsed
        · cases parsed
        · obtain ⟨_, _, parsed⟩ := bind_ok.mp parsed
          obtain ⟨domain, normalized, same⟩ := bind_ok.mp parsed
          cases same
          exact ⟨by simpa using single, at_notMem_of_normalize normalized, rfl⟩

end Parsed

section Matching

variable {domainToAscii : Text → Option Text} {mailbox : MailboxName}

theorem splitLast_presents {text localPart domain : Text} :
    splitLast '@' text = some (localPart, domain) ↔ Presents text localPart domain :=
  splitLast_some_iff '@' text localPart domain

/-- A domain equal to the parsed one holds no at-sign, so the cut at the last one is the
only one to look at. -/
theorem matchesRfc822Mailbox_iff (plain : '@' ∉ mailbox.domainALabel) (sanValue : Text) :
    matchesRfc822Mailbox sanValue mailbox = true ↔
      ∃ domain, sanValue = mailbox.localPart ++ '@' :: domain ∧
        toAsciiLowercase domain = toAsciiLowercase mailbox.domainALabel := by
  have absent {domain : Text}
      (same : toAsciiLowercase domain = toAsciiLowercase mailbox.domainALabel) : '@' ∉ domain := by
    rwa [← at_mem_lowercase, same, at_mem_lowercase]
  have cut (domain : Text) : (sanValue = mailbox.localPart ++ '@' :: domain ∧
      toAsciiLowercase domain = toAsciiLowercase mailbox.domainALabel) ↔
      (splitLast '@' sanValue = some (mailbox.localPart, domain) ∧
        toAsciiLowercase domain = toAsciiLowercase mailbox.domainALabel) := by
    rw [splitLast_presents, Presents]
    constructor
    · exact fun equal => ⟨⟨equal.1, absent equal.2⟩, equal.2⟩
    · exact fun equal => ⟨equal.1.1, equal.2⟩
  simp only [cut]
  unfold matchesRfc822Mailbox
  cases splitLast '@' sanValue with
  | none => simp
  | some parts =>
      obtain ⟨sanLocal, sanDomain⟩ := parts
      by_cases same : sanLocal = mailbox.localPart
      · simp [same, eqIgnoreAsciiCase]
      · simp [same]

theorem matchesSmtpUtf8Mailbox_iff (sanValue : Text) :
    matchesSmtpUtf8Mailbox domainToAscii sanValue mailbox = true ↔
      ∃ domain aLabel, Presents sanValue mailbox.localPart domain ∧
        domainToAscii domain = some aLabel ∧
        toAsciiLowercase aLabel = toAsciiLowercase mailbox.domainALabel := by
  unfold matchesSmtpUtf8Mailbox
  simp only [← splitLast_presents]
  cases splitLast '@' sanValue with
  | none => simp
  | some parts =>
      obtain ⟨sanLocal, sanDomain⟩ := parts
      by_cases same : sanLocal = mailbox.localPart
      · cases converted : domainToAscii sanDomain with
        | none => simp [same, converted]
        | some aLabel => simp [same, converted, eqIgnoreAsciiCase]
      · simp [same]

/-- What makes one entry match. -/
theorem sanEntryMatchesMailbox_iff (plain : '@' ∉ mailbox.domainALabel) (entry : GeneralName) :
    sanEntryMatchesMailbox domainToAscii entry mailbox = true ↔
      (mailbox.isInternationalized = false ∧ Rfc822Equals mailbox entry) ∨
        SmtpUtf8Equals domainToAscii mailbox entry := by
  cases entry with
  | rfc822Name rfc822 =>
      cases international : mailbox.isInternationalized <;>
        simp [sanEntryMatchesMailbox, Rfc822Equals, SmtpUtf8Equals,
          matchesRfc822Mailbox_iff plain, international]
  | otherName typeId value =>
      by_cases smtp : typeId = oidSmtpUtf8Mailbox
      · cases decoded : decodeUtf8StringAny value with
        | ok text =>
            simp [sanEntryMatchesMailbox, Rfc822Equals, SmtpUtf8Equals, smtp, decoded,
              matchesSmtpUtf8Mailbox_iff]
        | error failure =>
            simp [sanEntryMatchesMailbox, Rfc822Equals, SmtpUtf8Equals, smtp, decoded]
      · simp [sanEntryMatchesMailbox, Rfc822Equals, SmtpUtf8Equals, smtp]
  | _ => simp [sanEntryMatchesMailbox, Rfc822Equals, SmtpUtf8Equals]

/-- A walk over the alternative names ends well at the first entry that matches. -/
theorem anyEntry_ok_iff {codec : DerCodec} {cert : Certificate} {san : SubjectAltName}
    {accepts : GeneralName → Bool} (wellFormed : findSan codec cert = .ok san) :
    (do
        let san ← findSan codec cert
        if san.any accepts then .ok () else .error .noMatchingSan : Result Unit) = .ok () ↔
      ∃ entry ∈ san, accepts entry = true := by
  rw [wellFormed, ← List.any_eq_true]
  change (if san.any accepts then .ok () else .error .noMatchingSan : Result Unit) = .ok () ↔ _
  split
  · rename_i found
    simp [found]
  · rename_i missing
    simp [missing]

theorem verifyMailbox_ok_iff {codec : DerCodec} {cert : Certificate} {san : SubjectAltName}
    (wellFormed : findSan codec cert = .ok san) :
    verifyMailbox domainToAscii codec cert mailbox = .ok () ↔
      ∃ entry ∈ san, sanEntryMatchesMailbox domainToAscii entry mailbox = true :=
  anyEntry_ok_iff wellFormed

/-- The two forms are exact and apart unless the mailbox is ASCII and an SmtpUTF8Mailbox
entry equals it. -/
theorem verifyMailbox_exact_iff {codec : DerCodec} {cert : Certificate} {san : SubjectAltName}
    {text : Text} (parsed : MailboxName.parse domainToAscii text = .ok mailbox)
    (wellFormed : findSan codec cert = .ok san) :
    FormsExact domainToAscii mailbox codec cert san ↔
      ¬ (isAscii mailbox.localPart = true ∧
        ∃ entry ∈ san, SmtpUtf8Equals domainToAscii mailbox entry) := by
  obtain ⟨_, plain, international⟩ := parse_ok parsed
  constructor
  · intro exact both
    obtain ⟨ascii, entry, inside, equal⟩ := both
    have matched := (sanEntryMatchesMailbox_iff plain entry).mpr (.inr equal)
    obtain ⟨value, _, _, _, form, _⟩ := equal
    rw [form] at inside matched
    rw [exact.smtpUtf8Apart ascii _ value inside] at matched
    cases matched
  · intro apart
    refine ⟨?_, ?_, ?_⟩
    · rw [verifyMailbox_ok_iff wellFormed]
      simp only [sanEntryMatchesMailbox_iff plain, international]
      cases ascii : isAscii mailbox.localPart with
      | true =>
          have none : ∀ entry ∈ san, ¬ SmtpUtf8Equals domainToAscii mailbox entry :=
            fun entry inside equal => apart ⟨ascii, entry, inside, equal⟩
          constructor
          · intro matched
            obtain ⟨entry, inside, ⟨_, equal⟩ | equal⟩ := matched
            · exact .inl ⟨rfl, entry, inside, equal⟩
            · exact absurd equal (none entry inside)
          · intro found
            rcases found with ⟨_, entry, inside, equal⟩ | ⟨not, _⟩
            · exact ⟨entry, inside, .inl ⟨rfl, equal⟩⟩
            · cases not
      | false => simp
    · intro ascii typeId value inside
      by_contra matched
      rcases (sanEntryMatchesMailbox_iff plain _).mp (Bool.not_eq_false _ ▸ matched) with
        ⟨_, rfc822, _, form, _⟩ | equal
      · cases form
      · exact apart ⟨ascii, _, inside, equal⟩
    · intro notAscii rfc822 inside
      simp [sanEntryMatchesMailbox, international, notAscii]

end Matching

namespace Concrete

open Path.Concrete

/-- Conversion of names that are ASCII already. -/
def asciiToAscii (name : Text) : Option Text :=
  if isAscii name then some (toAsciiLowercase name) else none

def octets (text : Text) : Bytes := text.map fun char => UInt8.ofNat char.toNat

def aliceText : Text := "alice@example.com".toList

def alice : MailboxName := ⟨"alice".toList, "example.com".toList, false⟩

def rfc822San : SubjectAltName := [.rfc822Name ⟨octets "alice@Example.com".toList, by decide +kernel⟩]

def smtpUtf8San : SubjectAltName := [.otherName oidSmtpUtf8Mailbox ⟨.utf8String, octets aliceText⟩]

def rfc822Content : Bytes := tlv 0x30 (tlv 0x81 (octets "alice@Example.com".toList))

def smtpUtf8Content : Bytes :=
  tlv 0x30 (tlv 0xA0 (encodeOid oidSmtpUtf8Mailbox ++
    tlv 0xA0 (encodeAny ⟨.utf8String, octets aliceText⟩)))

def sanCodec : DerCodec :=
  tableCodec { subjectAltName := [(rfc822Content, rfc822San), (smtpUtf8Content, smtpUtf8San)] }

def certWithSan (content : Bytes) : Certificate :=
  issue 1 (commonName [65]) (commonName [66]) [1, 2, 3] [4, 5] [sanExtension content]

theorem alice_parsed : MailboxName.parse asciiToAscii aliceText = .ok alice := by decide +kernel

/-- A certificate with an rfc822Name only is matched exactly. -/
theorem rfc822Name_exact :
    FormsExact asciiToAscii alice sanCodec (certWithSan rfc822Content) rfc822San := by
  apply (verifyMailbox_exact_iff alice_parsed (by decide +kernel)).mpr
  intro both
  obtain ⟨_, entry, inside, equal⟩ := both
  obtain ⟨_, _, _, _, form, _⟩ := equal
  rw [List.mem_singleton.mp inside] at form
  cases form

/-- An ASCII mailbox accepted through an SmtpUTF8Mailbox entry alone. -/
theorem asciiMailbox_through_smtpUtf8 :
    MailboxName.parse asciiToAscii aliceText = .ok alice ∧
      findSan sanCodec (certWithSan smtpUtf8Content) = .ok smtpUtf8San ∧
      verifyMailbox asciiToAscii sanCodec (certWithSan smtpUtf8Content) alice = .ok () ∧
      ¬ FormsExact asciiToAscii alice sanCodec (certWithSan smtpUtf8Content) smtpUtf8San := by
  have matched : sanEntryMatchesMailbox asciiToAscii
      (.otherName oidSmtpUtf8Mailbox ⟨.utf8String, octets aliceText⟩) alice = true := by
    decide +kernel
  refine ⟨alice_parsed, by decide +kernel, by decide +kernel, ?_⟩
  intro exact
  rw [exact.smtpUtf8Apart (by decide) _ _ (List.mem_singleton_self _)] at matched
  cases matched

end Concrete

end Pkix.Identity
