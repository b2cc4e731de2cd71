import Pkix.Chain.EntryPoints

/-! What an entry point guarantees of the chain it accepts and of its leaf, and that a
time stamper is good for nothing else. -/

namespace Pkix.Chain

open Pkix.Path
open Pkix.Identity
open Pkix.Profiles (idKpTimeStamping)

section Specification

variable (der : PurposeCodec) (leaf : Certificate)

/-- A name of the leaf stands for the server. -/
def NamesServer (name : ServerName) : Prop :=
  ∃ san, findSan der.toDerCodec leaf = .ok san ∧
    match name.repr with
    | .dns target => ∃ pattern, .dnsName pattern ∈ san ∧
        Covers (stripTrailingDot (asStr pattern)) target
    | .ip address => .ipAddress address.asBytes ∈ san

/-- A name of the leaf is the mailbox, in the form that the local part calls for or as an
SmtpUTF8Mailbox. -/
def NamesMailbox (mailbox : MailboxName) : Prop :=
  ∃ san, findSan der.toDerCodec leaf = .ok san ∧ ∃ entry ∈ san,
    (mailbox.isInternationalized = false ∧ Rfc822Equals mailbox entry) ∨
      SmtpUtf8Equals der.domainToAscii mailbox entry

/-- The key only signs. -/
def KeyUsageBits.SignsOnly (bits : KeyUsageBits) : Prop :=
  ∀ forbidden ∈ [bits.keyEncipherment, bits.dataEncipherment, bits.keyAgreement,
    bits.keyCertSign, bits.crlSign, bits.encipherOnly, bits.decipherOnly], forbidden = false

/-- Stamping time is the only purpose of the leaf, and signing all that its key may do. -/
structure StampsTime : Prop where
  sole : ∃ ext, findExtension leaf oidExtendedKeyUsage = some ext ∧ ext.critical = true ∧
    der.extendedKeyUsage ext.extnValue = some [idKpTimeStamping]
  signs : ∃ usage, ExtHolds der.keyUsageBits leaf oidKeyUsage usage ∧
    ∀ bits, usage = some bits → bits.SignsOnly

/-- What the purpose asks of the leaf beyond the profile. -/
def Purpose.Suits : Purpose → Prop
  | .tlsServer name => NamesServer der leaf name
  | .tlsClientDns identity => ∀ name, identity = some name → NamesServer der leaf name
  | .tlsClientMailbox identity => ∀ mailbox, identity = some mailbox →
      NamesMailbox der leaf mailbox
  | .smimeSigner mailbox => NamesMailbox der leaf mailbox
  | .smimeRecipient mailbox => NamesMailbox der leaf mailbox
  | .codeSigner => True
  | .timeStamper => StampsTime der leaf

variable (domainToAscii : Text → Option Text)

def ParsedServer (name : ServerName) : Prop :=
  ∃ text, ServerName.dnsName domainToAscii text = .ok name ∨ ServerName.ipAddress text = .ok name

def ParsedMailbox (mailbox : MailboxName) : Prop :=
  ∃ text, MailboxName.parse domainToAscii text = .ok mailbox

/-- The names of the purpose come from their parsers, which alone build them. -/
def Purpose.Parsed : Purpose → Prop
  | .tlsServer name => ParsedServer domainToAscii name
  | .tlsClientDns identity => ∀ name, identity = some name → ParsedServer domainToAscii name
  | .tlsClientMailbox identity => ∀ mailbox, identity = some mailbox →
      ParsedMailbox domainToAscii mailbox
  | .smimeSigner mailbox => ParsedMailbox domainToAscii mailbox
  | .smimeRecipient mailbox => ParsedMailbox domainToAscii mailbox
  | .codeSigner => True
  | .timeStamper => True

end Specification

section Checks

variable {der : PurposeCodec} {leaf : Certificate}

theorem orIdentity_ok_iff {outcome : Identity.Result Unit} :
    orIdentity outcome = .ok () ↔ outcome = .ok () := by
  cases outcome <;> simp [orIdentity]

theorem findSan_of_verifyDnsName {codec : DerCodec} {name : ServerName}
    (verified : verifyDnsName codec leaf name = .ok ()) : ∃ san, findSan codec leaf = .ok san := by
  rcases Walk.bind_ok.mp verified with ⟨san, found, _⟩
  exact ⟨san, found⟩

theorem findSan_of_verifyMailbox {codec : DerCodec} {domainToAscii : Text → Option Text}
    {mailbox : MailboxName} (verified : verifyMailbox domainToAscii codec leaf mailbox = .ok ()) :
    ∃ san, findSan codec leaf = .ok san := by
  rcases Walk.bind_ok.mp verified with ⟨san, found, _⟩
  exact ⟨san, found⟩

theorem ipAddress_ok {text : Text} {name : ServerName}
    (read : ServerName.ipAddress text = .ok name) : ∃ address, name = ⟨.ip address⟩ := by
  unfold ServerName.ipAddress at read
  split at read
  · cases read
  · split at read
    · cases read
    · rename_i address _
      exact ⟨address, (Except.ok.inj read).symm⟩

theorem sanEntryMatches_ip_iff {address : IpRepr} {entry : GeneralName} :
    sanEntryMatches ⟨.ip address⟩ entry = true ↔ entry = .ipAddress address.asBytes := by
  cases entry <;> simp [sanEntryMatches]

theorem verifyDnsName_iff {name : ServerName} (parsed : ParsedServer der.domainToAscii name) :
    verifyDnsName der.toDerCodec leaf name = .ok () ↔ NamesServer der leaf name := by
  have entries {san : SubjectAltName} : (∃ entry ∈ san, sanEntryMatches name entry = true) ↔
      match name.repr with
      | .dns target => ∃ pattern, .dnsName pattern ∈ san ∧
          Covers (stripTrailingDot (asStr pattern)) target
      | .ip address => .ipAddress address.asBytes ∈ san := by
    rcases parsed with ⟨text, named | addressed⟩
    · rcases dnsName_ok named with ⟨target, normalized, rfl⟩
      have valid := valid_of_normalize normalized
      simp only [sanEntryMatches_dns_iff, matchesDnsSan_iff valid]
      constructor
      · rintro ⟨entry, listed, pattern, rfl, covers⟩
        exact ⟨pattern, listed, covers⟩
      · rintro ⟨pattern, listed, covers⟩
        exact ⟨_, listed, pattern, rfl, covers⟩
    · rcases ipAddress_ok addressed with ⟨address, rfl⟩
      simp only [sanEntryMatches_ip_iff]
      constructor
      · rintro ⟨entry, listed, rfl⟩
        exact listed
      · intro listed
        exact ⟨_, listed, rfl⟩
  constructor
  · intro verified
    rcases findSan_of_verifyDnsName verified with ⟨san, found⟩
    exact ⟨san, found, entries.mp ((verifyDnsName_ok_iff found).mp verified)⟩
  · intro ⟨san, found, stands⟩
    exact (verifyDnsName_ok_iff found).mpr (entries.mpr stands)

theorem verifyMailbox_iff {mailbox : MailboxName} (parsed : ParsedMailbox der.domainToAscii mailbox) :
    verifyMailbox der.domainToAscii der.toDerCodec leaf mailbox = .ok () ↔
      NamesMailbox der leaf mailbox := by
  rcases parsed with ⟨text, read⟩
  have plain := (parse_ok read).2.1
  constructor
  · intro verified
    rcases findSan_of_verifyMailbox verified with ⟨san, found⟩
    rcases (verifyMailbox_ok_iff found).mp verified with ⟨entry, listed, matched⟩
    exact ⟨san, found, entry, listed, (sanEntryMatchesMailbox_iff plain entry).mp matched⟩
  · intro ⟨san, found, entry, listed, equal⟩
    exact (verifyMailbox_ok_iff found).mpr
      ⟨entry, listed, (sanEntryMatchesMailbox_iff plain entry).mpr equal⟩

theorem enforceTimestampingEkuCriticalAndSole_ok_iff :
    enforceTimestampingEkuCriticalAndSole der leaf = .ok () ↔
      ∃ ext, findExtension leaf oidExtendedKeyUsage = some ext ∧ ext.critical = true ∧
        der.extendedKeyUsage ext.extnValue = some [idKpTimeStamping] := by
  unfold enforceTimestampingEkuCriticalAndSole findExtension Certificate.extensions
  cases leaf.tbsCertificate.extensions with
  | none => simp
  | some exts =>
      simp only [Option.getD_some]
      cases found : exts.find? (fun ext => ext.extnId == oidExtendedKeyUsage) with
      | none => simp
      | some ext =>
          simp only [Option.some.injEq, exists_eq_left']
          cases ext.critical with
          | false => simp
          | true =>
              simp only [Bool.not_true, Bool.false_eq_true, if_false, true_and]
              split
              · rename_i malformed
                simp [malformed]
              · rename_i oid decoded
                rw [decoded]
                by_cases same : oid = idKpTimeStamping
                · simp [same]
                · simp [same]
              · rename_i oids several decoded
                rw [decoded]
                simp only [reduceCtorEq, Option.some.injEq, false_iff]
                exact several idKpTimeStamping

theorem KeyUsageBits.signsOnly_iff (bits : KeyUsageBits) :
    bits.SignsOnly ↔ ¬(bits.keyEncipherment || bits.dataEncipherment || bits.keyAgreement ||
      bits.keyCertSign || bits.crlSign || bits.encipherOnly || bits.decipherOnly) = true := by
  simp [SignsOnly, and_assoc]

theorem enforceTimestampingKuShape_ok_iff :
    enforceTimestampingKuShape der leaf = .ok () ↔
      ∃ usage, ExtHolds der.keyUsageBits leaf oidKeyUsage usage ∧
        ∀ bits, usage = some bits → bits.SignsOnly := by
  unfold enforceTimestampingKuShape ExtHolds findExtension Certificate.extensions
  cases leaf.tbsCertificate.extensions with
  | none => simp
  | some exts =>
      simp only [Option.getD_some]
      cases found : exts.find? (fun ext => ext.extnId == oidKeyUsage) with
      | none => simp
      | some ext =>
          cases decoded : der.keyUsageBits ext.extnValue with
          | none => simp [decoded]
          | some bits =>
              simp only [Option.some.injEq, exists_eq_left', decoded]
              split
              · rename_i reused
                simp [bits.signsOnly_iff.not.mpr (not_not.mpr reused)]
              · rename_i signing
                simp [bits.signsOnly_iff.mpr signing]

/-- The check of the leaf that the entry point of the purpose makes. -/
def Purpose.check (der : PurposeCodec) : Purpose → Certificate → PurposeResult Unit
  | .tlsServer name => fun leaf => orIdentity (verifyDnsName der.toDerCodec leaf name)
  | .tlsClientDns identity => fun leaf =>
      match identity with
      | some name => orIdentity (verifyDnsName der.toDerCodec leaf name)
      | none => .ok ()
  | .tlsClientMailbox identity => fun leaf =>
      match identity with
      | some mailbox => orIdentity (verifyMailbox der.domainToAscii der.toDerCodec leaf mailbox)
      | none => .ok ()
  | .smimeSigner mailbox => fun leaf =>
      orIdentity (verifyMailbox der.domainToAscii der.toDerCodec leaf mailbox)
  | .smimeRecipient mailbox => fun leaf =>
      orIdentity (verifyMailbox der.domainToAscii der.toDerCodec leaf mailbox)
  | .codeSigner => fun _ => .ok ()
  | .timeStamper => fun leaf => do
      enforceTimestampingEkuCriticalAndSole der leaf
      enforceTimestampingKuShape der leaf

theorem Purpose.check_ok_iff (purpose : Purpose) (parsed : purpose.Parsed der.domainToAscii) :
    purpose.check der leaf = .ok () ↔ purpose.Suits der leaf := by
  cases purpose with
  | tlsServer name => exact orIdentity_ok_iff.trans (verifyDnsName_iff parsed)
  | tlsClientDns identity =>
      cases identity with
      | none => simp [check, Suits]
      | some name =>
          have bound : orIdentity (verifyDnsName der.toDerCodec leaf name) = .ok () ↔
              NamesServer der leaf name :=
            orIdentity_ok_iff.trans (verifyDnsName_iff (parsed name rfl))
          simpa [check, Suits] using bound
  | tlsClientMailbox identity =>
      cases identity with
      | none => simp [check, Suits]
      | some mailbox =>
          have bound : orIdentity (verifyMailbox der.domainToAscii der.toDerCodec leaf mailbox) =
              .ok () ↔ NamesMailbox der leaf mailbox :=
            orIdentity_ok_iff.trans (verifyMailbox_iff (parsed mailbox rfl))
          simpa [check, Suits] using bound
  | smimeSigner mailbox => exact orIdentity_ok_iff.trans (verifyMailbox_iff parsed)
  | smimeRecipient mailbox => exact orIdentity_ok_iff.trans (verifyMailbox_iff parsed)
  | codeSigner => simp [check, Suits]
  | timeStamper =>
      simp only [check, Suits]
      rw [Walk.then_ok, enforceTimestampingEkuCriticalAndSole_ok_iff,
        enforceTimestampingKuShape_ok_iff]
      constructor
      · intro passed
        exact ⟨passed.1, passed.2⟩
      · intro stamps
        exact ⟨stamps.sole, stamps.signs⟩

end Checks

section Entry

variable {der : PurposeCodec} {chain : List Certificate} {anchors : List TrustAnchor}
variable {profile : (nowUnix : Nat) → ValidationPolicy} {nowUnix : Nat}
variable {verifier : SignatureVerifier} {revocation : RevocationChecker} {aia : AiaFetcher}
variable {validated : ValidatedPath}

theorem verifyThen_ok_iff {check : Certificate → PurposeResult Unit} :
    verifyThen der chain anchors profile nowUnix verifier revocation aia check = .ok validated ↔
      verifyChain der.toChainCodec chain anchors (profile nowUnix) verifier revocation aia =
        .ok validated ∧
      ∃ leaf, chain.head? = some leaf ∧ check leaf = .ok () := by
  unfold verifyThen
  split
  · rename_i failure refused
    simp [refused]
  · rename_i found accepted
    have nonempty := verifyChain_nonempty accepted
    have first := List.head?_eq_some_head nonempty
    rw [Walk.then_ok, Walk.pure_ok]
    simp only [accepted, first, Option.some.injEq, exists_eq_left', Except.ok.injEq]
    exact and_comm

theorem Purpose.verify_eq_verifyThen (purpose : Purpose) :
    purpose.verify der chain anchors profile nowUnix verifier revocation aia =
      verifyThen der chain anchors profile nowUnix verifier revocation aia (purpose.check der) := by
  cases purpose <;> rfl

theorem Purpose.verify_ok_iff (purpose : Purpose) (parsed : purpose.Parsed der.domainToAscii) :
    purpose.verify der chain anchors profile nowUnix verifier revocation aia = .ok validated ↔
      verifyChain der.toChainCodec chain anchors (profile nowUnix) verifier revocation aia =
        .ok validated ∧
      ∃ leaf, chain.head? = some leaf ∧ purpose.Suits der leaf := by
  rw [purpose.verify_eq_verifyThen, verifyThen_ok_iff]
  simp only [purpose.check_ok_iff parsed]

/-- The chain behind a verified chain starts with the leaf supplied. -/
theorem upheld_of_verifyChain {policy : ValidationPolicy}
    (verified : verifyChain der.toChainCodec chain anchors policy verifier revocation aia =
      .ok validated) :
    ∃ leaf rest, chain.head? = some leaf ∧
      Verifier.Upheld der.toChainCodec ⟨anchors, verifier, revocation, policy, aia⟩ (leaf :: rest)
        validated := by
  rcases Verifier.upheld_of_verifyOne verified with ⟨built, same, upheld⟩
  rcases Verifier.validate_nonempty upheld.validates with ⟨leaf, first⟩
  rcases List.head?_eq_some_iff.mp first with ⟨rest, rfl⟩
  exact ⟨leaf, rest, same.symm, upheld⟩

end Entry

section Timestamps

variable {der : PurposeCodec} {leaf : Certificate} {policy : ValidationPolicy}
variable {verifier : SignatureVerifier} {chain : List Certificate} {anchors : List TrustAnchor}
variable {result : ValidatedPath}

theorem StampsTime.no_other_eku (stamps : StampsTime der leaf) (first : chain.head? = some leaf)
    (accepted : validatePath der.toDerCodec policy verifier chain anchors = .ok result)
    {required : List ObjectIdentifier} (requires : policy.requiredLeafEku = some required) :
    ∀ oid ∈ required, oid = idKpTimeStamping := by
  rcases stamps.sole with ⟨ext, found, _, decoded⟩
  rcases ((meets_of_validatePath accepted).leaf leaf first).eku required requires with
    ⟨ekus, held, within⟩
  simp only [ExtHolds, found, decoded, Option.some.injEq, exists_eq_left'] at held
  intro oid listed
  have allowed := within listed
  simpa [held] using allowed

theorem StampsTime.not_issuer (stamps : StampsTime der leaf) {ext : Extension}
    (found : findExtension leaf oidKeyUsage = some ext) (enforced : policy.enforceKeyUsage = true)
    (accepted : validatePath der.toDerCodec policy verifier chain anchors = .ok result) :
    leaf ∉ chain.drop 1 := by
  intro issues
  rcases stamps.signs with ⟨usage, held, signs⟩
  rcases ((meets_of_validatePath accepted).cas leaf issues).certSign enforced with
    ⟨read, readHeld, certSign⟩
  simp only [ExtHolds, found] at held readHeld
  rcases held with ⟨bits, decoded, rfl⟩
  have unsigned : bits.keyCertSign = false := by
    apply signs bits rfl
    simp
  rw [der.keyUsage_eq, decoded] at readHeld
  rcases readHeld with ⟨value, same, rfl⟩
  cases same
  exact certSign (congrArg some unsigned)

end Timestamps

section Guarantees

variable {der : PurposeCodec} {chain : List Certificate} {anchors : List TrustAnchor}
variable {profile : (nowUnix : Nat) → ValidationPolicy} {nowUnix : Nat}
variable {verifier : SignatureVerifier} {revocation : RevocationChecker} {aia : AiaFetcher}
variable {validated : ValidatedPath}

/-- An entry point accepts exactly the chains that verify and whose leaf suits the purpose. A
chain from that same leaf then validates under the policy of the profile, meets all it asks,
and none of its certificates is revoked. -/
theorem Purpose.verify_exact (purpose : Purpose) (parsed : purpose.Parsed der.domainToAscii) :
    purpose.verify der chain anchors profile nowUnix verifier revocation aia = .ok validated ↔
      verifyChain der.toChainCodec chain anchors (profile nowUnix) verifier revocation aia =
        .ok validated ∧
      ∃ leaf rest, chain.head? = some leaf ∧ purpose.Suits der leaf ∧
        Meets der.toDerCodec (profile nowUnix) (leaf :: rest) ∧
        Verifier.Upheld der.toChainCodec ⟨anchors, verifier, revocation, profile nowUnix, aia⟩
          (leaf :: rest) validated := by
  rw [purpose.verify_ok_iff parsed]
  constructor
  · intro ⟨verified, leaf, first, suits⟩
    rcases upheld_of_verifyChain verified with ⟨head, rest, same, upheld⟩
    rw [first, Option.some.injEq] at same
    subst same
    exact ⟨verified, leaf, rest, first, suits, meets_of_validatePath upheld.validates, upheld⟩
  · intro ⟨verified, leaf, _, first, suits, _⟩
    exact ⟨verified, leaf, first, suits⟩

/-- A certificate once accepted as a time stamper is accepted for no purpose under a profile
that requires another key usage, whatever the chain, the anchors and the time, and with a key
usage extension it stands above no certificate of a validated chain. -/
theorem timeStamper_stamps_only
    (accepted : verifyTimeStamper der chain anchors profile nowUnix verifier revocation aia =
      .ok validated) :
    ∃ leaf, chain.head? = some leaf ∧
      (∀ (purpose : Purpose) (others : List Certificate) (trusted : List TrustAnchor)
        (other : (nowUnix : Nat) → ValidationPolicy) (later : Nat) (backend : SignatureVerifier)
        (checker : RevocationChecker) (fetcher : AiaFetcher) (result : ValidatedPath),
        others.head? = some leaf →
        purpose.verify der others trusted other later backend checker fetcher = .ok result →
        ∀ required, (other later).requiredLeafEku = some required →
          ∀ oid ∈ required, oid = idKpTimeStamping) ∧
      (findExtension leaf oidKeyUsage ≠ none →
        ∀ (policy : ValidationPolicy) (backend : SignatureVerifier) (others : List Certificate)
          (trusted : List TrustAnchor) (result : ValidatedPath), policy.enforceKeyUsage = true →
          validatePath der.toDerCodec policy backend others trusted = .ok result →
          leaf ∉ others.drop 1) := by
  have parsed : Purpose.timeStamper.Parsed der.domainToAscii := trivial
  rcases (Purpose.timeStamper.verify_ok_iff parsed).mp accepted with ⟨_, leaf, first, stamps⟩
  refine ⟨leaf, first, ?_, ?_⟩
  · intro purpose others trusted other later backend checker fetcher result same verified
      required requires
    rw [purpose.verify_eq_verifyThen, verifyThen_ok_iff] at verified
    rcases upheld_of_verifyChain verified.1 with ⟨head, rest, from_, upheld⟩
    rw [same, Option.some.injEq] at from_
    subst from_
    exact StampsTime.no_other_eku stamps rfl upheld.validates requires
  · intro present policy backend others trusted result enforced validates
    rcases Option.ne_none_iff_exists'.mp present with ⟨ext, found⟩
    exact stamps.not_issuer found enforced validates

end Guarantees

namespace Concrete

open Pkix.Path.Concrete Pkix.PathBuilder.Concrete Pkix.Identity.Concrete
open Pkix.Profiles (idKpServerAuth)

def ekuContent (ekus : List ObjectIdentifier) : Bytes := tlv 0x30 (ekus.flatMap encodeOid)

/-- A key usage of digitalSignature and nothing else. -/
def signingContent : Bytes := [0x03, 0x02, 0x07, 0x80]

def signingBits : KeyUsageBits :=
  ⟨true, false, false, false, false, false, false, false, false⟩

def purposeCodec : PurposeCodec :=
  { chainCodec [] with
    subjectAltName := ([(absoluteContent, absoluteSan)].lookup ·)
    extendedKeyUsage :=
      (([[idKpServerAuth], [idKpTimeStamping]].map (fun ekus => (ekuContent ekus, ekus))).lookup ·)
    keyUsageBits := ([(signingContent, signingBits)].lookup ·)
    keyUsage := fun content =>
      ([(signingContent, signingBits)].lookup content).map KeyUsageBits.ofIssuer
    keyUsage_eq := fun _ => rfl
    domainToAscii := asciiToAscii }

def serverLeaf : Certificate :=
  issue 2 (commonName [65]) (commonName [67]) [1] [8]
    [⟨oidExtendedKeyUsage, false, ekuContent [idKpServerAuth]⟩, sanExtension absoluteContent]

def stampLeaf : Certificate :=
  issue 3 (commonName [65]) (commonName [68]) [1] [9]
    [⟨oidExtendedKeyUsage, true, ekuContent [idKpTimeStamping]⟩,
      ⟨oidKeyUsage, true, signingContent⟩]

end Concrete

open Concrete Pkix.Path.Concrete Pkix.PathBuilder.Concrete Pkix.Identity.Concrete in
/-- The wildcard of the server covers the host that is asked for. -/
theorem Purpose.verify_exact_serverLeaf :
    verifyChain purposeCodec.toChainCodec [serverLeaf] rootAnchors
      (Profiles.basicTlsPolicy 1800000000) keyCopyVerifier acceptAll noAiaFetcher =
      .ok (validatedPath [serverLeaf] serverLeaf 0 none) ∧
    ∃ leaf rest, [serverLeaf].head? = some leaf ∧
      Purpose.Suits purposeCodec leaf (.tlsServer ⟨.dns host⟩) ∧
      Meets purposeCodec.toDerCodec (Profiles.basicTlsPolicy 1800000000) (leaf :: rest) ∧
      Verifier.Upheld purposeCodec.toChainCodec
        ⟨rootAnchors, keyCopyVerifier, acceptAll, Profiles.basicTlsPolicy 1800000000, noAiaFetcher⟩
        (leaf :: rest) (validatedPath [serverLeaf] serverLeaf 0 none) := by
  have parsed : ParsedServer purposeCodec.domainToAscii ⟨.dns host⟩ :=
    ⟨hostText, .inl (by decide +kernel)⟩
  apply (Purpose.verify_exact (.tlsServer ⟨.dns host⟩) parsed).mp
  decide +kernel

open Concrete Pkix.Path.Concrete Pkix.PathBuilder.Concrete in
/-- The time stamper is accepted as one, so it is no server. -/
theorem timeStamper_stamps_only_stampLeaf :
    ∃ leaf, [stampLeaf].head? = some leaf ∧
      (∀ (purpose : Purpose) (others : List Certificate) (trusted : List TrustAnchor)
        (other : (nowUnix : Nat) → ValidationPolicy) (later : Nat) (backend : SignatureVerifier)
        (checker : RevocationChecker) (fetcher : AiaFetcher) (result : ValidatedPath),
        others.head? = some leaf →
        purpose.verify purposeCodec others trusted other later backend checker fetcher =
          .ok result →
        ∀ required, (other later).requiredLeafEku = some required →
          ∀ oid ∈ required, oid = idKpTimeStamping) ∧
      (findExtension leaf oidKeyUsage ≠ none →
        ∀ (policy : ValidationPolicy) (backend : SignatureVerifier) (others : List Certificate)
          (trusted : List TrustAnchor) (result : ValidatedPath), policy.enforceKeyUsage = true →
          validatePath purposeCodec.toDerCodec policy backend others trusted = .ok result →
          leaf ∉ others.drop 1) := by
  have accepted : verifyTimeStamper purposeCodec [stampLeaf] rootAnchors
      Profiles.basicTimeStampingPolicy 1800000000 keyCopyVerifier acceptAll noAiaFetcher =
      .ok (validatedPath [stampLeaf] stampLeaf 0 none) := by
    decide +kernel
  exact timeStamper_stamps_only accepted

end Pkix.Chain
