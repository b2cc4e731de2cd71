import Pkix.Lint.ProfileAgreement

/-! The lints of the basic S/MIME profile, what they still find in a leaf whose mailbox was verified,
and what the profile's policy may still refuse in a chain whose leaf they let pass. -/

namespace Pkix.Lint

open Pkix.Path Profiles
open Identity (MailboxName Text oidSmtpUtf8Mailbox)
open Chain (AiaFetcher ParsedMailbox Purpose PurposeCodec noAiaFetcher upheld_of_verifyChain
  verifySmimeRecipient verifySmimeSigner)

section Lints

variable (der : DerCodec) (messages : DecoderMessages) (domainToAscii : Text → Option Text)

def isMailboxName : GeneralName → Bool
  | .rfc822Name _ => true
  | .otherName typeId _ => typeId == oidSmtpUtf8Mailbox
  | _ => false

def checkSmimeSan (cert : Certificate) : LintResult :=
  judgeExtension der.subjectAltName oidSubjectAltName
    (.error "leaf certificate has no extensions; SubjectAltName absent")
    (.error ("SubjectAltName extension absent from leaf certificate; RFC 8398 §3 " ++
      "requires an rfc822Name or id-on-SmtpUTF8Mailbox otherName entry"))
    (fun octets => malformedDer "SubjectAltName" (messages.subjectAltName octets))
    (fun san =>
      if san.isEmpty then .error "SubjectAltName extension is present but contains no names"
      else if san.any isMailboxName then .pass
      else .error ("SubjectAltName does not contain an rfc822Name or id-on-SmtpUTF8Mailbox " ++
        "otherName; RFC 8398 §3 requires at least one for S/MIME identity"))
    cert

def checkEkuEmailProtection (cert : Certificate) : LintResult :=
  judgeExtension der.extendedKeyUsage oidExtendedKeyUsage
    (.error "leaf certificate has no extensions; ExtendedKeyUsage absent")
    (.error "ExtendedKeyUsage extension absent from leaf certificate")
    (fun octets => malformedDer "ExtendedKeyUsage" (messages.extendedKeyUsage octets))
    (fun eku =>
      if idKpEmailProtection ∈ eku then .pass
      else .error "ExtendedKeyUsage does not include id-kp-emailProtection (1.3.6.1.5.5.7.3.4)")
    cert

/-- The decoder of alternative names with its message. -/
def decodeSan (octets : Bytes) : Except Text SubjectAltName :=
  match der.subjectAltName octets with
  | some san => .ok san
  | none => .error (messages.subjectAltName octets)

/-- The verdict is a pass or an error, and a pass just when the entries that decode agree. -/
theorem checkCertMailboxEquivalence_result (cert : Certificate) : ∃ result,
    checkCertMailboxEquivalence domainToAscii (decodeSan der messages) cert = some result ∧
      PassOrError result ∧
      (result = .pass ↔ ∃ san, ExtHolds der.subjectAltName cert oidSubjectAltName san ∧
        ∀ names, san = some names → Equivalent domainToAscii names) := by
  unfold checkCertMailboxEquivalence ExtHolds
  cases findExtension cert oidSubjectAltName with
  | none => exact ⟨.pass, rfl, .inl rfl, by simp⟩
  | some extension =>
      dsimp only
      cases decoded : der.subjectAltName extension.extnValue with
      | none =>
          have refused : decodeSan der messages extension.extnValue =
              .error (messages.subjectAltName extension.extnValue) := by
            rw [decodeSan, decoded]
          rw [refused]
          apply refused_of_not _ rfl
          simp
      | some names =>
          have read : decodeSan der messages extension.extnValue = .ok names := by
            rw [decodeSan, decoded]
          rw [read]
          rcases @checkSan_exact domainToAscii names with ⟨result, checked, shape, meaning⟩
          exact ⟨result, checked, shape, by simp [meaning]⟩

theorem checkCertMailboxEquivalence_isSome (cert : Certificate) :
    (checkCertMailboxEquivalence domainToAscii (decodeSan der messages) cert).isSome = true := by
  rcases checkCertMailboxEquivalence_result der messages domainToAscii cert with
    ⟨result, checked, _⟩
  rw [checked]
  rfl

def checkMailboxEquivalence (cert : Certificate) : LintResult :=
  (checkCertMailboxEquivalence domainToAscii (decodeSan der messages) cert).get
    (checkCertMailboxEquivalence_isSome der messages domainToAscii cert)

def smimeSanLint : Lint :=
  certificateLint "rfc8398.cert.san.smime_mailbox_required" "RFC 8398 §3 (+ RFC 5280 §4.2.1.6)"
    .leaf (checkSmimeSan der messages)

def ekuEmailProtectionLint : Lint :=
  certificateLint "rfc8551.cert.eku.email_protection_required"
    "RFC 8551 §3.3 (+ RFC 5280 §4.2.1.12)" .leaf (checkEkuEmailProtection der messages)

def mailboxEquivalenceLint : Lint :=
  certificateLint "rfc8398.cert.san.smime_mailbox_equivalent" "RFC 8398 §3" .leaf
    (checkMailboxEquivalence der messages domainToAscii)

def basicSmimeLints : List Lint :=
  [smimeSanLint der messages, ekuEmailProtectionLint der messages,
    mailboxEquivalenceLint der messages domainToAscii, signatureAlgorithmMatchLint,
    maxSerialLengthLint 20]

def basicSmimeRunner : LintRunner := ⟨basicSmimeLints der messages domainToAscii, ""⟩

def checkBasicSmimeShape (certSha256Of : Certificate → Option Bytes) (cert : Certificate)
    (nowUnix : UInt64) : Except (List Finding) Unit :=
  checkShape certSha256Of (basicSmimeRunner der messages domainToAscii) cert .leaf nowUnix

end Lints

section Verdicts

variable {der : DerCodec} {messages : DecoderMessages} {domainToAscii : Text → Option Text}
variable {cert : Certificate} {kind : SubjectKind} {nowUnix : UInt64} {id : String}

theorem checkSmimeSan_passes_iff :
    (checkSmimeSan der messages cert).isFailure = false ↔
      ∃ san, ExtHolds der.subjectAltName cert oidSubjectAltName (some san) ∧
        ∃ name ∈ san, isMailboxName name = true := by
  apply judgeExtension_required_iff rfl rfl (fun _ => rfl)
  intro san
  cases san with
  | nil => simp
  | cons name rest => simp [passIf_passes_iff]

theorem checkEkuEmailProtection_passes_iff :
    (checkEkuEmailProtection der messages cert).isFailure = false ↔
      ∃ ekus, ExtHolds der.extendedKeyUsage cert oidExtendedKeyUsage (some ekus) ∧
        idKpEmailProtection ∈ ekus :=
  judgeExtension_required_iff rfl rfl (fun _ => rfl) (fun _ => passIf_passes_iff)

/-- The entries of both kinds name the same mailboxes, where there are alternative names. -/
def NamesAgree (der : DerCodec) (domainToAscii : Text → Option Text) (cert : Certificate) : Prop :=
  ∃ san, ExtHolds der.subjectAltName cert oidSubjectAltName san ∧
    ∀ names, san = some names → Equivalent domainToAscii names

theorem checkMailboxEquivalence_shape :
    PassOrError (checkMailboxEquivalence der messages domainToAscii cert) ∧
      (checkMailboxEquivalence der messages domainToAscii cert = .pass ↔
        NamesAgree der domainToAscii cert) := by
  rcases checkCertMailboxEquivalence_result der messages domainToAscii cert with
    ⟨result, checked, shape, meaning⟩
  have same : checkMailboxEquivalence der messages domainToAscii cert = result := by
    simp only [checkMailboxEquivalence, checked, Option.get_some]
  rw [same]
  exact ⟨shape, meaning⟩

theorem checkMailboxEquivalence_passes_iff :
    (checkMailboxEquivalence der messages domainToAscii cert).isFailure = false ↔
      NamesAgree der domainToAscii cert := by
  rcases @checkMailboxEquivalence_shape der messages domainToAscii cert with ⟨shape, meaning⟩
  rw [← meaning]
  rcases shape with passes | ⟨detail, fails⟩
  · simp [passes]
  · simp [fails]

theorem basicSmimeRunner_neverFatal : NeverFatal (basicSmimeRunner der messages domainToAscii) := by
  intro lint member
  have listed : lint ∈ basicSmimeLints der messages domainToAscii := member
  simp only [basicSmimeLints, List.mem_cons, List.not_mem_nil, or_false] at listed
  rcases listed with rfl | rfl | rfl | rfl | rfl
  · exact certificateLint_calm fun _ => judgeExtension_notFatal rfl rfl (fun _ => rfl) fun _ =>
      ite_notFatal rfl (ite_notFatal rfl rfl)
  · exact certificateLint_calm fun _ =>
      judgeExtension_notFatal rfl rfl (fun _ => rfl) fun _ => ite_notFatal rfl rfl
  · apply certificateLint_calm
    intro cert
    rcases (@checkMailboxEquivalence_shape der messages domainToAscii cert).1 with
      passes | ⟨detail, fails⟩
    · rw [passes]
      rfl
    · rw [fails]
      rfl
  · exact certificateLint_calm fun _ => ite_notFatal rfl rfl
  · exact certificateLint_calm fun _ => ite_notFatal rfl rfl

theorem failsLint_basicSmime_iff :
    FailsLint (basicSmimeRunner der messages domainToAscii) cert kind nowUnix id ↔
      (id = "rfc8398.cert.san.smime_mailbox_required" ∧ kind.matchesFilter .leaf = true ∧
        (checkSmimeSan der messages cert).isFailure = true) ∨
      (id = "rfc8551.cert.eku.email_protection_required" ∧ kind.matchesFilter .leaf = true ∧
        (checkEkuEmailProtection der messages cert).isFailure = true) ∨
      (id = "rfc8398.cert.san.smime_mailbox_equivalent" ∧ kind.matchesFilter .leaf = true ∧
        (checkMailboxEquivalence der messages domainToAscii cert).isFailure = true) ∨
      (id = "rfc5280.cert.signature_algorithm_match" ∧
        (checkSignatureAlgorithmMatch cert).isFailure = true) ∨
      (id = "rfc5280.cert.serial_number.max_octets" ∧
        (checkMaxSerialLength 20 cert).isFailure = true) := by
  have anyKind : kind.matchesFilter .any = true := rfl
  simp only [FailsLint, basicSmimeRunner, basicSmimeLints, List.mem_cons, List.not_mem_nil,
    or_false, or_and_right, exists_or, exists_eq_left, smimeSanLint, ekuEmailProtectionLint,
    mailboxEquivalenceLint, signatureAlgorithmMatchLint, maxSerialLengthLint, certificateLint,
    anyKind, true_and, eq_comm]

end Verdicts

namespace Concrete

open Pkix.Path.Concrete Chain.Concrete Identity.Concrete

def mailCodec : PurposeCodec :=
  { purposeCodec with
    subjectAltName :=
      ([(rfc822Content, rfc822San), (smtpUtf8Content, smtpUtf8San)].lookup ·)
    extendedKeyUsage :=
      ([(Chain.Concrete.ekuContent [idKpEmailProtection], [idKpEmailProtection])].lookup ·) }

/-- A signer with her mailbox as an rfc822Name. -/
def mailLeaf : Certificate :=
  issue 2 (commonName [65]) (commonName [67]) [1] [8]
    [⟨oidExtendedKeyUsage, false, Chain.Concrete.ekuContent [idKpEmailProtection]⟩,
      sanExtension rfc822Content]

end Concrete

section Leaves

variable {der : PurposeCodec} {messages : DecoderMessages} {verifier : SignatureVerifier}
variable {chain : List Certificate} {anchors : List TrustAnchor} {leaf : Certificate}
variable {certSha256Of : Certificate → Option Bytes}

/-- The leaf of a chain that the S/MIME policy accepts. -/
structure MailboxShows (der : DerCodec) (leaf : Certificate) : Prop where
  san : ∃ names, ExtHolds der.subjectAltName leaf oidSubjectAltName (some names) ∧
    ∃ name ∈ names, isRfc822Name name = true
  eku : ∃ ekus, ExtHolds der.extendedKeyUsage leaf oidExtendedKeyUsage (some ekus) ∧
    idKpEmailProtection ∈ ekus
  signatureOid : leaf.signatureAlgorithm.oid = leaf.tbsCertificate.signature.oid

theorem mailboxShows_of_accepted {rest : List Certificate} {currentTime : Nat}
    {path : ValidatedPath} (accepted : validatePath der.toDerCodec (basicSmimePolicy currentTime)
      verifier (leaf :: rest) anchors = .ok path) :
    MailboxShows der.toDerCodec leaf := by
  have asked := (meets_of_validatePath accepted).leaf leaf rfl
  refine ⟨?_, ?_, signatureOid_of_accepted accepted List.mem_cons_self⟩
  · rcases asked.rfc822San rfl rfl with ⟨names, held, mailbox⟩
    exact extHolds_nonempty held mailbox (by simp)
  · rcases asked.eku _ rfl with ⟨ekus, held, within⟩
    exact extHolds_nonempty held (within List.mem_cons_self) List.not_mem_nil

theorem isMailboxName_of_rfc822 {name : GeneralName} (mailbox : isRfc822Name name = true) :
    isMailboxName name = true := by
  cases name <;> simp_all [isRfc822Name, isMailboxName]

theorem basicSmime_failures {der : DerCodec} {leaf : Certificate} (shows : MailboxShows der leaf)
    {domainToAscii : Text → Option Text} {lintedAt : UInt64} {id : String} :
    FailsLint (basicSmimeRunner der messages domainToAscii) leaf .leaf lintedAt id ↔
      (id = "rfc8398.cert.san.smime_mailbox_equivalent" ∧ ¬NamesAgree der domainToAscii leaf) ∨
      (id = "rfc5280.cert.signature_algorithm_match" ∧
        leaf.signatureAlgorithm.parameters ≠ leaf.tbsCertificate.signature.parameters) ∨
      (id = "rfc5280.cert.serial_number.max_octets" ∧
        20 < leaf.tbsCertificate.serialNumber.length) := by
  have applies : SubjectKind.leaf.matchesFilter .leaf = true := rfl
  have named : (checkSmimeSan der messages leaf).isFailure = false := by
    rcases shows.san with ⟨names, held, name, listed, mailbox⟩
    exact checkSmimeSan_passes_iff.mpr ⟨names, held, name, listed, isMailboxName_of_rfc822 mailbox⟩
  have purpose : (checkEkuEmailProtection der messages leaf).isFailure = false :=
    checkEkuEmailProtection_passes_iff.mpr shows.eku
  have agree : (checkMailboxEquivalence der messages domainToAscii leaf).isFailure = true ↔
      ¬NamesAgree der domainToAscii leaf := fails_iff_not checkMailboxEquivalence_passes_iff
  have signed : (checkSignatureAlgorithmMatch leaf).isFailure = true ↔
      leaf.signatureAlgorithm.parameters ≠ leaf.tbsCertificate.signature.parameters := by
    rw [fails_iff_not checkSignatureAlgorithmMatch_passes_iff,
      sameAlgorithm_iff shows.signatureOid]
  have serial : (checkMaxSerialLength 20 leaf).isFailure = true ↔
      20 < leaf.tbsCertificate.serialNumber.length := by
    rw [fails_iff_not checkMaxSerialLength_passes_iff, Nat.not_le]
  rw [failsLint_basicSmime_iff, named, purpose, agree, signed, serial, applies]
  simp

/-- What the lints still find in the leaf of a signer or a recipient whose mailbox was verified. -/
theorem smime_failures_of_verified {mailbox : MailboxName} {nowUnix : Nat}
    {revocation : Chain.RevocationChecker} {aia : AiaFetcher} {validated : ValidatedPath}
    (parsed : ParsedMailbox der.domainToAscii mailbox)
    (accepted :
      verifySmimeSigner der chain anchors basicSmimePolicy nowUnix verifier revocation aia
          mailbox = .ok validated ∨
        verifySmimeRecipient der chain anchors basicSmimePolicy nowUnix verifier revocation aia
          mailbox = .ok validated) :
    ∃ leaf, chain.head? = some leaf ∧ ∀ (lintedAt : UInt64) (id : String),
      FailsAt ((basicSmimeRunner der.toDerCodec messages der.domainToAscii).runCert certSha256Of
          leaf .leaf 0 lintedAt) 0 id ↔
        (id = "rfc8398.cert.san.smime_mailbox_equivalent" ∧
          ¬NamesAgree der.toDerCodec der.domainToAscii leaf) ∨
        (id = "rfc5280.cert.signature_algorithm_match" ∧
          leaf.signatureAlgorithm.parameters ≠ leaf.tbsCertificate.signature.parameters) ∨
        (id = "rfc5280.cert.serial_number.max_octets" ∧
          20 < leaf.tbsCertificate.serialNumber.length) := by
  have verified : Chain.verifyChain der.toChainCodec chain anchors (basicSmimePolicy nowUnix)
      verifier revocation aia = .ok validated := by
    rcases accepted with signer | recipient
    · exact (((Purpose.smimeSigner mailbox).verify_ok_iff parsed).mp signer).1
    · exact (((Purpose.smimeRecipient mailbox).verify_ok_iff parsed).mp recipient).1
  rcases upheld_of_verifyChain verified with ⟨leaf, rest, first, upheld⟩
  have shows := mailboxShows_of_accepted upheld.validates
  refine ⟨leaf, first, fun lintedAt id => ?_⟩
  rw [failsAt_runCert_iff basicSmimeRunner_neverFatal, basicSmime_failures shows]
  simp

open Concrete Pkix.Path.Concrete PathBuilder.Concrete Identity.Concrete Chain.Concrete in
/-- With one mailbox alone the leaf of the signer is without a failure here. -/
theorem smime_failures_of_verified_mailLeaf :
    ∃ leaf, [mailLeaf].head? = some leaf ∧ ∀ (lintedAt : UInt64) (id : String),
      FailsAt ((basicSmimeRunner mailCodec.toDerCodec noMessages mailCodec.domainToAscii).runCert
          noDigest leaf .leaf 0 lintedAt) 0 id ↔
        (id = "rfc8398.cert.san.smime_mailbox_equivalent" ∧
          ¬NamesAgree mailCodec.toDerCodec mailCodec.domainToAscii leaf) ∨
        (id = "rfc5280.cert.signature_algorithm_match" ∧
          leaf.signatureAlgorithm.parameters ≠ leaf.tbsCertificate.signature.parameters) ∨
        (id = "rfc5280.cert.serial_number.max_octets" ∧
          20 < leaf.tbsCertificate.serialNumber.length) := by
  have parsed : ParsedMailbox mailCodec.domainToAscii alice :=
    ⟨aliceText, by decide +kernel⟩
  have accepted : verifySmimeSigner mailCodec [mailLeaf] rootAnchors basicSmimePolicy 1800000000
      keyCopyVerifier acceptAll noAiaFetcher alice =
      .ok (validatedPath [mailLeaf] mailLeaf 0 none) := by decide +kernel
  exact smime_failures_of_verified parsed (.inl accepted)

theorem meetsAsLeaf_of_smimeShape {der : DerCodec} {currentTime : Nat} {lintedAt : UInt64}
    {domainToAscii : Text → Option Text}
    (inShape : checkBasicSmimeShape der messages domainToAscii certSha256Of leaf lintedAt = .ok ())
    {names : SubjectAltName}
    (held : ExtHolds der.subjectAltName leaf oidSubjectAltName (some names))
    {name : GeneralName} (listed : name ∈ names) (mailbox : isRfc822Name name = true) :
    MeetsAsLeaf der (basicSmimePolicy currentTime) leaf := by
  have passes := (checkShape_ok_iff basicSmimeRunner_neverFatal).mp inShape
  have purpose : (checkEkuEmailProtection der messages leaf).isFailure = false := by
    by_contra failed
    exact passes _ (failsLint_basicSmime_iff.mpr (.inr (.inl ⟨rfl, rfl, by simpa using failed⟩)))
  rcases checkEkuEmailProtection_passes_iff.mp purpose with ⟨ekus, ekusHeld, protects⟩
  exact
    { san := fun _ => ⟨some names, held, List.ne_nil_of_mem listed⟩
      rfc822San := fun _ _ => ⟨some names, held, name, listed, mailbox⟩
      eku := fun required asked => by
        cases asked
        exact ⟨some ekus, ekusHeld, List.cons_subset.mpr ⟨protects, List.nil_subset _⟩⟩
      policyOids := fun _ asked => by cases asked
      dnAttrs := fun _ asked => by cases asked }

/-- A chain whose leaf is in the shape of the basic profile validates under it as it does under
RFC 5280 when the leaf has an rfc822Name. One with an SmtpUTF8Mailbox alone is refused. -/
theorem basicSmime_agrees {der : DerCodec} {rest : List Certificate} {currentTime : Nat}
    {path : ValidatedPath} {lintedAt : UInt64} {domainToAscii : Text → Option Text}
    (inShape : checkBasicSmimeShape der messages domainToAscii certSha256Of leaf lintedAt =
      .ok ()) :
    validatePath der (basicSmimePolicy currentTime) verifier (leaf :: rest) anchors = .ok path ↔
      validatePath der (rfc5280Policy currentTime) verifier (leaf :: rest) anchors = .ok path ∧
        ∃ names, ExtHolds der.subjectAltName leaf oidSubjectAltName (some names) ∧
          ∃ name ∈ names, isRfc822Name name = true := by
  have overlays : validatePath der (basicSmimePolicy currentTime) verifier (leaf :: rest) anchors =
        .ok path ↔
      validatePath der (rfc5280Policy currentTime) verifier (leaf :: rest) anchors = .ok path ∧
        Meets der (basicSmimePolicy currentTime) (leaf :: rest) :=
    validates_iff_meets (a := .basicSmime) (b := .rfc5280) (by decide)
  have asks : AsksOfLeaf (basicSmimePolicy currentTime) (rfc5280Policy currentTime) :=
    ⟨rfl, Nat.le_refl _, rfl, rfl, rfl, id, id⟩
  rw [overlays]
  apply and_congr_right
  intro accepted
  constructor
  · intro met
    rcases (met.leaf leaf rfl).rfc822San rfl rfl with ⟨names, held, mailbox⟩
    exact extHolds_nonempty held mailbox (by simp)
  · intro ⟨names, held, name, listed, mailbox⟩
    exact meets_withLeaf asks (meets_of_validatePath accepted)
      (meetsAsLeaf_of_smimeShape inShape held listed mailbox)

open Concrete Pkix.Path.Concrete PathBuilder.Concrete Identity.Concrete Chain.Concrete in
theorem basicSmime_agrees_mailLeaf :
    validatePath mailCodec.toDerCodec (basicSmimePolicy 1800000000) keyCopyVerifier [mailLeaf]
        rootAnchors = .ok (validatedPath [mailLeaf] mailLeaf 0 none) ↔
      validatePath mailCodec.toDerCodec (rfc5280Policy 1800000000) keyCopyVerifier [mailLeaf]
          rootAnchors = .ok (validatedPath [mailLeaf] mailLeaf 0 none) ∧
        ∃ names, ExtHolds mailCodec.subjectAltName mailLeaf oidSubjectAltName (some names) ∧
          ∃ name ∈ names, isRfc822Name name = true := by
  have inShape : checkBasicSmimeShape mailCodec.toDerCodec noMessages asciiToAscii noDigest
      mailLeaf 0 = .ok () := by decide +kernel
  exact basicSmime_agrees inShape

end Leaves

end Pkix.Lint
