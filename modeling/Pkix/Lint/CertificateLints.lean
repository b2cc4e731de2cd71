import Pkix.Lint.MailboxEquivalence
import Pkix.Lint.RsaKeySize
import Pkix.Path.Requirements
import Pkix.Profiles.ProfilePolicies

/-! The certificate lints of the TLS profiles, the runs over them that leave every finding, and
the check of a certificate's shape. -/

namespace Pkix.Lint

open Pkix.Path Profiles
open Identity (Text)

section Reading

/-- What a lint says of an extension: where there are no extensions, where there is no such one,
where it does not decode, and of its content. -/
def judgeExtension {α : Type} (decode : Bytes → Option α) (oid : ObjectIdentifier)
    (noExtensions absent : LintResult) (malformed : Bytes → LintResult) (judge : α → LintResult)
    (cert : Certificate) : LintResult :=
  match cert.tbsCertificate.extensions with
  | none => noExtensions
  | some extensions =>
      match extensions.find? (fun extension => extension.extnId == oid) with
      | none => absent
      | some extension =>
          match decode extension.extnValue with
          | none => malformed extension.extnValue
          | some content => judge content

/-- A lint of single certificates, which leaves the path alone. -/
def certificateLint (id citation : String) (appliesTo : SubjectKind)
    (check : Certificate → LintResult) : Lint :=
  { id := id
    citation := citation
    scope := .certificate
    appliesTo := appliesTo
    checkCert := fun cert _ _ => check cert
    checkPath := fun _ _ _ => .notApplicable }

def LintResult.isFailure : LintResult → Bool
  | .error _ | .fatal _ => true
  | .pass | .notApplicable | .warn _ => false

@[simp] theorem isFailure_pass : LintResult.pass.isFailure = false := rfl
@[simp] theorem isFailure_notApplicable : LintResult.notApplicable.isFailure = false := rfl
@[simp] theorem isFailure_error (detail : String) : (LintResult.error detail).isFailure = true := rfl

/-- The result of a reading that does not fault. -/
def Checked.value {α : Type} : (checked : Checked α) → (∃ result, checked = .ok result) → α
  | .ok result, _ => result
  | .error _, sound => False.elim (by simp at sound)

theorem Checked.value_eq {α : Type} {checked : Checked α} {result : α}
    (sound : ∃ other, checked = .ok other) (done : checked = .ok result) :
    Checked.value checked sound = result := by
  subst done
  rfl

end Reading

section BaselineRequirements

def sha1WithRsa : ObjectIdentifier := ⟨[1, 2, 840, 113549, 1, 1, 5]⟩
def ecdsaWithSha1 : ObjectIdentifier := ⟨[1, 2, 840, 10045, 4, 1]⟩

def sc081For200Days : Nat := 1773532800
def sc081For100Days : Nat := 1805068800
def sc081For47Days : Nat := 1868227200

/-- The longest lifetime of a certificate, by the time it is issued. -/
def sc081ValidityCap (notBeforeUnix : Nat) : Nat :=
  if sc081For47Days ≤ notBeforeUnix then 47 * secsPerDay
  else if sc081For100Days ≤ notBeforeUnix then 100 * secsPerDay
  else if sc081For200Days ≤ notBeforeUnix then 200 * secsPerDay
  else 398 * secsPerDay

def checkValidityMax (cert : Certificate) : LintResult :=
  let notBefore := timeToUnixSecs cert.tbsCertificate.validity.notBefore
  let notAfter := timeToUnixSecs cert.tbsCertificate.validity.notAfter
  if notAfter < notBefore then
    .error "leaf certificate notAfter precedes notBefore (inverted validity period)"
  else if sc081ValidityCap notBefore < notAfter - notBefore then
    .error ("leaf certificate validity period " ++ ((notAfter - notBefore) / 86400).repr ++
      " days exceeds SC-081 cap of " ++ (sc081ValidityCap notBefore / 86400).repr ++
      " days at issuance")
  else .pass

def checkSha1Prohibited (cert : Certificate) : LintResult :=
  if cert.signatureAlgorithm.oid = sha1WithRsa ∨ cert.signatureAlgorithm.oid = ecdsaWithSha1 then
    .error "certificate uses SHA-1 signature algorithm, prohibited by TLS BR §7.1.3"
  else .pass

/-- The reader of the key never faults, so that the lint has a result. -/
theorem checkCertRsaMinKeySize_ok (cert : Certificate) :
    ∃ result, checkCertRsaMinKeySize cert = .ok result := by
  have ⟨bits, read⟩ :=
    rsaModulusBitLen_cases cert.tbsCertificate.subjectPublicKeyInfo.subjectPublicKey.rawBytes
  simp only [checkCertRsaMinKeySize, read, bind, Except.bind]
  split
  · exact ⟨_, rfl⟩
  · cases bits with
    | none => exact ⟨_, rfl⟩
    | some nBits =>
        dsimp only
        split <;> exact ⟨_, rfl⟩

def checkRsaMinKeySize (cert : Certificate) : LintResult :=
  Checked.value (checkCertRsaMinKeySize cert) (checkCertRsaMinKeySize_ok cert)

variable (der : DerCodec)

def checkSanRequired (cert : Certificate) : LintResult :=
  judgeExtension der.subjectAltName oidSubjectAltName
    (.error "leaf certificate has no extensions; SubjectAltName absent")
    (.error "SubjectAltName extension absent from leaf certificate")
    (fun _ => .error "SubjectAltName extension value is malformed DER")
    (fun san =>
      if san.isEmpty then .error "SubjectAltName extension is present but contains no names"
      else .pass)
    cert

def judgeServerAuth (eku : ExtendedKeyUsage) : LintResult :=
  if idKpServerAuth ∈ eku then .pass
  else .error "ExtendedKeyUsage does not include id-kp-serverAuth (1.3.6.1.5.5.7.3.1)"

def checkEkuServerAuth (cert : Certificate) : LintResult :=
  judgeExtension der.extendedKeyUsage oidExtendedKeyUsage
    (.error "leaf certificate has no extensions; ExtendedKeyUsage absent")
    (.error "ExtendedKeyUsage extension absent from leaf certificate")
    (fun _ => .error "ExtendedKeyUsage extension value is malformed DER") judgeServerAuth cert

def checkBcCaFlag (cert : Certificate) : LintResult :=
  judgeExtension der.basicConstraints oidBasicConstraints
    (.error "intermediate CA certificate has no extensions; BasicConstraints absent")
    (.error "BasicConstraints extension absent from intermediate CA certificate")
    (fun _ => .error "BasicConstraints extension value is malformed DER")
    (fun constraints =>
      if constraints.ca then .pass
      else .error "BasicConstraints present but cA flag is not TRUE")
    cert

def validityMaxLint : Lint :=
  certificateLint "cabf.br.tls.validity.max" "CA/B Forum TLS BR §6.3.2 (SC-081)" .leaf
    checkValidityMax

def sha1ProhibitedLint : Lint :=
  certificateLint "cabf.br.tls.alg.sha1_prohibited" "CA/B Forum TLS BR §7.1.3" .any
    checkSha1Prohibited

def rsaMinKeySizeLint : Lint :=
  certificateLint "cabf.br.tls.rsa.min_key_size" "CA/B Forum TLS BR §6.1.5" .any
    checkRsaMinKeySize

def sanRequiredLint : Lint :=
  certificateLint "cabf.br.tls.san.required" "CA/B Forum TLS BR §7.1.2.7.12" .leaf
    (checkSanRequired der)

def ekuServerAuthLint : Lint :=
  certificateLint "cabf.br.tls.eku.server_auth" "CA/B Forum TLS BR §7.1.2.7.10" .leaf
    (checkEkuServerAuth der)

def bcCaFlagLint : Lint :=
  certificateLint "cabf.br.tls.bc.ca_flag" "CA/B Forum TLS BR §7.1.2.10.4" .intermediateCa
    (checkBcCaFlag der)

def cabfTlsBrLints : List Lint :=
  [validityMaxLint, sha1ProhibitedLint, rsaMinKeySizeLint, sanRequiredLint der,
    ekuServerAuthLint der, bcCaFlagLint der]

/-- The runner of a profile is of no bundle version. -/
def webPkiRunner : LintRunner := ⟨cabfTlsBrLints der, ""⟩

end BaselineRequirements

section Baseline

/-- What the decoders say of octets that they refuse. -/
structure DecoderMessages where
  subjectAltName : Bytes → Text
  extendedKeyUsage : Bytes → Text
  basicConstraints : Bytes → Text

variable (der : DerCodec) (messages : DecoderMessages)

def isDnsOrIp : GeneralName → Bool
  | .dnsName _ | .ipAddress _ => true
  | _ => false

def malformedDer (kind : String) (message : Text) : LintResult :=
  .error (kind ++ " extension value is malformed DER: " ++ truncateForDetail message)

def checkTlsServerSan (cert : Certificate) : LintResult :=
  judgeExtension der.subjectAltName oidSubjectAltName
    (.error "leaf certificate has no extensions; SubjectAltName absent")
    (.error ("SubjectAltName extension absent from leaf certificate; RFC 6125 §6.4.1 " ++
      "requires a dNSName or iPAddress entry"))
    (fun octets => malformedDer "SubjectAltName" (messages.subjectAltName octets))
    (fun san =>
      if san.isEmpty then .error "SubjectAltName extension is present but contains no names"
      else if san.any isDnsOrIp then .pass
      else .error ("SubjectAltName does not contain a dNSName or iPAddress entry; " ++
        "RFC 6125 §6.4.1 requires at least one for TLS server identity"))
    cert

def checkRfc5280EkuServerAuth (cert : Certificate) : LintResult :=
  judgeExtension der.extendedKeyUsage oidExtendedKeyUsage
    (.error "leaf certificate has no extensions; ExtendedKeyUsage absent")
    (.error "ExtendedKeyUsage extension absent from leaf certificate")
    (fun octets => malformedDer "ExtendedKeyUsage" (messages.extendedKeyUsage octets))
    judgeServerAuth cert

/-- Without the extension the certificate is none of a CA. -/
def checkBasicConstraintsCaLeaf (cert : Certificate) : LintResult :=
  judgeExtension der.basicConstraints oidBasicConstraints .pass .pass
    (fun octets => malformedDer "BasicConstraints" (messages.basicConstraints octets))
    (fun constraints =>
      if constraints.ca then
        .error ("end-entity certificate asserts BasicConstraints.cA=TRUE; " ++
          "only CA certificates may assert cA")
      else .pass)
    cert

def uncriticalSanDetail : String :=
  "empty-subject certificate carries subjectAltName but it is not marked critical; " ++
    "RFC 5280 §4.2.1.6 requires the extension to be critical when the Subject is empty"

/-- The content of the extension is not read. -/
def checkSanRequiredWhenSubjectEmpty (cert : Certificate) : LintResult :=
  if ¬cert.tbsCertificate.subject.isEmpty then .pass
  else
    match cert.tbsCertificate.extensions with
    | none => .error ("empty-subject certificate has no extensions; " ++
        "RFC 5280 §4.2.1.6 requires a critical subjectAltName")
    | some extensions =>
        match extensions.find? (fun extension => extension.extnId == oidSubjectAltName) with
        | none => .error ("empty-subject certificate omits subjectAltName; " ++
            "RFC 5280 §4.2.1.6 requires it to be present and critical")
        | some extension =>
            if extension.critical then .pass
            else .error uncriticalSanDetail

def dotted (oid : ObjectIdentifier) : String := ".".intercalate (oid.arcs.map Nat.repr)

def checkSignatureAlgorithmMatch (cert : Certificate) : LintResult :=
  if cert.signatureAlgorithm = cert.tbsCertificate.signature then .pass
  else .error ("outer signatureAlgorithm (" ++ dotted cert.signatureAlgorithm.oid ++
    ") does not match tbsCertificate.signature (" ++ dotted cert.tbsCertificate.signature.oid ++
    "); RFC 5280 §4.1.1.2 requires both to be identical")

def checkMaxSerialLength (maxOctets : Nat) (cert : Certificate) : LintResult :=
  let len := cert.tbsCertificate.serialNumber.length
  if maxOctets < len then
    .error ("certificate serialNumber is " ++ len.repr ++ " octets, exceeds cap of " ++
      maxOctets.repr ++ " octets")
  else .pass

def tlsServerSanLint : Lint :=
  certificateLint "rfc6125.cert.san.tls_server_dns_or_ip_required" "RFC 6125 §6.4.1" .leaf
    (checkTlsServerSan der messages)

def rfc5280EkuServerAuthLint : Lint :=
  certificateLint "rfc5280.cert.eku.server_auth_required" "RFC 5280 §4.2.1.12" .leaf
    (checkRfc5280EkuServerAuth der messages)

def basicConstraintsCaLeafLint : Lint :=
  certificateLint "rfc5280.cert.bc.ca_false_for_leaf" "RFC 5280 §4.2.1.9" .leaf
    (checkBasicConstraintsCaLeaf der messages)

def sanRequiredWhenSubjectEmptyLint : Lint :=
  certificateLint "rfc5280.cert.san.required_when_subject_empty" "RFC 5280 §4.2.1.6" .any
    checkSanRequiredWhenSubjectEmpty

def signatureAlgorithmMatchLint : Lint :=
  certificateLint "rfc5280.cert.signature_algorithm_match" "RFC 5280 §4.1.1.2" .any
    checkSignatureAlgorithmMatch

def maxSerialLengthLint (maxOctets : Nat) : Lint :=
  certificateLint "rfc5280.cert.serial_number.max_octets" "RFC 5280 §4.1.2.2" .any
    (checkMaxSerialLength maxOctets)

def basicTlsLints : List Lint :=
  [tlsServerSanLint der messages, rfc5280EkuServerAuthLint der messages,
    basicConstraintsCaLeafLint der messages, sanRequiredWhenSubjectEmptyLint,
    signatureAlgorithmMatchLint, maxSerialLengthLint 20]

def basicTlsRunner : LintRunner := ⟨basicTlsLints der messages, ""⟩

end Baseline

section Shape

variable (certSha256Of : Certificate → Option Bytes) (der : DerCodec)
variable (messages : DecoderMessages)

/-- A certificate that fails gets all findings back, those that are none too. -/
def checkShape (runner : LintRunner) (cert : Certificate) (kind : SubjectKind)
    (nowUnix : UInt64) : Except (List Finding) Unit :=
  let findings := runner.runCert certSha256Of cert kind 0 nowUnix
  if findings.any (·.result.isFailure) then .error findings else .ok ()

def checkWebPkiShape (cert : Certificate) (nowUnix : UInt64) : Except (List Finding) Unit :=
  checkShape certSha256Of (webPkiRunner der) cert .leaf nowUnix

def checkBasicTlsShape (cert : Certificate) (nowUnix : UInt64) : Except (List Finding) Unit :=
  checkShape certSha256Of (basicTlsRunner der messages) cert .leaf nowUnix

end Shape

section Verdicts

variable {der : DerCodec} {messages : DecoderMessages} {cert : Certificate}

theorem passIf_passes_iff {condition : Prop} [Decidable condition] {detail : String} :
    (if condition then LintResult.pass else .error detail).isFailure = false ↔ condition := by
  split <;> simp_all

theorem failIf_passes_iff {condition : Prop} [Decidable condition] {detail : String}
    {otherwise : LintResult} :
    (if condition then LintResult.error detail else otherwise).isFailure = false ↔
      ¬condition ∧ otherwise.isFailure = false := by
  split <;> simp_all

/-- One rule for the lints that read an extension. Without the extension the verdict is the same
whether there are others or none. -/
theorem judgeExtension_passes_iff {α : Type} {decode : Bytes → Option α} {oid : ObjectIdentifier}
    {noExtensions absent : LintResult} {malformed : Bytes → LintResult} {judge : α → LintResult}
    {good : α → Prop} (alike : noExtensions.isFailure = absent.isFailure)
    (refused : ∀ octets, (malformed octets).isFailure = true)
    (judged : ∀ value, (judge value).isFailure = false ↔ good value) :
    (judgeExtension decode oid noExtensions absent malformed judge cert).isFailure = false ↔
      (absent.isFailure = false ∧ ExtHolds decode cert oid none) ∨
      ∃ value, ExtHolds decode cert oid (some value) ∧ good value := by
  unfold judgeExtension ExtHolds findExtension Certificate.extensions
  cases present : cert.tbsCertificate.extensions with
  | none => simp [alike]
  | some extensions =>
      simp only [Option.getD_some]
      cases extensions.find? (fun extension => extension.extnId == oid) with
      | none => simp
      | some extension =>
          cases decoded : decode extension.extnValue with
          | none => simp [decoded, refused]
          | some content => simp [decoded, judged]

theorem judgeExtension_required_iff {α : Type} {decode : Bytes → Option α}
    {oid : ObjectIdentifier} {noExtensions absent : LintResult} {malformed : Bytes → LintResult}
    {judge : α → LintResult} {good : α → Prop} (without : noExtensions.isFailure = true)
    (missing : absent.isFailure = true) (refused : ∀ octets, (malformed octets).isFailure = true)
    (judged : ∀ value, (judge value).isFailure = false ↔ good value) :
    (judgeExtension decode oid noExtensions absent malformed judge cert).isFailure = false ↔
      ∃ value, ExtHolds decode cert oid (some value) ∧ good value := by
  rw [judgeExtension_passes_iff (without.trans missing.symm) refused judged, missing]
  simp

theorem checkValidityMax_passes_iff :
    (checkValidityMax cert).isFailure = false ↔
      timeToUnixSecs cert.tbsCertificate.validity.notBefore ≤
          timeToUnixSecs cert.tbsCertificate.validity.notAfter ∧
        timeToUnixSecs cert.tbsCertificate.validity.notAfter ≤
          timeToUnixSecs cert.tbsCertificate.validity.notBefore +
            sc081ValidityCap (timeToUnixSecs cert.tbsCertificate.validity.notBefore) := by
  simp only [checkValidityMax, failIf_passes_iff, isFailure_pass, and_true]
  omega

theorem checkSha1Prohibited_passes_iff :
    (checkSha1Prohibited cert).isFailure = false ↔
      cert.signatureAlgorithm.oid ≠ sha1WithRsa ∧ cert.signatureAlgorithm.oid ≠ ecdsaWithSha1 := by
  simp [checkSha1Prohibited, failIf_passes_iff]

/-- The lint reads an RSA key of at least 2048 bits. -/
def ReadsLongKey (cert : Certificate) : Prop :=
  cert.tbsCertificate.subjectPublicKeyInfo.algorithm.oid = oidRsaEncryption →
    ∃ bits, rsaModulusBitLen cert.tbsCertificate.subjectPublicKeyInfo.subjectPublicKey.rawBytes =
      .ok (some bits) ∧ 2048 ≤ bits

def judgeModulus : Option Nat → LintResult
  | none => .error "RSA public key structure is unparseable"
  | some nBits => if 2048 ≤ nBits then .pass else .error "RSA key modulus is less than 2048 bits"

theorem checkRsaMinKeySize_eq {read : Option Nat}
    (finished : rsaModulusBitLen
      cert.tbsCertificate.subjectPublicKeyInfo.subjectPublicKey.rawBytes = .ok read) :
    checkRsaMinKeySize cert =
      if cert.tbsCertificate.subjectPublicKeyInfo.algorithm.oid ≠ oidRsaEncryption then
        .notApplicable
      else judgeModulus read := by
  apply Checked.value_eq
  simp only [checkCertRsaMinKeySize, finished, bind, Except.bind]
  split
  · rfl
  · cases read with
    | none => rfl
    | some nBits =>
        dsimp only [judgeModulus]
        split <;> rfl

theorem checkRsaMinKeySize_passes_iff :
    (checkRsaMinKeySize cert).isFailure = false ↔ ReadsLongKey cert := by
  have ⟨read, finished⟩ :=
    rsaModulusBitLen_cases cert.tbsCertificate.subjectPublicKeyInfo.subjectPublicKey.rawBytes
  rw [checkRsaMinKeySize_eq finished, ReadsLongKey, finished]
  by_cases rsa : cert.tbsCertificate.subjectPublicKeyInfo.algorithm.oid = oidRsaEncryption
  · rw [if_neg (not_not_intro rsa)]
    cases read with
    | none => simp [rsa, judgeModulus]
    | some nBits => simp [rsa, judgeModulus, passIf_passes_iff]
  · simp [rsa]

theorem checkSanRequired_passes_iff :
    (checkSanRequired der cert).isFailure = false ↔
      ∃ san, ExtHolds der.subjectAltName cert oidSubjectAltName (some san) ∧ san ≠ [] := by
  apply judgeExtension_required_iff rfl rfl (fun _ => rfl)
  intro san
  simp [failIf_passes_iff]

theorem checkEkuServerAuth_passes_iff :
    (checkEkuServerAuth der cert).isFailure = false ↔
      ∃ ekus, ExtHolds der.extendedKeyUsage cert oidExtendedKeyUsage (some ekus) ∧
        idKpServerAuth ∈ ekus :=
  judgeExtension_required_iff rfl rfl (fun _ => rfl) (fun _ => passIf_passes_iff)

theorem checkBcCaFlag_passes_iff :
    (checkBcCaFlag der cert).isFailure = false ↔
      ∃ constraints, ExtHolds der.basicConstraints cert oidBasicConstraints (some constraints) ∧
        constraints.ca = true :=
  judgeExtension_required_iff rfl rfl (fun _ => rfl) (fun _ => passIf_passes_iff)

theorem checkTlsServerSan_passes_iff :
    (checkTlsServerSan der messages cert).isFailure = false ↔
      ∃ san, ExtHolds der.subjectAltName cert oidSubjectAltName (some san) ∧
        ∃ name ∈ san, isDnsOrIp name = true := by
  apply judgeExtension_required_iff rfl rfl (fun _ => rfl)
  intro san
  cases san with
  | nil => simp
  | cons name rest => simp [passIf_passes_iff]

theorem checkRfc5280EkuServerAuth_passes_iff :
    (checkRfc5280EkuServerAuth der messages cert).isFailure = false ↔
      ∃ ekus, ExtHolds der.extendedKeyUsage cert oidExtendedKeyUsage (some ekus) ∧
        idKpServerAuth ∈ ekus :=
  judgeExtension_required_iff rfl rfl (fun _ => rfl) (fun _ => passIf_passes_iff)

theorem checkBasicConstraintsCaLeaf_passes_iff :
    (checkBasicConstraintsCaLeaf der messages cert).isFailure = false ↔
      ∃ constraints, ExtHolds der.basicConstraints cert oidBasicConstraints constraints ∧
        constraints.map (·.ca) ≠ some true := by
  have verdict : (checkBasicConstraintsCaLeaf der messages cert).isFailure = false ↔
      (LintResult.pass.isFailure = false ∧
        ExtHolds der.basicConstraints cert oidBasicConstraints none) ∨
      ∃ constraints, ExtHolds der.basicConstraints cert oidBasicConstraints (some constraints) ∧
        (¬constraints.ca = true ∧ LintResult.pass.isFailure = false) :=
    judgeExtension_passes_iff rfl (fun _ => rfl) (fun _ => failIf_passes_iff)
  rw [verdict, Option.exists]
  simp

theorem checkSanRequiredWhenSubjectEmpty_passes_iff :
    (checkSanRequiredWhenSubjectEmpty cert).isFailure = false ↔
      (cert.tbsCertificate.subject = [] → ∃ extension,
        findExtension cert oidSubjectAltName = some extension ∧ extension.critical = true) := by
  unfold checkSanRequiredWhenSubjectEmpty findExtension Certificate.extensions
  cases cert.tbsCertificate.subject with
  | cons name rest => simp
  | nil =>
      cases cert.tbsCertificate.extensions with
      | none => simp
      | some extensions =>
          simp only [Option.getD_some]
          cases extensions.find? (fun extension => extension.extnId == oidSubjectAltName) with
          | none => simp
          | some extension => simp [passIf_passes_iff]

theorem checkSignatureAlgorithmMatch_passes_iff :
    (checkSignatureAlgorithmMatch cert).isFailure = false ↔
      cert.signatureAlgorithm = cert.tbsCertificate.signature :=
  passIf_passes_iff

theorem checkMaxSerialLength_passes_iff {maxOctets : Nat} :
    (checkMaxSerialLength maxOctets cert).isFailure = false ↔
      cert.tbsCertificate.serialNumber.length ≤ maxOctets := by
  rw [checkMaxSerialLength, failIf_passes_iff, Nat.not_lt]
  simp

end Verdicts

section Runs

variable {certSha256Of : Certificate → Option Bytes} {runner : LintRunner} {cert : Certificate}
variable {kind : SubjectKind} {certIndex : Nat} {nowUnix : UInt64} {id : String}

/-- No certificate makes a lint of the runner end the run. -/
def NeverFatal (runner : LintRunner) : Prop :=
  ∀ lint ∈ runner.lints, lint.scope = .certificate ∧
    ∀ cert kind nowUnix, (lint.checkCert cert kind nowUnix).isFatal = false

theorem runLints_complete {scope : Scope} {finding : Lint → Finding} {lints : List Lint}
    (calm : ∀ lint ∈ lints, lint.scope = scope ∧ (finding lint).result.isFatal = false) :
    LintRunner.runLints scope finding lints = lints.map finding := by
  induction lints with
  | nil => rfl
  | cons lint rest ih =>
      have ⟨inScope, mild⟩ := calm lint List.mem_cons_self
      have later := ih fun other member => calm other (List.mem_cons_of_mem lint member)
      rw [LintRunner.runLints, if_neg (not_not_intro inScope), mild, later]
      rfl

/-- A finding of the findings is a failure of the lint at the position. -/
def FailsAt (findings : List Finding) (index : Nat) (id : String) : Prop :=
  ∃ finding ∈ findings, finding.certIndex = some index ∧ finding.lintId = id ∧
    finding.result.isFailure = true

/-- A lint that applies to the kind of certificate fails it. -/
def FailsLint (runner : LintRunner) (cert : Certificate) (kind : SubjectKind) (nowUnix : UInt64)
    (id : String) : Prop :=
  ∃ lint ∈ runner.lints, lint.id = id ∧ kind.matchesFilter lint.appliesTo = true ∧
    (lint.checkCert cert kind nowUnix).isFailure = true

theorem failsAt_runCert_iff (calm : NeverFatal runner) {index : Nat} :
    FailsAt (runner.runCert certSha256Of cert kind certIndex nowUnix) index id ↔
      index = certIndex ∧ FailsLint runner cert kind nowUnix id := by
  have complete : runner.runCert certSha256Of cert kind certIndex nowUnix =
      runner.lints.map fun lint =>
        { lintId := lint.id
          citation := lint.citation
          ruleBundleVersion := runner.bundleVersion
          result :=
            if kind.matchesFilter lint.appliesTo then lint.checkCert cert kind nowUnix
            else .notApplicable
          certIndex := some certIndex
          evaluatedAtUnix := nowUnix
          certSha256 := certSha256Of cert } := by
    apply runLints_complete
    intro lint member
    have ⟨inScope, mild⟩ := calm lint member
    refine ⟨inScope, ?_⟩
    dsimp only
    split
    · exact mild cert kind nowUnix
    · rfl
  rw [complete]
  constructor
  · intro ⟨finding, member, placed, named, failed⟩
    rcases List.mem_map.mp member with ⟨lint, listed, rfl⟩
    dsimp only at placed named failed
    split at failed
    · rename_i applies
      exact ⟨(Option.some.inj placed).symm, lint, listed, named, applies, failed⟩
    · cases failed
  · intro ⟨same, lint, listed, named, applies, failed⟩
    refine ⟨_, List.mem_map.mpr ⟨lint, listed, rfl⟩, congrArg some same.symm, named, ?_⟩
    dsimp only
    rw [if_pos applies]
    exact failed

/-- A certificate is in shape when no lint that applies fails it. -/
theorem checkShape_ok_iff (calm : NeverFatal runner) :
    checkShape certSha256Of runner cert kind nowUnix = .ok () ↔
      ∀ id, ¬FailsLint runner cert kind nowUnix id := by
  have placed (id : String) :
      FailsAt (runner.runCert certSha256Of cert kind 0 nowUnix) 0 id ↔
        0 = 0 ∧ FailsLint runner cert kind nowUnix id := failsAt_runCert_iff calm
  simp only [true_and] at placed
  simp only [checkShape, ← placed]
  split
  · rename_i failed
    rw [List.any_eq_true] at failed
    rcases failed with ⟨finding, member, failure⟩
    simp only [reduceCtorEq, false_iff]
    intro none_
    exact none_ finding.lintId ⟨finding, member, certIndex_runCert member, rfl, failure⟩
  · rename_i passed
    simp only [true_iff]
    intro id ⟨finding, member, _, _, failure⟩
    exact passed (List.any_eq_true.mpr ⟨finding, member, failure⟩)

theorem failsAt_append {first second : List Finding} {index : Nat} :
    FailsAt (first ++ second) index id ↔ FailsAt first index id ∨ FailsAt second index id := by
  simp only [FailsAt, List.mem_append, or_and_right, exists_or]

/-- A run over a chain leaves the failures of each certificate at its own position. -/
theorem failsAt_runChainFrom_iff (calm : NeverFatal runner) {chain : List Certificate}
    {kinds : List SubjectKind} {start index : Nat} :
    FailsAt (runner.runChainFrom certSha256Of nowUnix start chain kinds) index id ↔
      ∃ offset cert kind, index = start + offset ∧ chain[offset]? = some cert ∧
        kinds[offset]? = some kind ∧ FailsLint runner cert kind nowUnix id := by
  induction chain generalizing start kinds with
  | nil => simp [LintRunner.runChainFrom, FailsAt]
  | cons cert chain ih =>
      cases kinds with
      | nil => simp [LintRunner.runChainFrom, FailsAt]
      | cons kind kinds =>
          rw [LintRunner.runChainFrom, failsAt_append, failsAt_runCert_iff calm, ih]
          constructor
          · rintro (⟨same, failed⟩ | ⟨offset, other, otherKind, same, located, kindOf, failed⟩)
            · exact ⟨0, cert, kind, same, rfl, rfl, failed⟩
            · exact ⟨offset + 1, other, otherKind, by omega, located, kindOf, failed⟩
          · intro ⟨offset, other, otherKind, same, located, kindOf, failed⟩
            cases offset with
            | zero =>
                cases located
                cases kindOf
                exact .inl ⟨same, failed⟩
            | succ offset => exact .inr ⟨offset, other, otherKind, by omega, located, kindOf, failed⟩

theorem failsAt_runChain_iff (calm : NeverFatal runner) {chain : List Certificate}
    {kinds : List SubjectKind} {findings : List Finding} {index : Nat}
    (ran : runner.runChain certSha256Of chain kinds nowUnix = some findings) :
    FailsAt findings index id ↔ ∃ cert kind, chain[index]? = some cert ∧
      kinds[index]? = some kind ∧ FailsLint runner cert kind nowUnix id := by
  unfold LintRunner.runChain at ran
  split at ran
  · cases ran
    simp [failsAt_runChainFrom_iff calm]
  · cases ran

end Runs

end Pkix.Lint
