import Pkix.Chain.PurposeSoundness
import Pkix.Lint.CertificateLints
import Pkix.Path.ChainSuffix
import Pkix.Profiles.Hierarchy

/-! The lints of a profile against its validation policy: what the lints still find in a chain that
the policy accepts, and what the policy may still refuse in a chain that the lints let pass. -/

namespace Pkix.Lint

open Pkix.Path Profiles DerFraming Framing Octets

section Calm

theorem judgeExtension_notFatal {α : Type} {decode : Bytes → Option α} {oid : ObjectIdentifier}
    {noExtensions absent : LintResult} {malformed : Bytes → LintResult} {judge : α → LintResult}
    {cert : Certificate} (without : noExtensions.isFatal = false) (missing : absent.isFatal = false)
    (refused : ∀ octets, (malformed octets).isFatal = false)
    (judged : ∀ value, (judge value).isFatal = false) :
    (judgeExtension decode oid noExtensions absent malformed judge cert).isFatal = false := by
  unfold judgeExtension
  split
  · exact without
  · split
    · exact missing
    · split
      · exact refused _
      · exact judged _

theorem ite_notFatal {condition : Prop} [Decidable condition] {first second : LintResult}
    (one : first.isFatal = false) (other : second.isFatal = false) :
    (if condition then first else second).isFatal = false := by
  split
  · exact one
  · exact other

theorem certificateLint_calm {id citation : String} {appliesTo : SubjectKind}
    {check : Certificate → LintResult} (mild : ∀ cert, (check cert).isFatal = false) :
    (certificateLint id citation appliesTo check).scope = .certificate ∧
      ∀ cert kind nowUnix,
        ((certificateLint id citation appliesTo check).checkCert cert kind nowUnix).isFatal =
          false :=
  ⟨rfl, fun cert _ _ => mild cert⟩

theorem checkRsaMinKeySize_notFatal (cert : Certificate) :
    (checkRsaMinKeySize cert).isFatal = false := by
  have ⟨read, finished⟩ :=
    rsaModulusBitLen_cases cert.tbsCertificate.subjectPublicKeyInfo.subjectPublicKey.rawBytes
  rw [checkRsaMinKeySize_eq finished]
  apply ite_notFatal rfl
  cases read with
  | none => rfl
  | some nBits => exact ite_notFatal rfl rfl

theorem webPkiRunner_neverFatal (der : DerCodec) : NeverFatal (webPkiRunner der) := by
  intro lint member
  have listed : lint ∈ cabfTlsBrLints der := member
  simp only [cabfTlsBrLints, List.mem_cons, List.not_mem_nil, or_false] at listed
  rcases listed with rfl | rfl | rfl | rfl | rfl | rfl
  · exact certificateLint_calm fun _ => ite_notFatal rfl (ite_notFatal rfl rfl)
  · exact certificateLint_calm fun _ => ite_notFatal rfl rfl
  · exact certificateLint_calm checkRsaMinKeySize_notFatal
  · exact certificateLint_calm fun _ =>
      judgeExtension_notFatal rfl rfl (fun _ => rfl) fun _ => ite_notFatal rfl rfl
  · exact certificateLint_calm fun _ =>
      judgeExtension_notFatal rfl rfl (fun _ => rfl) fun _ => ite_notFatal rfl rfl
  · exact certificateLint_calm fun _ =>
      judgeExtension_notFatal rfl rfl (fun _ => rfl) fun _ => ite_notFatal rfl rfl

theorem checkSanRequiredWhenSubjectEmpty_notFatal (cert : Certificate) :
    (checkSanRequiredWhenSubjectEmpty cert).isFatal = false := by
  unfold checkSanRequiredWhenSubjectEmpty
  apply ite_notFatal rfl
  split
  · rfl
  · split
    · rfl
    · exact ite_notFatal rfl rfl

theorem basicTlsRunner_neverFatal (der : DerCodec) (messages : DecoderMessages) :
    NeverFatal (basicTlsRunner der messages) := by
  intro lint member
  have listed : lint ∈ basicTlsLints der messages := member
  simp only [basicTlsLints, List.mem_cons, List.not_mem_nil, or_false] at listed
  rcases listed with rfl | rfl | rfl | rfl | rfl | rfl
  · exact certificateLint_calm fun _ => judgeExtension_notFatal rfl rfl (fun _ => rfl) fun _ =>
      ite_notFatal rfl (ite_notFatal rfl rfl)
  · exact certificateLint_calm fun _ =>
      judgeExtension_notFatal rfl rfl (fun _ => rfl) fun _ => ite_notFatal rfl rfl
  · exact certificateLint_calm fun _ =>
      judgeExtension_notFatal rfl rfl (fun _ => rfl) fun _ => ite_notFatal rfl rfl
  · exact certificateLint_calm checkSanRequiredWhenSubjectEmpty_notFatal
  · exact certificateLint_calm fun _ => ite_notFatal rfl rfl
  · exact certificateLint_calm fun _ => ite_notFatal rfl rfl

end Calm

section Failures

variable {der : DerCodec} {messages : DecoderMessages} {cert : Certificate} {kind : SubjectKind}
variable {nowUnix : UInt64} {id : String}

theorem failsLint_webPki_iff :
    FailsLint (webPkiRunner der) cert kind nowUnix id ↔
      (id = "cabf.br.tls.validity.max" ∧ kind.matchesFilter .leaf = true ∧
        (checkValidityMax cert).isFailure = true) ∨
      (id = "cabf.br.tls.alg.sha1_prohibited" ∧ (checkSha1Prohibited cert).isFailure = true) ∨
      (id = "cabf.br.tls.rsa.min_key_size" ∧ (checkRsaMinKeySize cert).isFailure = true) ∨
      (id = "cabf.br.tls.san.required" ∧ kind.matchesFilter .leaf = true ∧
        (checkSanRequired der cert).isFailure = true) ∨
      (id = "cabf.br.tls.eku.server_auth" ∧ kind.matchesFilter .leaf = true ∧
        (checkEkuServerAuth der cert).isFailure = true) ∨
      (id = "cabf.br.tls.bc.ca_flag" ∧ kind.matchesFilter .intermediateCa = true ∧
        (checkBcCaFlag der cert).isFailure = true) := by
  have anyKind : kind.matchesFilter .any = true := rfl
  simp only [FailsLint, webPkiRunner, cabfTlsBrLints, List.mem_cons, List.not_mem_nil, or_false,
    or_and_right, exists_or, exists_eq_left, validityMaxLint, sha1ProhibitedLint,
    rsaMinKeySizeLint, sanRequiredLint, ekuServerAuthLint, bcCaFlagLint, certificateLint, anyKind,
    true_and, eq_comm]

theorem failsLint_basicTls_iff :
    FailsLint (basicTlsRunner der messages) cert kind nowUnix id ↔
      (id = "rfc6125.cert.san.tls_server_dns_or_ip_required" ∧ kind.matchesFilter .leaf = true ∧
        (checkTlsServerSan der messages cert).isFailure = true) ∨
      (id = "rfc5280.cert.eku.server_auth_required" ∧ kind.matchesFilter .leaf = true ∧
        (checkRfc5280EkuServerAuth der messages cert).isFailure = true) ∨
      (id = "rfc5280.cert.bc.ca_false_for_leaf" ∧ kind.matchesFilter .leaf = true ∧
        (checkBasicConstraintsCaLeaf der messages cert).isFailure = true) ∨
      (id = "rfc5280.cert.san.required_when_subject_empty" ∧
        (checkSanRequiredWhenSubjectEmpty cert).isFailure = true) ∨
      (id = "rfc5280.cert.signature_algorithm_match" ∧
        (checkSignatureAlgorithmMatch cert).isFailure = true) ∨
      (id = "rfc5280.cert.serial_number.max_octets" ∧
        (checkMaxSerialLength 20 cert).isFailure = true) := by
  have anyKind : kind.matchesFilter .any = true := rfl
  simp only [FailsLint, basicTlsRunner, basicTlsLints, List.mem_cons, List.not_mem_nil, or_false,
    or_and_right, exists_or, exists_eq_left, tlsServerSanLint, rfc5280EkuServerAuthLint,
    basicConstraintsCaLeafLint, sanRequiredWhenSubjectEmptyLint, signatureAlgorithmMatchLint,
    maxSerialLengthLint, certificateLint, anyKind, true_and, eq_comm]

end Failures

section Keys

variable {der : DerCodec} {cert : Certificate}

theorem framed_of_readRsaModulus {raw modulus : Bytes} (read : readRsaModulus raw = some modulus) :
    IsMagnitude modulus ∧ ∃ behind rest, (writeUint modulus ++ behind).length < lengthLimit ∧
      raw = writeTlv sequenceTag (writeUint modulus ++ behind) ++ rest := by
  unfold readRsaModulus at read
  cases outer : readTlv () sequenceTag raw with
  | error failure => simp [outer] at read
  | ok taken =>
      rcases taken with ⟨content, rest⟩
      rcases (readTlv_exact () sequenceTag raw content rest).mp outer with ⟨fits, rfl⟩
      simp only [outer, readWhole] at read
      cases inner : rsaModulusFields content with
      | error failure => simp [inner, Except.toOption] at read
      | ok fields =>
          rcases fields with ⟨found, tail⟩
          rcases read_bind_ok.mp inner with ⟨value, behind, first, second⟩
          rcases read_bind_ok.mp second with ⟨_, _, _, returned⟩
          rcases read_pure_ok.mp returned with ⟨rfl, rfl⟩
          rcases (readUint_exact () content value behind).mp first with ⟨⟨number, _⟩, rfl⟩
          have same : value = modulus := by
            simp only [inner] at read
            split at read
            · exact Option.some.inj read
            · cases read
          subst same
          exact ⟨number, behind, rest, fits, rfl⟩

theorem size_between {high : UInt8} (notZero : high ≠ 0) (low : Bytes) :
    Nat.size (bigEndian (high :: low)) ≤ (high :: low).length * 8 ∧
      (high :: low).length * 8 < Nat.size (bigEndian (high :: low)) + 8 := by
  have positive : 0 < Nat.size high.toNat := by
    apply Nat.size_pos.mpr
    exact Nat.pos_of_ne_zero fun zero => notZero (UInt8.toNat_inj.mp zero)
  have few : Nat.size high.toNat ≤ 8 := Nat.size_le.mpr high.toNat_lt
  rw [size_bigEndian notZero, List.length_cons]
  omega

theorem measured_modulus {bits : Nat}
    (measured : rsaPublicKeyBits der cert.tbsCertificate.subjectPublicKeyInfo = some bits) :
    cert.tbsCertificate.subjectPublicKeyInfo.algorithm.oid = oidRsaEncryption ∧ ∃ modulus,
      der.rsaModulus cert.tbsCertificate.subjectPublicKeyInfo.subjectPublicKey.rawBytes =
        some modulus ∧ bits = modulus.length * 8 := by
  unfold rsaPublicKeyBits BitString.asBytes at measured
  by_cases rsa : cert.tbsCertificate.subjectPublicKeyInfo.algorithm.oid = oidRsaEncryption
  · refine ⟨rsa, ?_⟩
    rw [if_pos rsa] at measured
    by_cases aligned : cert.tbsCertificate.subjectPublicKeyInfo.subjectPublicKey.unusedBits = 0
    · rw [if_pos aligned] at measured
      dsimp only at measured
      split at measured
      · cases measured
      · rename_i modulus decoded
        split at measured
        · exact ⟨modulus, decoded, (Option.some.inj measured).symm⟩
        · cases measured
    · rw [if_neg aligned] at measured
      cases measured
  · rw [if_neg rsa] at measured
    cases measured

theorem rsaModulusBitLen_zero {behind rest : Bytes}
    (fits : (writeUint [0] ++ behind).length < lengthLimit) :
    rsaModulusBitLen (writeTlv sequenceTag (writeUint [0] ++ behind) ++ rest) = .ok none := by
  have outer := derPeelTlv_writeTlv fits sequenceTag rest
  have inner : derPeelTlv (writeUint [0] ++ behind) integerTag = .ok (some ([0], behind)) :=
    derPeelTlv_writeTlv (by decide) integerTag behind
  unfold rsaModulusBitLen
  exact Walk.bind_ok.mpr ⟨_, outer, Walk.bind_ok.mpr ⟨_, inner, rfl⟩⟩

/-- What the validator measures in whole octets, the lint reads to the bit. A modulus of zero is
none for it. -/
theorem measures_agree (reads : der.rsaModulus = readRsaModulus) {bits : Nat}
    (measured : rsaPublicKeyBits der cert.tbsCertificate.subjectPublicKeyInfo = some bits) :
    ∃ read, rsaModulusBitLen cert.tbsCertificate.subjectPublicKeyInfo.subjectPublicKey.rawBytes =
        .ok read ∧
      ((bits = 8 ∧ read = none) ∨ ∃ units exactBits, bits = units * 8 ∧ read = some exactBits ∧
        exactBits ≤ bits ∧ bits < exactBits + 8) := by
  rcases measured_modulus measured with ⟨_, modulus, decoded, rfl⟩
  rw [reads] at decoded
  rcases framed_of_readRsaModulus decoded with ⟨number, behind, rest, fits, shape⟩
  rw [shape]
  rcases number with rfl | ⟨high, low, rfl, notZero⟩
  · exact ⟨none, rsaModulusBitLen_zero fits, .inl ⟨rfl, rfl⟩⟩
  · have positive : 0 < bigEndian (high :: low) :=
      Nat.lt_of_lt_of_le (Nat.pow_pos (by decide)) (le_bigEndian notZero low)
    have read : rsaModulusBitLen
        (writeTlv sequenceTag (writeUint (high :: low) ++ behind) ++ rest) = _ :=
      rsaModulusBitLen_framed (.inr ⟨high, low, rfl, notZero⟩) positive fits
    have between := size_between notZero low
    exact ⟨_, read, .inr ⟨_, _, rfl, rfl, between.1, between.2⟩⟩

/-- A key that the lint takes for long enough is no shorter for the validator. -/
theorem ReadsLongKey.measured (long : ReadsLongKey cert) (reads : der.rsaModulus = readRsaModulus)
    {bits : Nat}
    (measured : rsaPublicKeyBits der cert.tbsCertificate.subjectPublicKeyInfo = some bits) :
    2048 ≤ bits := by
  rcases long (measured_modulus measured).1 with ⟨found, read, enough⟩
  rcases measures_agree reads measured with ⟨other, same, cases_⟩
  rw [read, Except.ok.injEq] at same
  rcases cases_ with ⟨_, rfl⟩ | ⟨_, exactBits, _, rfl, atMost, _⟩
  · cases same
  · rw [Option.some.injEq] at same
    omega

/-- The validator measures no key, and the lint reads none that is long enough. -/
structure Unmeasured (der : DerCodec) (cert : Certificate) : Prop where
  unmeasured : rsaPublicKeyBits der cert.tbsCertificate.subjectPublicKeyInfo = none
  short : ¬ReadsLongKey cert

/-- The octets of the modulus make 2048 bits, of which the first few are zero. -/
structure RoundedUp (der : DerCodec) (cert : Certificate) : Prop where
  measured : rsaPublicKeyBits der cert.tbsCertificate.subjectPublicKeyInfo = some 2048
  short : ∃ bits,
    rsaModulusBitLen cert.tbsCertificate.subjectPublicKeyInfo.subjectPublicKey.rawBytes =
      .ok (some bits) ∧ 2040 < bits ∧ bits < 2048

/-- Above the floor of the validator the lint finds only the keys that the validator does not
measure or rounds up. -/
theorem not_readsLongKey_iff (reads : der.rsaModulus = readRsaModulus)
    (floor : ∀ bits,
      rsaPublicKeyBits der cert.tbsCertificate.subjectPublicKeyInfo = some bits → 2048 ≤ bits) :
    ¬ReadsLongKey cert ↔ Unmeasured der cert ∨ RoundedUp der cert := by
  constructor
  · intro short
    cases measured : rsaPublicKeyBits der cert.tbsCertificate.subjectPublicKeyInfo with
    | none => exact .inl ⟨measured, short⟩
    | some bits =>
        have enough := floor bits measured
        rcases measures_agree reads measured with
          ⟨_, read, ⟨rfl, _⟩ | ⟨units, exactBits, rfl, rfl, atMost, above⟩⟩
        · omega
        · have below : exactBits < 2048 := by
            by_contra long
            exact short fun _ => ⟨exactBits, read, Nat.not_lt.mp long⟩
          have octets : units * 8 = 2048 := by omega
          rw [octets] at measured
          exact .inr ⟨measured, exactBits, read, by omega, below⟩
  · rintro (unmeasured | ⟨measured, bits, read, _, below⟩) long
    · exact unmeasured.short long
    · rcases long (measured_modulus measured).1 with ⟨other, same, enough⟩
      rw [read, Except.ok.injEq, Option.some.injEq] at same
      omega

end Keys

section Profiles

variable {der : DerCodec} {verifier : SignatureVerifier} {chain : List Certificate}
variable {anchors : List TrustAnchor} {path : ValidatedPath} {currentTime : Nat}

/-- A profile accepts what any profile it overlays accepts, if its own requirements are met. -/
theorem validates_iff_meets {a b : Profile} (listed : b ∈ a.baselines) :
    validatePath der (a.policy currentTime) verifier chain anchors = .ok path ↔
      validatePath der (b.policy currentTime) verifier chain anchors = .ok path ∧
        Meets der (a.policy currentTime) chain := by
  have ⟨aExplicit, aAny, aMapping, aSet⟩ := a.policy_inputs currentTime
  have ⟨bExplicit, bAny, bMapping, bSet⟩ := b.policy_inputs currentTime
  have shared : SamePolicyInputs (a.policy currentTime) (b.policy currentTime) :=
    ⟨by rw [aExplicit, bExplicit], by rw [aAny, bAny], by rw [aMapping, bMapping],
      by rw [aSet, bSet]⟩
  have back : SamePolicyInputs (b.policy currentTime) (a.policy currentTime) :=
    ⟨shared.explicitPolicy.symm, shared.anyPolicyInhibit.symm, shared.mappingInhibit.symm,
      shared.policySet.symm⟩
  constructor
  · intro accepted
    have met := meets_of_validatePath accepted
    exact ⟨validatePath_exchange shared (met.relax (stricter_of_mem_baselines currentTime listed))
      accepted, met⟩
  · intro ⟨accepted, met⟩
    exact validatePath_exchange back met accepted

/-- Of the certificates above the leaf the policy asks no more than the other, and of every
certificate just that it is current. -/
structure AsksOfLeaf (policy base : ValidationPolicy) : Prop where
  sameTime : policy.currentTimeUnix = base.currentTimeUnix
  asLong : base.maxPathLen ≤ policy.maxPathLen
  anyAlgorithm : policy.allowedSignatureAlgs = none
  anyLifetime : policy.maxValiditySecs = none
  anyKey : policy.minRsaKeyBits = none
  certSign : policy.enforceKeyUsage = true → base.enforceKeyUsage = true
  crlSign : policy.requireCrlSignOnCas = true → base.requireCrlSignOnCas = true

theorem meets_withLeaf {policy base : ValidationPolicy} {leaf : Certificate}
    {rest : List Certificate} (asks : AsksOfLeaf policy base)
    (met : Meets der base (leaf :: rest)) (own : MeetsAsLeaf der policy leaf) :
    Meets der policy (leaf :: rest) where
  short := Nat.le_trans met.short asks.asLong
  everywhere cert member :=
    { algorithm := fun _ asked => by simp [asks.anyAlgorithm] at asked
      current := by
        rw [asks.sameTime]
        exact (met.everywhere cert member).current
      lifetime := fun _ asked => by simp [asks.anyLifetime] at asked
      keySize := fun _ _ asked => by simp [asks.anyKey] at asked }
  leaf cert first := by
    cases first
    exact own
  cas cert member :=
    { certSign := fun asked => (met.cas cert member).certSign (asks.certSign asked)
      crlSign := fun asked => (met.cas cert member).crlSign (asks.crlSign asked) }

end Profiles

namespace Concrete

open Pkix.Path.Concrete Chain.Concrete

def lintCodec : DerCodec := { purposeCodec.toDerCodec with rsaModulus := readRsaModulus }

/-- Three hundred days after the new year of 2025. -/
def lateOctober2025 : DateTime :=
  { newYear2025 with month := 10, day := 28, unixDuration := newYear2025.unixDuration + 25920000 }

/-- The server with a lifetime within the cap. -/
def shortLeaf : Certificate :=
  { serverLeaf with
    tbsCertificate :=
      { serverLeaf.tbsCertificate with
        validity := ⟨.utcTime newYear2025, .utcTime lateOctober2025⟩ } }

def noMessages : DecoderMessages := ⟨fun _ => [], fun _ => [], fun _ => []⟩

def noDigest : Certificate → Option Bytes := fun _ => none

end Concrete

section WebPki

variable {der : DerCodec} {verifier : SignatureVerifier} {chain : List Certificate}
variable {anchors : List TrustAnchor} {path : ValidatedPath} {currentTime : Nat}
variable {certSha256Of : Certificate → Option Bytes} {kinds : List SubjectKind}
variable {nowUnix : UInt64} {findings : List Finding}

/-- The kinds that the certificates of a chain have by their places. -/
def Roles (kinds : List SubjectKind) : Prop :=
  ∀ index kind, kinds[index]? = some kind →
    (index = 0 ∧ kind = .leaf) ∨ (0 < index ∧ (kind = .intermediateCa ∨ kind = .anchorIssued))

/-- The lifetime is longer than the cap at the time of issuance. -/
def OverCap (cert : Certificate) : Prop :=
  timeToUnixSecs cert.tbsCertificate.validity.notBefore +
      sc081ValidityCap (timeToUnixSecs cert.tbsCertificate.validity.notBefore) <
    timeToUnixSecs cert.tbsCertificate.validity.notAfter

theorem fails_iff_not {result : LintResult} {good : Prop} (passes : result.isFailure = false ↔ good) :
    result.isFailure = true ↔ ¬good := by
  rw [← passes, Bool.not_eq_false]

theorem not_sha1_of_allowed {oid : ObjectIdentifier} (allowed : oid ∈ cabfTlsBrAllowedAlgs) :
    oid ≠ sha1WithRsa ∧ oid ≠ ecdsaWithSha1 := by
  constructor
  · rintro rfl
    exact absurd allowed (by decide)
  · rintro rfl
    exact absurd allowed (by decide)

/-- What an accepted chain has to show for the lints at a position. -/
structure Shows (der : DerCodec) (cert : Certificate) (index : Nat) : Prop where
  algorithm : cert.signatureAlgorithm.oid ∈ cabfTlsBrAllowedAlgs
  ordered : timeToUnixSecs cert.tbsCertificate.validity.notBefore ≤
    timeToUnixSecs cert.tbsCertificate.validity.notAfter
  floor : ∀ bits, rsaPublicKeyBits der cert.tbsCertificate.subjectPublicKeyInfo = some bits →
    2048 ≤ bits
  san : index = 0 → (checkSanRequired der cert).isFailure = false
  eku : index = 0 → (checkEkuServerAuth der cert).isFailure = false
  caFlag : 0 < index → (checkBcCaFlag der cert).isFailure = false

theorem extHolds_nonempty {α : Type} {decode : Bytes → Option (List α)} {cert : Certificate}
    {oid : ObjectIdentifier} {content : Option (List α)} {good : List α → Prop}
    (held : ExtHolds decode cert oid content) (holds : good (content.getD []))
    (proper : ¬good []) : ∃ values, ExtHolds decode cert oid (some values) ∧ good values := by
  cases content with
  | none => exact absurd holds proper
  | some values => exact ⟨values, held, holds⟩

theorem shows_of_accepted
    (accepted : validatePath der (webPkiPolicy currentTime) verifier chain anchors = .ok path)
    {index : Nat} {cert : Certificate} (located : chain[index]? = some cert) :
    Shows der cert index := by
  have met := meets_of_validatePath accepted
  have asked := met.everywhere cert (List.mem_of_getElem? located)
  rcases validatePath_ok accepted with ⟨_, _, _, _, _, _, _, _, walked, _⟩
  have linked := linkVerified_of_walk walked index cert located
  have leaf (bottom : index = 0) : MeetsAsLeaf der (webPkiPolicy currentTime) cert := by
    apply met.leaf cert
    rw [List.head?_eq_getElem?, ← bottom, located]
  refine
    { algorithm := asked.algorithm _ rfl
      ordered := Nat.le_trans asked.current.1 asked.current.2
      floor := fun bits => asked.keySize 2048 bits rfl
      san := ?_
      eku := ?_
      caFlag := ?_ }
  · intro bottom
    rcases (leaf bottom).san rfl with ⟨san, held, nonempty⟩
    exact checkSanRequired_passes_iff.mpr
      (extHolds_nonempty held nonempty (not_not_intro rfl))
  · intro bottom
    rcases (leaf bottom).eku _ rfl with ⟨ekus, held, within⟩
    exact checkEkuServerAuth_passes_iff.mpr
      (extHolds_nonempty held (within List.mem_cons_self) List.not_mem_nil)
  · intro inner
    rcases linked.caFlag inner with ⟨extension, constraints, found, decoded, flag⟩
    refine checkBcCaFlag_passes_iff.mpr ⟨constraints, ?_, flag⟩
    rw [ExtHolds, found]
    exact ⟨constraints, decoded, rfl⟩

theorem leafAlone_roles : Roles [.leaf] := by
  intro index kind found
  rcases List.getElem?_eq_some_iff.mp found with ⟨inside, rfl⟩
  have bottom : index = 0 := by simpa using inside
  subst bottom
  exact .inl ⟨rfl, rfl⟩

theorem Roles.applies (roles : Roles kinds) {index : Nat} {kind : SubjectKind}
    (kindOf : kinds[index]? = some kind) :
    (kind.matchesFilter .leaf = true ↔ index = 0) ∧
      (kind.matchesFilter .intermediateCa = true ↔ 0 < index) := by
  rcases roles index kind kindOf with ⟨rfl, rfl⟩ | ⟨inner, rfl | rfl⟩
  · simp [SubjectKind.matchesFilter]
  · simp [SubjectKind.matchesFilter, inner, Nat.ne_of_gt inner]
  · simp [SubjectKind.matchesFilter, inner, Nat.ne_of_gt inner]

theorem kind_of_runChain {runner : LintRunner}
    (ran : runner.runChain certSha256Of chain kinds nowUnix = some findings) {index : Nat}
    {cert : Certificate} (located : chain[index]? = some cert) :
    ∃ kind, kinds[index]? = some kind := by
  have inside := (List.getElem?_eq_some_iff.mp located).1
  unfold LintRunner.runChain at ran
  split at ran
  · rename_i same
    exact ⟨_, List.getElem?_eq_getElem (same ▸ inside)⟩
  · cases ran

/-- The lints fail a chain that the policy of the Web PKI accepts in two ways only, that the policy
leaves to them: a leaf whose lifetime exceeds the cap of its time, and an RSA key that the validator
does not measure or measures by its octets. -/
theorem webPki_failures_of_accepted (reads : der.rsaModulus = readRsaModulus)
    (accepted : validatePath der (webPkiPolicy currentTime) verifier chain anchors = .ok path)
    (roles : Roles kinds)
    (ran : (webPkiRunner der).runChain certSha256Of chain kinds nowUnix = some findings)
    (index : Nat) (id : String) :
    FailsAt findings index id ↔ ∃ cert, chain[index]? = some cert ∧
      ((id = "cabf.br.tls.validity.max" ∧ index = 0 ∧ OverCap cert) ∨
        (id = "cabf.br.tls.rsa.min_key_size" ∧ (Unmeasured der cert ∨ RoundedUp der cert))) := by
  rw [failsAt_runChain_iff (webPkiRunner_neverFatal der) ran]
  constructor
  · intro ⟨cert, kind, located, kindOf, failed⟩
    have shows := shows_of_accepted accepted located
    have applies := roles.applies kindOf
    refine ⟨cert, located, ?_⟩
    rcases failsLint_webPki_iff.mp failed with ⟨named, leaf, failed⟩ | ⟨_, failed⟩ |
      ⟨named, failed⟩ | ⟨_, leaf, failed⟩ | ⟨_, leaf, failed⟩ | ⟨_, inner, failed⟩
    · have broken := (fails_iff_not checkValidityMax_passes_iff).mp failed
      exact .inl ⟨named, applies.1.mp leaf,
        Nat.not_le.mp fun short => broken ⟨shows.ordered, short⟩⟩
    · have broken := (fails_iff_not checkSha1Prohibited_passes_iff).mp failed
      exact absurd (not_sha1_of_allowed shows.algorithm) broken
    · have broken := (fails_iff_not checkRsaMinKeySize_passes_iff).mp failed
      exact .inr ⟨named, (not_readsLongKey_iff reads shows.floor).mp broken⟩
    · simp [shows.san (applies.1.mp leaf)] at failed
    · simp [shows.eku (applies.1.mp leaf)] at failed
    · simp [shows.caFlag (applies.2.mp inner)] at failed
  · intro ⟨cert, located, failures⟩
    rcases kind_of_runChain ran located with ⟨kind, kindOf⟩
    have applies := roles.applies kindOf
    refine ⟨cert, kind, located, kindOf, failsLint_webPki_iff.mpr ?_⟩
    rcases failures with ⟨named, bottom, exceeds⟩ | ⟨named, short⟩
    · refine .inl ⟨named, applies.1.mpr bottom, ?_⟩
      exact (fails_iff_not checkValidityMax_passes_iff).mpr fun passes =>
        Nat.not_le.mpr exceeds passes.2
    · refine .inr (.inr (.inl ⟨named, (fails_iff_not checkRsaMinKeySize_passes_iff).mpr ?_⟩))
      exact (not_readsLongKey_iff reads
        (shows_of_accepted accepted located).floor).mpr short

open Concrete Pkix.Path.Concrete PathBuilder.Concrete Chain.Concrete in
/-- A server for ten years is accepted, and found to be one. -/
theorem webPki_failures_of_accepted_serverLeaf :
    ∃ findings, (webPkiRunner lintCodec).runChain noDigest [serverLeaf] [.leaf] 0 = some findings ∧
      (FailsAt findings 0 "cabf.br.tls.validity.max" ↔ ∃ cert, [serverLeaf][0]? = some cert ∧
        (("cabf.br.tls.validity.max" = "cabf.br.tls.validity.max" ∧ 0 = 0 ∧ OverCap cert) ∨
          ("cabf.br.tls.validity.max" = "cabf.br.tls.rsa.min_key_size" ∧
            (Unmeasured lintCodec cert ∨ RoundedUp lintCodec cert)))) := by
  have accepted : validatePath lintCodec (webPkiPolicy 1800000000) keyCopyVerifier [serverLeaf]
      rootAnchors = .ok (validatedPath [serverLeaf] serverLeaf 0 none) := by decide +kernel
  exact ⟨_, rfl, webPki_failures_of_accepted rfl accepted leafAlone_roles rfl 0 _⟩

/-- The lints have no failure among the findings. -/
def Clean (findings : List Finding) : Prop := ∀ finding ∈ findings, finding.result.isFailure = false

theorem Clean.passes {runner : LintRunner} (clean : Clean findings) (calm : NeverFatal runner)
    (ran : runner.runChain certSha256Of chain kinds nowUnix = some findings) {index : Nat}
    {cert : Certificate} {kind : SubjectKind} (located : chain[index]? = some cert)
    (kindOf : kinds[index]? = some kind) {id : String} : ¬FailsLint runner cert kind nowUnix id := by
  intro failed
  rcases (failsAt_runChain_iff calm ran).mpr ⟨cert, kind, located, kindOf, failed⟩ with
    ⟨finding, member, _, _, failure⟩
  simp [clean finding member] at failure

/-- What the lints of a chain without a failure show of a certificate. -/
theorem Clean.webPki (clean : Clean findings) (roles : Roles kinds)
    (ran : (webPkiRunner der).runChain certSha256Of chain kinds nowUnix = some findings)
    {index : Nat} {cert : Certificate} (located : chain[index]? = some cert) :
    ReadsLongKey cert ∧ (index = 0 → (checkSanRequired der cert).isFailure = false ∧
      (checkEkuServerAuth der cert).isFailure = false) := by
  rcases kind_of_runChain ran located with ⟨kind, kindOf⟩
  have calm := webPkiRunner_neverFatal der
  have leaf := (roles.applies kindOf).1
  have passes {id : String} : ¬FailsLint (webPkiRunner der) cert kind nowUnix id :=
    clean.passes calm ran located kindOf
  refine ⟨checkRsaMinKeySize_passes_iff.mp ?_, fun bottom => ⟨?_, ?_⟩⟩
  · by_contra failed
    exact passes (failsLint_webPki_iff.mpr (.inr (.inr (.inl ⟨rfl, by simpa using failed⟩))))
  · by_contra failed
    exact passes (failsLint_webPki_iff.mpr
      (.inr (.inr (.inr (.inl ⟨rfl, leaf.mpr bottom, by simpa using failed⟩)))))
  · by_contra failed
    exact passes (failsLint_webPki_iff.mpr
      (.inr (.inr (.inr (.inr (.inl ⟨rfl, leaf.mpr bottom, by simpa using failed⟩))))))

/-- What the Web PKI asks of a leaf. -/
theorem meetsAsLeaf_webPki {cert : Certificate}
    (san : ∃ names, ExtHolds der.subjectAltName cert oidSubjectAltName (some names) ∧ names ≠ [])
    (eku : ∃ ekus, ExtHolds der.extendedKeyUsage cert oidExtendedKeyUsage (some ekus) ∧
      idKpServerAuth ∈ ekus) : MeetsAsLeaf der (webPkiPolicy currentTime) cert := by
  rcases san with ⟨names, held, nonempty⟩
  rcases eku with ⟨ekus, found, listed⟩
  exact
    { san := fun _ => ⟨some names, held, nonempty⟩
      rfc822San := fun _ asked => by cases asked
      eku := fun required asked => by
        cases asked
        exact ⟨some ekus, found, List.cons_subset.mpr ⟨listed, List.nil_subset _⟩⟩
      policyOids := fun _ asked => by cases asked
      dnAttrs := fun _ asked => by cases asked }

/-- A clean chain of allowed algorithms that validates under RFC 5280 has what the Web PKI asks. -/
theorem Clean.meets_webPki (clean : Clean findings) (reads : der.rsaModulus = readRsaModulus)
    (roles : Roles kinds)
    (ran : (webPkiRunner der).runChain certSha256Of chain kinds nowUnix = some findings)
    (met : Meets der (rfc5280Policy currentTime) chain)
    (allowed : ∀ cert ∈ chain, cert.signatureAlgorithm.oid ∈ cabfTlsBrAllowedAlgs) :
    Meets der (webPkiPolicy currentTime) chain where
  short := met.short
  everywhere cert member :=
    { algorithm := fun _ asked => by
        cases asked
        exact allowed cert member
      current := (met.everywhere cert member).current
      lifetime := fun _ asked => by cases asked
      keySize := fun _ bits asked measured => by
        cases asked
        rcases List.getElem?_of_mem member with ⟨index, located⟩
        exact (clean.webPki roles ran located).1.measured reads measured }
  leaf cert first := by
    rw [List.head?_eq_getElem?] at first
    have shown := (clean.webPki roles ran first).2 rfl
    exact meetsAsLeaf_webPki (checkSanRequired_passes_iff.mp shown.1)
      (checkEkuServerAuth_passes_iff.mp shown.2)
  cas cert member :=
    { certSign := (met.cas cert member).certSign
      crlSign := (met.cas cert member).crlSign }

/-- In a chain without a failure the policy of the Web PKI asks nothing more than RFC 5280 but for
the signature algorithms. -/
theorem webPki_agrees (reads : der.rsaModulus = readRsaModulus) (roles : Roles kinds)
    (ran : (webPkiRunner der).runChain certSha256Of chain kinds nowUnix = some findings)
    (clean : Clean findings) :
    validatePath der (webPkiPolicy currentTime) verifier chain anchors = .ok path ↔
      validatePath der (rfc5280Policy currentTime) verifier chain anchors = .ok path ∧
        ∀ cert ∈ chain, cert.signatureAlgorithm.oid ∈ cabfTlsBrAllowedAlgs := by
  have overlays : validatePath der (webPkiPolicy currentTime) verifier chain anchors = .ok path ↔
      validatePath der (rfc5280Policy currentTime) verifier chain anchors = .ok path ∧
        Meets der (webPkiPolicy currentTime) chain :=
    validates_iff_meets (a := .webPki) (b := .rfc5280) (by decide)
  rw [overlays]
  apply and_congr_right
  intro accepted
  constructor
  · intro met cert member
    exact (met.everywhere cert member).algorithm _ rfl
  · exact clean.meets_webPki reads roles ran (meets_of_validatePath accepted)

open Concrete Pkix.Path.Concrete PathBuilder.Concrete Chain.Concrete in
/-- Within the cap the server has no failure. -/
theorem webPki_agrees_shortLeaf :
    validatePath lintCodec (webPkiPolicy 1740000000) keyCopyVerifier [shortLeaf] rootAnchors =
        .ok (validatedPath [shortLeaf] shortLeaf 0 none) ↔
      validatePath lintCodec (rfc5280Policy 1740000000) keyCopyVerifier [shortLeaf] rootAnchors =
          .ok (validatedPath [shortLeaf] shortLeaf 0 none) ∧
        ∀ cert ∈ [shortLeaf], cert.signatureAlgorithm.oid ∈ cabfTlsBrAllowedAlgs := by
  have ran : (webPkiRunner lintCodec).runChain noDigest [shortLeaf] [.leaf] 0 =
      some ((webPkiRunner lintCodec).runChainFrom noDigest 0 0 [shortLeaf] [.leaf]) := rfl
  have clean : Clean ((webPkiRunner lintCodec).runChainFrom noDigest 0 0 [shortLeaf] [.leaf]) := by
    unfold Clean
    decide +kernel
  exact webPki_agrees rfl leafAlone_roles ran clean

end WebPki

section BasicTls

open Chain (AiaFetcher NamesServer ParsedServer Purpose PurposeCodec noAiaFetcher
  upheld_of_verifyChain verifyTlsServer)
open Identity (ServerName findSan)

variable {der : PurposeCodec} {messages : DecoderMessages} {verifier : SignatureVerifier}
variable {chain : List Certificate} {anchors : List TrustAnchor} {leaf : Certificate}
variable {certSha256Of : Certificate → Option Bytes}

/-- An extension that says the certificate is one of a CA, or cannot be read. -/
def NotShownAsLeaf (der : DerCodec) (cert : Certificate) : Prop :=
  ¬∃ constraints, ExtHolds der.basicConstraints cert oidBasicConstraints constraints ∧
    constraints.map (·.ca) ≠ some true

/-- A certificate without a subject whose alternative name is not critical. -/
def NamedUncritically (cert : Certificate) : Prop :=
  cert.tbsCertificate.subject = [] ∧ ∀ extension,
    findExtension cert oidSubjectAltName = some extension → extension.critical = false

theorem checkTlsServerSan_of_names {name : ServerName} (names : NamesServer der leaf name) :
    (checkTlsServerSan der.toDerCodec messages leaf).isFailure = false := by
  rcases names with ⟨san, found, stands⟩
  have held : ExtHolds der.subjectAltName leaf oidSubjectAltName (some san) := by
    unfold findSan at found
    unfold ExtHolds
    cases located : findExtension leaf oidSubjectAltName with
    | none =>
        rw [located] at found
        cases found
    | some extension =>
        simp only [located] at found
        cases decoded : der.subjectAltName extension.extnValue with
        | none =>
            rw [decoded] at found
            cases found
        | some content =>
            rw [decoded] at found
            cases found
            exact ⟨_, decoded, rfl⟩
  refine checkTlsServerSan_passes_iff.mpr ⟨san, held, ?_⟩
  cases shape : name.repr with
  | dns target =>
      rw [shape] at stands
      rcases stands with ⟨pattern, listed, _⟩
      exact ⟨_, listed, rfl⟩
  | ip address =>
      rw [shape] at stands
      exact ⟨_, stands, rfl⟩

theorem signatureOid_of_accepted {policy : ValidationPolicy} {path : ValidatedPath}
    (accepted : validatePath der.toDerCodec policy verifier chain anchors = .ok path)
    (member : leaf ∈ chain) :
    leaf.signatureAlgorithm.oid = leaf.tbsCertificate.signature.oid := by
  rcases validatePath_accepts_iff.mp ⟨path, accepted⟩ with ⟨_, oids, _⟩
  exact checkOidConsistency_ok_iff.mp oids leaf member

/-- The leaf of a verified server as its checks leave it. -/
structure ServerShows (der : DerCodec) (leaf : Certificate) : Prop where
  san : ∃ names, ExtHolds der.subjectAltName leaf oidSubjectAltName (some names) ∧
    ∃ name ∈ names, isDnsOrIp name = true
  eku : ∃ ekus, ExtHolds der.extendedKeyUsage leaf oidExtendedKeyUsage (some ekus) ∧
    idKpServerAuth ∈ ekus
  signatureOid : leaf.signatureAlgorithm.oid = leaf.tbsCertificate.signature.oid

theorem not_sanCritical_iff {cert : Certificate} {names : SubjectAltName} {der : DerCodec}
    (held : ExtHolds der.subjectAltName cert oidSubjectAltName (some names)) :
    ¬(cert.tbsCertificate.subject = [] → ∃ extension,
      findExtension cert oidSubjectAltName = some extension ∧ extension.critical = true) ↔
      NamedUncritically cert := by
  unfold ExtHolds at held
  unfold NamedUncritically
  cases found : findExtension cert oidSubjectAltName with
  | none => simp [found] at held
  | some extension => simp

theorem sameAlgorithm_iff {first second : AlgorithmIdentifier} (oid : first.oid = second.oid) :
    first = second ↔ first.parameters = second.parameters := by
  cases first
  cases second
  simpa using fun _ => oid

theorem basicTls_failures {der : DerCodec} {leaf : Certificate} (shows : ServerShows der leaf)
    {lintedAt : UInt64} {id : String} :
    FailsLint (basicTlsRunner der messages) leaf .leaf lintedAt id ↔
      (id = "rfc5280.cert.bc.ca_false_for_leaf" ∧ NotShownAsLeaf der leaf) ∨
      (id = "rfc5280.cert.san.required_when_subject_empty" ∧ NamedUncritically leaf) ∨
      (id = "rfc5280.cert.signature_algorithm_match" ∧
        leaf.signatureAlgorithm.parameters ≠ leaf.tbsCertificate.signature.parameters) ∨
      (id = "rfc5280.cert.serial_number.max_octets" ∧
        20 < leaf.tbsCertificate.serialNumber.length) := by
  have applies : SubjectKind.leaf.matchesFilter .leaf = true := rfl
  have named : (checkTlsServerSan der messages leaf).isFailure = false :=
    checkTlsServerSan_passes_iff.mpr shows.san
  have purpose : (checkRfc5280EkuServerAuth der messages leaf).isFailure = false :=
    checkRfc5280EkuServerAuth_passes_iff.mpr shows.eku
  have flagged : (checkBasicConstraintsCaLeaf der messages leaf).isFailure = true ↔
      NotShownAsLeaf der leaf := fails_iff_not checkBasicConstraintsCaLeaf_passes_iff
  have critical : (checkSanRequiredWhenSubjectEmpty leaf).isFailure = true ↔
      NamedUncritically leaf := by
    rcases shows.san with ⟨names, held, _⟩
    rw [fails_iff_not checkSanRequiredWhenSubjectEmpty_passes_iff, not_sanCritical_iff held]
  have signed : (checkSignatureAlgorithmMatch leaf).isFailure = true ↔
      leaf.signatureAlgorithm.parameters ≠ leaf.tbsCertificate.signature.parameters := by
    rw [fails_iff_not checkSignatureAlgorithmMatch_passes_iff,
      sameAlgorithm_iff shows.signatureOid]
  have serial : (checkMaxSerialLength 20 leaf).isFailure = true ↔
      20 < leaf.tbsCertificate.serialNumber.length := by
    rw [fails_iff_not checkMaxSerialLength_passes_iff, Nat.not_le]
  rw [failsLint_basicTls_iff, named, purpose, flagged, critical, signed, serial, applies]
  simp

/-- What the lints still find in the leaf of a server that was verified: what neither the validator
nor the check of the name looks at. -/
theorem tlsServer_failures_of_verified {name : ServerName} {nowUnix : Nat}
    {revocation : Chain.RevocationChecker} {aia : AiaFetcher} {validated : ValidatedPath}
    (parsed : ParsedServer der.domainToAscii name)
    (accepted : verifyTlsServer der chain anchors basicTlsPolicy nowUnix verifier revocation aia
      name = .ok validated) :
    ∃ leaf, chain.head? = some leaf ∧ ∀ (lintedAt : UInt64) (id : String),
      FailsAt ((basicTlsRunner der.toDerCodec messages).runCert certSha256Of leaf .leaf 0 lintedAt)
          0 id ↔
        (id = "rfc5280.cert.bc.ca_false_for_leaf" ∧ NotShownAsLeaf der.toDerCodec leaf) ∨
        (id = "rfc5280.cert.san.required_when_subject_empty" ∧ NamedUncritically leaf) ∨
        (id = "rfc5280.cert.signature_algorithm_match" ∧
          leaf.signatureAlgorithm.parameters ≠ leaf.tbsCertificate.signature.parameters) ∨
        (id = "rfc5280.cert.serial_number.max_octets" ∧
          20 < leaf.tbsCertificate.serialNumber.length) := by
  rcases ((Purpose.tlsServer name).verify_ok_iff parsed).mp accepted with
    ⟨verified, leaf, first, names⟩
  rcases upheld_of_verifyChain verified with ⟨head, rest, same, upheld⟩
  rw [first, Option.some.injEq] at same
  subst same
  have validates := upheld.validates
  have asked := (meets_of_validatePath validates).leaf leaf rfl
  have shows : ServerShows der.toDerCodec leaf := by
    refine ⟨?_, ?_, signatureOid_of_accepted validates List.mem_cons_self⟩
    · have passes : (checkTlsServerSan der.toDerCodec messages leaf).isFailure = false :=
        checkTlsServerSan_of_names names
      exact checkTlsServerSan_passes_iff.mp passes
    · rcases asked.eku _ rfl with ⟨ekus, held, within⟩
      exact extHolds_nonempty held (within List.mem_cons_self) List.not_mem_nil
  refine ⟨leaf, first, fun lintedAt id => ?_⟩
  rw [failsAt_runCert_iff (basicTlsRunner_neverFatal der.toDerCodec messages),
    basicTls_failures shows]
  simp

open Concrete Pkix.Path.Concrete PathBuilder.Concrete Identity.Concrete Chain.Concrete in
/-- The server of ten years is without a failure here. -/
theorem tlsServer_failures_of_verified_serverLeaf :
    ∃ leaf, [serverLeaf].head? = some leaf ∧ ∀ (lintedAt : UInt64) (id : String),
      FailsAt ((basicTlsRunner purposeCodec.toDerCodec noMessages).runCert noDigest leaf .leaf 0
          lintedAt) 0 id ↔
        (id = "rfc5280.cert.bc.ca_false_for_leaf" ∧ NotShownAsLeaf purposeCodec.toDerCodec leaf) ∨
        (id = "rfc5280.cert.san.required_when_subject_empty" ∧ NamedUncritically leaf) ∨
        (id = "rfc5280.cert.signature_algorithm_match" ∧
          leaf.signatureAlgorithm.parameters ≠ leaf.tbsCertificate.signature.parameters) ∨
        (id = "rfc5280.cert.serial_number.max_octets" ∧
          20 < leaf.tbsCertificate.serialNumber.length) := by
  have parsed : ParsedServer purposeCodec.domainToAscii ⟨.dns host⟩ :=
    ⟨hostText, .inl (by decide +kernel)⟩
  have accepted : verifyTlsServer purposeCodec [serverLeaf] rootAnchors basicTlsPolicy 1800000000
      keyCopyVerifier acceptAll noAiaFetcher ⟨.dns host⟩ =
      .ok (validatedPath [serverLeaf] serverLeaf 0 none) := by decide +kernel
  exact tlsServer_failures_of_verified parsed accepted

/-- A leaf in the shape of the basic profile is what that profile asks for. -/
theorem meetsAsLeaf_of_shape {der : DerCodec} {currentTime : Nat} {lintedAt : UInt64}
    (inShape : checkBasicTlsShape certSha256Of der messages leaf lintedAt = .ok ()) :
    MeetsAsLeaf der (basicTlsPolicy currentTime) leaf := by
  have passes := (checkShape_ok_iff (basicTlsRunner_neverFatal der messages)).mp inShape
  have named : (checkTlsServerSan der messages leaf).isFailure = false := by
    by_contra failed
    exact passes _ (failsLint_basicTls_iff.mpr (.inl ⟨rfl, rfl, by simpa using failed⟩))
  have purpose : (checkRfc5280EkuServerAuth der messages leaf).isFailure = false := by
    by_contra failed
    exact passes _ (failsLint_basicTls_iff.mpr (.inr (.inl ⟨rfl, rfl, by simpa using failed⟩)))
  rcases checkTlsServerSan_passes_iff.mp named with ⟨names, held, name, listed, _⟩
  have nonempty : names ≠ [] := List.ne_nil_of_mem listed
  have met : MeetsAsLeaf der (webPkiPolicy currentTime) leaf :=
    meetsAsLeaf_webPki ⟨names, held, nonempty⟩ (checkRfc5280EkuServerAuth_passes_iff.mp purpose)
  exact met.relax (stricter_of_mem_baselines currentTime (a := .webPki) (b := .basicTls) (by decide))

/-- A chain whose leaf is in the shape of the basic profile validates under it as it does under
RFC 5280. -/
theorem basicTls_agrees {der : DerCodec} {rest : List Certificate} {currentTime : Nat}
    {path : ValidatedPath} {lintedAt : UInt64}
    (inShape : checkBasicTlsShape certSha256Of der messages leaf lintedAt = .ok ()) :
    validatePath der (basicTlsPolicy currentTime) verifier (leaf :: rest) anchors = .ok path ↔
      validatePath der (rfc5280Policy currentTime) verifier (leaf :: rest) anchors = .ok path := by
  have overlays : validatePath der (basicTlsPolicy currentTime) verifier (leaf :: rest) anchors =
        .ok path ↔
      validatePath der (rfc5280Policy currentTime) verifier (leaf :: rest) anchors = .ok path ∧
        Meets der (basicTlsPolicy currentTime) (leaf :: rest) :=
    validates_iff_meets (a := .basicTls) (b := .rfc5280) (by decide)
  have asks : AsksOfLeaf (basicTlsPolicy currentTime) (rfc5280Policy currentTime) :=
    ⟨rfl, Nat.le_refl _, rfl, rfl, rfl, id, id⟩
  rw [overlays]
  apply and_iff_left_of_imp
  intro accepted
  exact meets_withLeaf asks (meets_of_validatePath accepted) (meetsAsLeaf_of_shape inShape)

open Concrete Pkix.Path.Concrete PathBuilder.Concrete Chain.Concrete in
theorem basicTls_agrees_serverLeaf :
    validatePath lintCodec (basicTlsPolicy 1800000000) keyCopyVerifier [serverLeaf] rootAnchors =
        .ok (validatedPath [serverLeaf] serverLeaf 0 none) ↔
      validatePath lintCodec (rfc5280Policy 1800000000) keyCopyVerifier [serverLeaf] rootAnchors =
        .ok (validatedPath [serverLeaf] serverLeaf 0 none) := by
  have inShape : checkBasicTlsShape noDigest lintCodec noMessages serverLeaf 0 = .ok () := by
    decide +kernel
  exact basicTls_agrees inShape

end BasicTls

end Pkix.Lint
