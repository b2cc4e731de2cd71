import Pkix.Revocation.OcspSoundness

/-! Which entry of an OCSP response decides. The checker takes the first entry with the serial of
the certificate and only then compares its issuer hashes, so an entry of another CA with the same
serial can stand in the way of the one that names the certificate. -/

namespace Pkix.Revocation

open Pkix.Path

section Selection

variable (der : OcspCodec) (checker : OcspChecker) (cert : Certificate) (issuerSubject : Name)
  (issuerSpki : SubjectPublicKeyInfo)

/-- The entry has the full CertID of the certificate under the issuer. -/
structure CarriesCertId (single : SingleResponse) : Prop where
  serial : single.certId.serialNumber = cert.tbsCertificate.serialNumber
  nameHash : ∃ nameDer, der.encodeName issuerSubject = .ok nameDer ∧
    hashCertidInput der single.certId.hashAlgorithm.oid nameDer = .ok single.certId.issuerNameHash
  keyHash : hashCertidInput der single.certId.hashAlgorithm.oid
    issuerSpki.subjectPublicKey.rawBytes = .ok single.certId.issuerKeyHash

/-- One entry of the response carries the CertID and no other does. -/
structure SoleMatch (before : List SingleResponse) (single : SingleResponse)
    (after : List SingleResponse) : Prop where
  responses : checker.basic.tbsResponseData.responses = before ++ single :: after
  carries : CarriesCertId der cert issuerSubject issuerSpki single
  alone : ∀ other ∈ before ++ after, ¬ CarriesCertId der cert issuerSubject issuerSpki other

def ValidlySigned : Prop :=
  ∃ spki, resolveSigningKeyForResponse der checker.basic issuerSubject issuerSpki
      checker.verifier checker.basic.tbsResponseData.producedAt.unixDuration = .ok spki ∧
    verifyResponseSignature der checker spki = .ok ()

/-- What the entry says of the certificate, whatever other entries the response has. -/
def singleVerdict (single : SingleResponse) : Result Unit := do
  requireThat (namesMatch issuerSubject cert.tbsCertificate.issuer) .ocspIssuerCertMismatch
  checkResponseWindow checker single
  reportStatus cert.tbsCertificate.serialNumber single.certStatus

def sameSerial (single : SingleResponse) : Bool :=
  single.certId.serialNumber == cert.tbsCertificate.serialNumber

def supportedHashes : List ObjectIdentifier := [oidSha1, oidSha256, oidSha384, oidSha512]

/-- No entry with the serial stands before the matching one. The exception is a response from the
future behind an entry with an unknown hash algorithm: both are reported as malformed. -/
def Unobstructed (before : List SingleResponse) : Prop :=
  namesMatch issuerSubject cert.tbsCertificate.issuer = true →
    ∀ other, before.find? (sameSerial cert) = some other →
      checker.nowUnix < checker.basic.tbsResponseData.producedAt.unixDuration ∧
        other.certId.hashAlgorithm.oid ∉ supportedHashes

end Selection

section Facts

variable {der : OcspCodec} {checker : OcspChecker} {cert : Certificate} {issuerSubject : Name}
  {issuerSpki : SubjectPublicKeyInfo}

theorem hashCertidInput_supported {oid : ObjectIdentifier} (supported : oid ∈ supportedHashes)
    (data : Bytes) : ∃ digest, hashCertidInput der oid data = .ok digest := by
  unfold hashCertidInput
  split
  · exact ⟨_, rfl⟩
  · split
    · exact ⟨_, rfl⟩
    · split
      · exact ⟨_, rfl⟩
      · split
        · exact ⟨_, rfl⟩
        · simp_all [supportedHashes]

theorem hashCertidInput_unsupported {oid : ObjectIdentifier} (unknown : oid ∉ supportedHashes)
    (data : Bytes) : hashCertidInput der oid data = .error .ocspMalformed := by
  simp only [supportedHashes, List.mem_cons, List.not_mem_nil, or_false, not_or] at unknown
  rcases unknown with ⟨notSha1, notSha256, notSha384, notSha512⟩
  unfold hashCertidInput
  rw [if_neg notSha1, if_neg notSha256, if_neg notSha384, if_neg notSha512]

/-- The converse of `checkCertIdHashes_ok`. -/
theorem checkCertIdHashes_carried {single : SingleResponse}
    (carries : CarriesCertId der cert issuerSubject issuerSpki single) :
    checkCertIdHashes der single issuerSubject issuerSpki = .ok () := by
  rcases carries.nameHash with ⟨nameDer, encoded, nameHashed⟩
  refine Walk.bind_ok.mpr ⟨nameDer, orOcspParseError_ok_iff.mpr encoded, ?_⟩
  refine Walk.bind_ok.mpr ⟨_, nameHashed, ?_⟩
  refine Walk.bind_ok.mpr ⟨_, carries.keyHash, ?_⟩
  simp

/-- What the checker says of an entry that has the serial alone. -/
theorem checkCertIdHashes_foreign {nameDer : Bytes} {other : SingleResponse}
    (encoded : der.encodeName issuerSubject = .ok nameDer) (serial : sameSerial cert other = true)
    (foreign : ¬ CarriesCertId der cert issuerSubject issuerSpki other) :
    checkCertIdHashes der other issuerSubject issuerSpki =
      .error (if other.certId.hashAlgorithm.oid ∈ supportedHashes then .ocspCertIdMismatch
        else .ocspMalformed) := by
  split
  · rename_i supported
    rcases hashCertidInput_supported supported nameDer with ⟨nameHash, nameHashed⟩
    rcases hashCertidInput_supported supported issuerSpki.subjectPublicKey.rawBytes with
      ⟨keyHash, keyHashed⟩
    have differ : ¬ (other.certId.issuerNameHash = nameHash ∧
        other.certId.issuerKeyHash = keyHash) := by
      intro equal
      apply foreign
      exact
        { serial := beq_iff_eq.mp serial
          nameHash := ⟨nameDer, encoded, by rw [nameHashed, equal.1]⟩
          keyHash := by rw [keyHashed, equal.2] }
    have unequal : (other.certId.issuerNameHash == nameHash &&
        other.certId.issuerKeyHash == keyHash) = false := by
      rw [← Bool.not_eq_true, Bool.and_eq_true, beq_iff_eq, beq_iff_eq]
      exact differ
    refine Walk.bind_error.mpr (.inr ⟨nameDer, orOcspParseError_ok_iff.mpr encoded, ?_⟩)
    refine Walk.bind_error.mpr (.inr ⟨nameHash, nameHashed, ?_⟩)
    refine Walk.bind_error.mpr (.inr ⟨keyHash, keyHashed, ?_⟩)
    rw [unequal]
    rfl
  · rename_i unknown
    refine Walk.bind_error.mpr (.inr ⟨nameDer, orOcspParseError_ok_iff.mpr encoded, ?_⟩)
    exact Walk.bind_error.mpr (.inl (hashCertidInput_unsupported unknown nameDer))

theorem requireThat_error_iff {condition : Bool} {failure other : Error} :
    requireThat condition failure = .error other ↔ condition = false ∧ failure = other := by
  unfold requireThat
  cases condition <;> simp

theorem checkResponseWindow_error {single : SingleResponse} {failure : Error}
    (stopped : checkResponseWindow checker single = .error failure) :
    (failure = .ocspMalformed ∧
        checker.nowUnix < checker.basic.tbsResponseData.producedAt.unixDuration) ∨
      failure = .ocspExpired := by
  rcases Walk.bind_error.mp stopped with future | ⟨_, _, stopped⟩
  · rcases requireThat_error_iff.mp future with ⟨early, named⟩
    exact .inl ⟨named.symm, Nat.not_le.mp (of_decide_eq_false early)⟩
  · rcases Walk.bind_error.mp stopped with notYet | ⟨_, _, stopped⟩
    · exact .inr (requireThat_error_iff.mp notYet).2.symm
    · split at stopped
      · cases stopped
        exact .inr rfl
      · exact .inr (requireThat_error_iff.mp stopped).2.symm

theorem reportStatus_error {serial : Bytes} {status : CertStatus} {failure : Error}
    (reported : reportStatus serial status = .error failure) :
    failure = .ocspStatusUnknown ∨ ∃ reason, failure = .revoked serial reason := by
  cases status with
  | good => cases reported
  | revoked info =>
      cases reported
      exact .inr ⟨_, rfl⟩
  | unknown =>
      cases reported
      exact .inl rfl

section Verdict

variable {single : SingleResponse}

/-- No entry's own verdict is the mismatch of another entry. -/
theorem singleVerdict_ne_mismatch :
    singleVerdict checker cert issuerSubject single ≠ .error .ocspCertIdMismatch := by
  intro stopped
  rcases Walk.bind_error.mp stopped with unnamed | ⟨_, _, stopped⟩
  · cases (requireThat_error_iff.mp unnamed).2
  · rcases Walk.bind_error.mp stopped with outside | ⟨_, _, reported⟩
    · rcases checkResponseWindow_error outside with ⟨named, _⟩ | named <;> cases named
    · rcases reportStatus_error reported with named | ⟨_, named⟩ <;> cases named

theorem singleVerdict_malformed_iff
    (issued : namesMatch issuerSubject cert.tbsCertificate.issuer = true) :
    singleVerdict checker cert issuerSubject single = .error .ocspMalformed ↔
      checker.nowUnix < checker.basic.tbsResponseData.producedAt.unixDuration := by
  constructor
  · intro stopped
    rcases Walk.bind_error.mp stopped with unnamed | ⟨_, _, stopped⟩
    · cases (requireThat_error_iff.mp unnamed).2
    · rcases Walk.bind_error.mp stopped with outside | ⟨_, _, reported⟩
      · rcases checkResponseWindow_error outside with ⟨_, future⟩ | named
        · exact future
        · cases named
      · rcases reportStatus_error reported with named | ⟨_, named⟩ <;> cases named
  · intro future
    have early := decide_eq_false (Nat.not_le.mpr future)
    refine Walk.bind_error.mpr (.inr ⟨(), requireThat_ok_iff.mpr issued, ?_⟩)
    refine Walk.bind_error.mpr (.inl ?_)
    exact Walk.bind_error.mpr (.inl (requireThat_error_iff.mpr ⟨early, rfl⟩))

/-- Behind the guard on the names, a signed response comes down to the entry that is found. -/
theorem checkResponse_signed (signed : ValidlySigned der checker issuerSubject issuerSpki) :
    checkResponse der checker cert issuerSubject issuerSpki =
      (do
        let found ← findSingle checker cert
        checkCertIdHashes der found issuerSubject issuerSpki
        checkResponseWindow checker found
        reportStatus cert.tbsCertificate.serialNumber found.certStatus) := by
  rcases signed with ⟨spki, resolved, verified⟩
  unfold checkResponse
  rw [resolved]
  change (verifyResponseSignature der checker spki >>= _) = _
  rw [verified]
  rfl

theorem findSingle_sole {before after : List SingleResponse}
    (sole : SoleMatch der checker cert issuerSubject issuerSpki before single after) :
    findSingle checker cert = .ok ((before.find? (sameSerial cert)).getD single) := by
  unfold findSingle
  rw [sole.responses, List.find?_append]
  cases located : before.find? (sameSerial cert) with
  | some other =>
      have found : before.find? (fun single =>
          single.certId.serialNumber == cert.tbsCertificate.serialNumber) = some other := located
      rw [found]
      rfl
  | none =>
      have absent : before.find? (fun single =>
          single.certId.serialNumber == cert.tbsCertificate.serialNumber) = none := located
      rw [absent, List.find?_cons_of_pos]
      · rfl
      · simpa using sole.carries.serial

/-- The checks of either entry point against the verdict of the matching entry. -/
theorem checkSigner_exact {before after : List SingleResponse}
    (signed : ValidlySigned der checker issuerSubject issuerSpki)
    (sole : SoleMatch der checker cert issuerSubject issuerSpki before single after) :
    (do
        requireThat (namesMatch issuerSubject cert.tbsCertificate.issuer) .ocspIssuerCertMismatch
        checkResponse der checker cert issuerSubject issuerSpki) =
      singleVerdict checker cert issuerSubject single ↔
        Unobstructed checker cert issuerSubject before := by
  cases issued : namesMatch issuerSubject cert.tbsCertificate.issuer with
  | false =>
      have skipped : Unobstructed checker cert issuerSubject before := by
        intro named
        rw [issued] at named
        cases named
      simp only [skipped, iff_true]
      unfold singleVerdict
      rw [issued]
      rfl
  | true =>
      change checkResponse der checker cert issuerSubject issuerSpki = _ ↔ _
      rw [checkResponse_signed signed, findSingle_sole sole]
      cases located : before.find? (sameSerial cert) with
      | none =>
          have unobstructed : Unobstructed checker cert issuerSubject before := by
            intro _ other found
            rw [located] at found
            cases found
          simp only [unobstructed, iff_true]
          change (checkCertIdHashes der single issuerSubject issuerSpki >>= _) = _
          rw [checkCertIdHashes_carried sole.carries]
          unfold singleVerdict
          rw [issued]
          rfl
      | some other =>
          rcases sole.carries.nameHash with ⟨nameDer, encoded, _⟩
          have foreign := sole.alone other
            (List.mem_append_left after (List.mem_of_find?_eq_some located))
          change (checkCertIdHashes der other issuerSubject issuerSpki >>= _) = _ ↔ _
          rw [checkCertIdHashes_foreign encoded (List.find?_some located) foreign]
          change Except.error _ = _ ↔ _
          by_cases supported : other.certId.hashAlgorithm.oid ∈ supportedHashes
          · rw [if_pos supported]
            constructor
            · intro same
              exact absurd same.symm singleVerdict_ne_mismatch
            · intro unobstructed
              exact absurd supported (unobstructed issued other located).2
          · rw [if_neg supported, eq_comm, singleVerdict_malformed_iff issued]
            constructor
            · intro future _ another found
              rw [located] at found
              cases found
              exact ⟨future, supported⟩
            · intro unobstructed
              exact (unobstructed issued other located).1

theorem singleVerdict_congr {other : OcspChecker} (sameNow : other.nowUnix = checker.nowUnix)
    (sameProduced : other.basic.tbsResponseData.producedAt.unixDuration =
      checker.basic.tbsResponseData.producedAt.unixDuration) :
    singleVerdict other cert issuerSubject single =
      singleVerdict checker cert issuerSubject single := by
  unfold singleVerdict checkResponseWindow
  rw [sameNow, sameProduced]

end Verdict

end Facts

/-- An entry point of the checker gives the verdict of the one matching entry exactly when that entry
is unobstructed, and whatever other entries a second response has, in any order, it says the same
exactly when the entry is unobstructed there too. -/
structure DecidedByMatch (der : OcspCodec) (cert : Certificate) (issuerSubject : Name)
    (issuerSpki : SubjectPublicKeyInfo) (outcome : OcspChecker → Result Unit) : Prop where
  verdict : ∀ checker before single after,
    ValidlySigned der checker issuerSubject issuerSpki →
    SoleMatch der checker cert issuerSubject issuerSpki before single after →
    (outcome checker = singleVerdict checker cert issuerSubject single ↔
      Unobstructed checker cert issuerSubject before)
  stable : ∀ checker before single after,
    ValidlySigned der checker issuerSubject issuerSpki →
    SoleMatch der checker cert issuerSubject issuerSpki before single after →
    Unobstructed checker cert issuerSubject before →
    ∀ other otherBefore otherAfter, ValidlySigned der other issuerSubject issuerSpki →
      SoleMatch der other cert issuerSubject issuerSpki otherBefore single otherAfter →
      other.nowUnix = checker.nowUnix →
      other.basic.tbsResponseData.producedAt.unixDuration =
        checker.basic.tbsResponseData.producedAt.unixDuration →
      (outcome other = outcome checker ↔ Unobstructed other cert issuerSubject otherBefore)

theorem decidedByMatch_of_verdict {der : OcspCodec} {cert : Certificate} {issuerSubject : Name}
    {issuerSpki : SubjectPublicKeyInfo} {outcome : OcspChecker → Result Unit}
    (verdict : ∀ checker before single after,
      ValidlySigned der checker issuerSubject issuerSpki →
      SoleMatch der checker cert issuerSubject issuerSpki before single after →
      (outcome checker = singleVerdict checker cert issuerSubject single ↔
        Unobstructed checker cert issuerSubject before)) :
    DecidedByMatch der cert issuerSubject issuerSpki outcome where
  verdict := verdict
  stable := by
    intro checker before single after signed sole unobstructed other otherBefore otherAfter
      otherSigned otherSole sameNow sameProduced
    rw [(verdict checker before single after signed sole).mpr unobstructed,
      ← singleVerdict_congr sameNow sameProduced]
    exact verdict other otherBefore single otherAfter otherSigned otherSole

/-- With one entry for the certificate, that entry decides unless one of the same serial stands
before it. -/
theorem ocsp_decidedByMatch (der : OcspCodec) (cert : Certificate) :
    (∀ issuer : Certificate, DecidedByMatch der cert issuer.tbsCertificate.subject
      issuer.tbsCertificate.subjectPublicKeyInfo
      (fun checker => checker.checkRevocation der cert issuer)) ∧
    (∀ anchor : TrustAnchor, DecidedByMatch der cert anchor.subject anchor.subjectPublicKeyInfo
      (fun checker => checker.checkRevocationAgainstAnchor der cert anchor)) := by
  constructor
  · intro issuer
    apply decidedByMatch_of_verdict
    intro checker before single after signed sole
    exact checkSigner_exact signed sole
  · intro anchor
    apply decidedByMatch_of_verdict
    intro checker before single after signed sole
    exact checkSigner_exact signed sole

namespace Shadowed

open Pkix.Revocation.Concrete

def named : SingleResponse :=
  { certId := ⟨⟨oidSha1, none⟩, nameDigest, keyDigest, [2]⟩
    certStatus := .good
    thisUpdate := Delegated.june
    nextUpdate := some Delegated.september
    singleExtensions := none }

/-- The entry of another CA for its own certificate with serial 2. -/
def foreign : SingleResponse :=
  { named with certId := ⟨⟨oidSha1, none⟩, keyDigest, nameDigest, [2]⟩ }

def answering (responses : List SingleResponse) : OcspChecker :=
  { Delegated.checker with
    basic := { Delegated.basic with
      tbsResponseData := { Delegated.basic.tbsResponseData with responses } } }

theorem named_carries :
    CarriesCertId Delegated.codec Delegated.leaf Delegated.issuer.tbsCertificate.subject
      Delegated.issuer.tbsCertificate.subjectPublicKeyInfo named where
  serial := rfl
  nameHash := ⟨_, rfl, by decide +kernel⟩
  keyHash := by decide +kernel

theorem foreign_carries_not :
    ¬ CarriesCertId Delegated.codec Delegated.leaf Delegated.issuer.tbsCertificate.subject
      Delegated.issuer.tbsCertificate.subjectPublicKeyInfo foreign := by
  intro carries
  exact absurd carries.keyHash (by decide +kernel)

theorem foreign_first_sole :
    SoleMatch Delegated.codec (answering [foreign, named]) Delegated.leaf
      Delegated.issuer.tbsCertificate.subject
      Delegated.issuer.tbsCertificate.subjectPublicKeyInfo [foreign] named [] where
  responses := rfl
  carries := named_carries
  alone := by
    intro other member
    rw [List.append_nil, List.mem_singleton] at member
    rw [member]
    exact foreign_carries_not

theorem answering_signed :
    ValidlySigned Delegated.codec (answering [foreign, named])
      Delegated.issuer.tbsCertificate.subject
      Delegated.issuer.tbsCertificate.subjectPublicKeyInfo :=
  ⟨Delegated.responder.tbsCertificate.subjectPublicKeyInfo, by decide +kernel, by decide +kernel⟩

end Shadowed

/-- The entry of another CA with the same serial, put first, turns a good certificate into a
mismatch, although the entry for the certificate follows it. -/
theorem foreign_entry_hides_match :
    (∃ before after,
      ValidlySigned Delegated.codec (Shadowed.answering [Shadowed.foreign, Shadowed.named])
        Delegated.issuer.tbsCertificate.subject
        Delegated.issuer.tbsCertificate.subjectPublicKeyInfo ∧
      SoleMatch Delegated.codec (Shadowed.answering [Shadowed.foreign, Shadowed.named])
        Delegated.leaf Delegated.issuer.tbsCertificate.subject
        Delegated.issuer.tbsCertificate.subjectPublicKeyInfo before Shadowed.named after) ∧
    singleVerdict (Shadowed.answering [Shadowed.foreign, Shadowed.named]) Delegated.leaf
      Delegated.issuer.tbsCertificate.subject Shadowed.named = .ok () ∧
    (Shadowed.answering [Shadowed.foreign, Shadowed.named]).checkRevocation Delegated.codec
      Delegated.leaf Delegated.issuer = .error .ocspCertIdMismatch ∧
    (Shadowed.answering [Shadowed.named, Shadowed.foreign]).checkRevocation Delegated.codec
      Delegated.leaf Delegated.issuer = .ok () :=
  ⟨⟨[Shadowed.foreign], [], Shadowed.answering_signed, Shadowed.foreign_first_sole⟩,
    by decide +kernel, by decide +kernel, by decide +kernel⟩

end Pkix.Revocation
