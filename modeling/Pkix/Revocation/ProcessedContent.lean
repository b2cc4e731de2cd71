import Pkix.Revocation.CrlFacts
import Pkix.Revocation.ConcreteCrl

/-! The content of a CRL that its verdict rests on. Extensions are looked up by OID and by
nothing else: what no lookup asks for changes no outcome, critical or not, and what a
lookup asks for and cannot read is an error. -/

namespace Pkix.Revocation

open Pkix.Path

def contentOf (extensions : List Extension) (oid : ObjectIdentifier) : Option Bytes :=
  (findIn extensions oid).map (·.extnValue)

/-- Entries that differ in nothing the lookup reads; certificateIssuer is read only of a
CRL with an issuer of its own. -/
structure EntriesAlike (ownIssuer : Bool) (entry other : RevokedCert) : Prop where
  serial : entry.serialNumber = other.serialNumber
  reason : contentOf entry.extensions oidCrlReasons = contentOf other.extensions oidCrlReasons
  issuer : ownIssuer = true →
    contentOf entry.extensions oidCertificateIssuer =
      contentOf other.extensions oidCertificateIssuer

/-- CRLs with the same names, dates, issuing distribution point and entries, signed alike. -/
structure CrlsAlike (der : CrlCodec) (verifier : SignatureVerifier) (ownIssuer : Bool)
    (crl other : CertificateList) : Prop where
  issuer : crl.tbsCertList.issuer = other.tbsCertList.issuer
  thisUpdate : crl.tbsCertList.thisUpdate = other.tbsCertList.thisUpdate
  nextUpdate : crl.tbsCertList.nextUpdate = other.tbsCertList.nextUpdate
  idp : contentOf crl.extensions oidIssuingDistributionPoint =
    contentOf other.extensions oidIssuingDistributionPoint
  entries : List.Forall₂ (EntriesAlike ownIssuer) crl.entries other.entries
  signed : ∀ spki, verifyCrlSignature der verifier crl spki =
    verifyCrlSignature der verifier other spki

structure CheckersAlike (der : CrlCodec) (checker other : CrlChecker) : Prop where
  nowUnix : checker.nowUnix = other.nowUnix
  verifier : checker.verifier = other.verifier
  crlIssuerCert : checker.crlIssuerCert = other.crlIssuerCert
  signerDiscovered : checker.signerDiscovered = other.signerDiscovered
  base : CrlsAlike der checker.verifier checker.crlIssuerCert.isSome checker.crl other.crl
  delta : Option.Rel (CrlsAlike der checker.verifier checker.crlIssuerCert.isSome)
    checker.deltaCrl other.deltaCrl

section Lookups

variable {der : CrlCodec} {ownIssuer : Bool}

theorem parseIssuingDp_eq (crl : CertificateList) :
    parseIssuingDp der crl =
      match contentOf crl.extensions oidIssuingDistributionPoint with
      | none => .ok none
      | some content => (orCrlParseError (der.issuingDistributionPoint content)).map some := by
  unfold parseIssuingDp contentOf
  cases findIn crl.extensions oidIssuingDistributionPoint <;> rfl

theorem parseIssuingDp_unreadable {crl : CertificateList} {content : Bytes}
    (located : contentOf crl.extensions oidIssuingDistributionPoint = some content)
    (noIdp : ∀ idp, der.issuingDistributionPoint content ≠ .ok idp) :
    ∀ parsedIdp, parseIssuingDp der crl ≠ .ok parsedIdp := by
  intro parsedIdp parsed
  rw [parseIssuingDp_eq, located] at parsed
  cases decoded : der.issuingDistributionPoint content with
  | ok idp => exact noIdp idp decoded
  | error failure => simp [decoded, orCrlParseError, Except.map] at parsed

theorem parseIssuingDp_alike {crl other : CertificateList}
    (idp : contentOf crl.extensions oidIssuingDistributionPoint =
      contentOf other.extensions oidIssuingDistributionPoint) :
    parseIssuingDp der crl = parseIssuingDp der other := by
  rw [parseIssuingDp_eq crl, parseIssuingDp_eq other, idp]

theorem extractReasonCode_alike {entry other : RevokedCert}
    (alike : EntriesAlike ownIssuer entry other) :
    extractReasonCode der entry = extractReasonCode der other := by
  have byContent : ∀ listed : RevokedCert, extractReasonCode der listed =
      (contentOf listed.extensions oidCrlReasons).bind der.crlReason := by
    intro listed
    unfold extractReasonCode contentOf
    cases findIn listed.extensions oidCrlReasons <;> rfl
  rw [byContent entry, byContent other, alike.reason]

theorem effectiveIssuer_alike {effective : Name} {entry other : RevokedCert}
    (alike : EntriesAlike ownIssuer entry other) :
    effectiveIssuer der ownIssuer effective entry =
      effectiveIssuer der ownIssuer effective other := by
  have byContent : ∀ listed : RevokedCert, effectiveIssuer der true effective listed =
      match contentOf listed.extensions oidCertificateIssuer with
      | none => .ok effective
      | some content => parseCertificateIssuerDn der content := by
    intro listed
    unfold effectiveIssuer contentOf
    cases findIn listed.extensions oidCertificateIssuer <;> rfl
  cases ownIssuer with
  | false => rfl
  | true => rw [byContent entry, byContent other, alike.issuer rfl]

/-- The reason code of the entry found, which is all that a verdict keeps of it. -/
def foundReason (der : CrlCodec) (found : Result (Option RevokedCert)) :
    Result (Option (Option CrlReason)) :=
  found.map (·.map (extractReasonCode der))

theorem findMatchingEntry_alike {certIssuer : Name} {certSerial : Bytes} {effective : Name}
    {entries others : List RevokedCert}
    (alike : List.Forall₂ (EntriesAlike ownIssuer) entries others) :
    foundReason der (findMatchingEntry der certIssuer certSerial ownIssuer effective entries) =
      foundReason der
        (findMatchingEntry der certIssuer certSerial ownIssuer effective others) := by
  induction alike generalizing effective with
  | nil => rfl
  | cons alike _ ih =>
      unfold findMatchingEntry
      rw [effectiveIssuer_alike alike, alike.serial]
      cases effectiveIssuer der ownIssuer effective _ with
      | error failure => rfl
      | ok next =>
          simp only [bind, Except.bind]
          split
          · simp only [foundReason, Except.map, Option.map, extractReasonCode_alike alike]
          · exact ih

/-- A lookup's outcome as the entry points report it. -/
def reportReason (serial : Bytes) (otherwise : Result Unit) :
    Option (Option CrlReason) → Result Unit
  | some reason => .error (.revoked serial reason)
  | none => otherwise

def reportDeltaReason (serial : Bytes) (otherwise : Result Unit) :
    Option (Option CrlReason) → Result Unit
  | some reason =>
      if reason = some .removeFromCrl then .ok () else .error (.revoked serial reason)
  | none => otherwise

theorem checkBaseEntries_eq {cert : Certificate} {crl : CertificateList} {isIndirect : Bool} :
    checkBaseEntries der cert crl isIndirect =
      foundReason der (findMatchingEntry der cert.tbsCertificate.issuer
        cert.tbsCertificate.serialNumber isIndirect crl.tbsCertList.issuer crl.entries) >>=
      reportReason cert.tbsCertificate.serialNumber (.ok ()) := by
  unfold checkBaseEntries
  cases findMatchingEntry der cert.tbsCertificate.issuer cert.tbsCertificate.serialNumber
      isIndirect crl.tbsCertList.issuer crl.entries with
  | error failure => rfl
  | ok found => cases found <;> rfl

theorem checkRevocationStatusIndirect_eq {cert : Certificate} {deltaEntries : List RevokedCert}
    {crl : CertificateList} {isIndirect : Bool} :
    checkRevocationStatusIndirect der cert deltaEntries crl isIndirect =
      foundReason der (findMatchingEntry der cert.tbsCertificate.issuer
        cert.tbsCertificate.serialNumber isIndirect crl.tbsCertList.issuer deltaEntries) >>=
      reportDeltaReason cert.tbsCertificate.serialNumber
        (checkBaseEntries der cert crl isIndirect) := by
  unfold checkRevocationStatusIndirect
  cases findMatchingEntry der cert.tbsCertificate.issuer cert.tbsCertificate.serialNumber
      isIndirect crl.tbsCertList.issuer deltaEntries with
  | error failure => rfl
  | ok found => cases found <;> rfl

end Lookups

section Outcomes

variable {der : CrlCodec} {checker other : CrlChecker}

theorem checkRevocationStatusIndirect_alike {cert : Certificate} {ownIssuer : Bool}
    {verifier : SignatureVerifier} {crl otherCrl : CertificateList}
    {deltaEntries otherEntries : List RevokedCert}
    (base : CrlsAlike der verifier ownIssuer crl otherCrl)
    (delta : List.Forall₂ (EntriesAlike ownIssuer) deltaEntries otherEntries) :
    checkRevocationStatusIndirect der cert deltaEntries crl ownIssuer =
      checkRevocationStatusIndirect der cert otherEntries otherCrl ownIssuer := by
  rw [checkRevocationStatusIndirect_eq, checkRevocationStatusIndirect_eq, checkBaseEntries_eq,
    checkBaseEntries_eq, base.issuer, findMatchingEntry_alike base.entries,
    findMatchingEntry_alike delta]

theorem checkCrlWindow_alike {nowUnix : Nat} {ownIssuer : Bool} {verifier : SignatureVerifier}
    {crl otherCrl : CertificateList} (alike : CrlsAlike der verifier ownIssuer crl otherCrl) :
    checkCrlWindow nowUnix crl = checkCrlWindow nowUnix otherCrl := by
  unfold checkCrlWindow
  rw [alike.thisUpdate, alike.nextUpdate]

theorem checkDelta_alike {signer : Signer} {deltaCrl otherDelta : CertificateList}
    (alike : CheckersAlike der checker other)
    (delta : CrlsAlike der checker.verifier checker.crlIssuerCert.isSome deltaCrl otherDelta) :
    checkDelta der checker signer deltaCrl = checkDelta der other signer otherDelta := by
  unfold checkDelta
  rw [delta.issuer, alike.base.issuer, checkCrlWindow_alike delta, delta.signed, alike.nowUnix,
    alike.verifier]

/-- What follows the delta's checks cannot tell alike entries apart. -/
theorem collectDeltaEntries_alike {signer : Signer} {cert : Certificate}
    (alike : CheckersAlike der checker other) :
    (collectDeltaEntries der checker signer >>= fun deltaEntries =>
        checkRevocationStatusIndirect der cert deltaEntries checker.crl
          checker.crlIssuerCert.isSome) =
      (collectDeltaEntries der other signer >>= fun deltaEntries =>
        checkRevocationStatusIndirect der cert deltaEntries other.crl
          other.crlIssuerCert.isSome) := by
  have status : ∀ {deltaEntries otherEntries : List RevokedCert},
      List.Forall₂ (EntriesAlike checker.crlIssuerCert.isSome) deltaEntries otherEntries →
      checkRevocationStatusIndirect der cert deltaEntries checker.crl
          checker.crlIssuerCert.isSome =
        checkRevocationStatusIndirect der cert otherEntries other.crl
          other.crlIssuerCert.isSome := by
    intro deltaEntries otherEntries entries
    rw [← alike.crlIssuerCert]
    exact checkRevocationStatusIndirect_alike alike.base entries
  have delta := alike.delta
  cases held : checker.deltaCrl with
  | none =>
      rw [held] at delta
      cases otherHeld : other.deltaCrl with
      | none =>
          unfold collectDeltaEntries
          rw [held, otherHeld]
          exact status List.Forall₂.nil
      | some otherDelta =>
          rw [otherHeld] at delta
          cases delta
  | some deltaCrl =>
      rw [held] at delta
      cases otherHeld : other.deltaCrl with
      | none =>
          rw [otherHeld] at delta
          cases delta
      | some otherDelta =>
          rw [otherHeld] at delta
          cases delta with
          | some deltaAlike =>
              rw [collectDeltaEntries_eq held, collectDeltaEntries_eq otherHeld,
                checkDelta_alike alike deltaAlike]
              cases checkDelta der other signer otherDelta with
              | error failure => rfl
              | ok passed => exact status deltaAlike.entries

theorem checkAgainstSigner_alike {cert : Certificate}
    {parsedIdp : Option IssuingDistributionPoint} {signer : Signer}
    (alike : CheckersAlike der checker other) :
    checkAgainstSigner der checker cert parsedIdp signer =
      checkAgainstSigner der other cert parsedIdp signer := by
  unfold checkAgainstSigner
  rw [checkCrlWindow_alike alike.base, alike.base.signed, collectDeltaEntries_alike alike,
    alike.nowUnix, alike.verifier]

theorem selectSigner_alike {indirect : Bool} {direct : Signer}
    (alike : CheckersAlike der checker other) :
    selectSigner checker indirect direct = selectSigner other indirect direct := by
  unfold selectSigner
  rw [alike.crlIssuerCert, alike.signerDiscovered]

theorem checkRevocation_alike {cert issuer : Certificate}
    (alike : CheckersAlike der checker other) :
    checkRevocation der checker cert issuer = checkRevocation der other cert issuer := by
  unfold checkRevocation
  simp only [parseIssuingDp_alike alike.base.idp, selectSigner_alike alike, alike.base.issuer,
    alike.crlIssuerCert, checkAgainstSigner_alike alike]

theorem checkRevocationAgainstAnchor_alike {cert : Certificate} {anchor : TrustAnchor}
    (alike : CheckersAlike der checker other) :
    checkRevocationAgainstAnchor der checker cert anchor =
      checkRevocationAgainstAnchor der other cert anchor := by
  unfold checkRevocationAgainstAnchor
  simp only [parseIssuingDp_alike alike.base.idp, selectSigner_alike alike, alike.base.issuer,
    checkAgainstSigner_alike alike]

end Outcomes

section Closed

variable {der : CrlCodec} {checker : CrlChecker} {cert : Certificate}

def IssuerReadable (der : CrlCodec) (entry : RevokedCert) : Prop :=
  ∀ content, contentOf entry.extensions oidCertificateIssuer = some content →
    ∃ name, parseCertificateIssuerDn der content = .ok name

/-- The delta CRL lists the certificate as taken off the base CRL, which is then not read. -/
def LiftedByDelta (der : CrlCodec) (checker : CrlChecker) (cert : Certificate) : Prop :=
  ∃ entry, lookup der checker cert (deltaListed checker) = .ok (some entry) ∧
    extractReasonCode der entry = some .removeFromCrl

theorem effectiveIssuer_readable {effective next : Name} {entry : RevokedCert}
    (read : effectiveIssuer der true effective entry = .ok next) : IssuerReadable der entry := by
  intro content found
  unfold contentOf at found
  unfold effectiveIssuer at read
  cases located : findIn entry.extensions oidCertificateIssuer with
  | none =>
      rw [located] at found
      cases found
  | some extension =>
      rw [located] at found read
      cases found
      exact ⟨next, read⟩

/-- A lookup without result has read every entry. -/
theorem findMatchingEntry_none_readable {certIssuer effective : Name} {certSerial : Bytes}
    {entries : List RevokedCert}
    (nothing : findMatchingEntry der certIssuer certSerial true effective entries = .ok none) :
    ∀ entry ∈ entries, IssuerReadable der entry := by
  induction entries generalizing effective with
  | nil =>
      intro entry member
      cases member
  | cons head rest ih =>
      unfold findMatchingEntry at nothing
      rcases Walk.bind_ok.mp nothing with ⟨next, read, continued⟩
      split at continued
      · cases continued
      · intro entry member
        rcases List.mem_cons.mp member with isHead | inRest
        · rw [isHead]
          exact effectiveIssuer_readable read
        · exact ih continued entry inRest

theorem checkAgainstSigner_readable {parsedIdp : Option IssuingDistributionPoint}
    {signer : Signer} (ownIssuer : checker.crlIssuerCert.isSome = true)
    (accepted : verdict (checkAgainstSigner der checker cert parsedIdp signer) = .notRevoked) :
    LiftedByDelta der checker cert ∨
      ∀ entry ∈ checker.crl.entries ++ deltaListed checker, IssuerReadable der entry := by
  rcases (checkAgainstSigner_verdict_iff (by decide)).mp accepted with
    ⟨_, _, _, deltaEntries, collected, status⟩
  rw [(collectDeltaEntries_ok_iff.mp collected).2] at status
  rcases (checkRevocationStatusIndirect_verdict_iff (by decide)).mp status with
    ⟨entry, looked, lifted⟩ | ⟨notInDelta, found, looked, notInBase⟩
  · apply Or.inl
    refine ⟨entry, looked, ?_⟩
    unfold deltaVerdict at lifted
    split at lifted
    · assumption
    · cases lifted
  · cases found with
    | some entry => cases notInBase
    | none =>
        unfold lookup at notInDelta looked
        rw [ownIssuer] at notInDelta looked
        apply Or.inr
        intro entry member
        rcases List.mem_append.mp member with inBase | inDelta
        · exact findMatchingEntry_none_readable looked entry inBase
        · exact findMatchingEntry_none_readable notInDelta entry inDelta

theorem withDelta_indicators {nowUnix : Nat} {verifier : SignatureVerifier}
    {baseDer deltaDer : Bytes}
    (built : CrlChecker.withDelta der nowUnix verifier baseDer deltaDer = .ok checker) :
    hasDeltaCrlIndicator checker.crl = false ∧
      ∃ deltaCrl, checker.deltaCrl = some deltaCrl ∧ hasDeltaCrlIndicator deltaCrl = true := by
  unfold CrlChecker.withDelta at built
  simp only [Walk.bind_ok, requireThat_ok_iff, orCrlParseError_ok_iff] at built
  rcases built with ⟨base, _, delta, _, _, notDelta, _, isDelta, _, _, _, _, _, _, given⟩
  cases given
  exact ⟨by simpa using notDelta, delta, rfl, isDelta⟩

theorem withDeltaAndCrlIssuer_indicators {nowUnix : Nat} {verifier : SignatureVerifier}
    {baseDer deltaDer : Bytes} {crlIssuerCert : Certificate}
    (built : CrlChecker.withDeltaAndCrlIssuer der nowUnix verifier baseDer deltaDer
      crlIssuerCert = .ok checker) :
    hasDeltaCrlIndicator checker.crl = false ∧
      ∃ deltaCrl, checker.deltaCrl = some deltaCrl ∧ hasDeltaCrlIndicator deltaCrl = true := by
  unfold CrlChecker.withDeltaAndCrlIssuer at built
  rcases Walk.bind_ok.mp built with ⟨direct, builtDirect, given⟩
  have indicators := withDelta_indicators builtDirect
  cases given
  exact indicators

end Closed

/-- No verdict depends on an extension that is not looked up, whatever its criticality; an
issuing distribution point or a certificateIssuer that is looked up and does not decode
leaves no verdict but an error, and a delta CRL is no base for another one. -/
theorem crl_processed_content (der : CrlCodec) (checker : CrlChecker) (cert : Certificate) :
    (∀ other, CheckersAlike der checker other →
      (∀ issuer, checkRevocation der checker cert issuer =
        checkRevocation der other cert issuer) ∧
      (∀ anchor, checkRevocationAgainstAnchor der checker cert anchor =
        checkRevocationAgainstAnchor der other cert anchor)) ∧
    ((∃ content, contentOf checker.crl.extensions oidIssuingDistributionPoint = some content ∧
        ∀ idp, der.issuingDistributionPoint content ≠ .ok idp) ∨
      (checker.crlIssuerCert.isSome = true ∧ ¬LiftedByDelta der checker cert ∧
        ∃ entry ∈ checker.crl.entries ++ deltaListed checker, ¬IssuerReadable der entry) →
      (∀ issuer, checkRevocation der checker cert issuer ≠ .ok ()) ∧
      (∀ anchor, checkRevocationAgainstAnchor der checker cert anchor ≠ .ok ())) ∧
    (∀ nowUnix verifier baseDer deltaDer,
      (CrlChecker.withDelta der nowUnix verifier baseDer deltaDer = .ok checker ∨
        ∃ crlIssuerCert, CrlChecker.withDeltaAndCrlIssuer der nowUnix verifier baseDer deltaDer
          crlIssuerCert = .ok checker) →
      hasDeltaCrlIndicator checker.crl = false ∧
        ∃ deltaCrl, checker.deltaCrl = some deltaCrl ∧ hasDeltaCrlIndicator deltaCrl = true) := by
  refine ⟨?_, ?_, ?_⟩
  · intro other alike
    constructor
    · intro issuer
      exact checkRevocation_alike alike
    · intro anchor
      exact checkRevocationAgainstAnchor_alike alike
  · intro unreadable
    have rejected : ∀ direct, ¬Settles der checker cert direct .notRevoked := by
      intro direct accepted
      rcases accepted with ⟨parsedIdp, signer, admits, tail⟩
      rcases unreadable with ⟨content, located, noIdp⟩ | ⟨ownIssuer, notLifted, bad⟩
      · exact parseIssuingDp_unreadable located noIdp parsedIdp admits.parsed
      · rcases bad with ⟨entry, member, notReadable⟩
        rcases checkAgainstSigner_readable ownIssuer tail with lifted | readable
        · exact notLifted lifted
        · exact notReadable (readable entry member)
    constructor
    · intro issuer accepted
      exact rejected _ (checkRevocation_ok_iff.mp accepted)
    · intro anchor accepted
      exact rejected _ (checkRevocationAgainstAnchor_ok_iff.mp accepted)
  · intro nowUnix verifier baseDer deltaDer built
    rcases built with direct | ⟨crlIssuerCert, indirect⟩
    · exact withDelta_indicators direct
    · exact withDeltaAndCrlIssuer_indicators indirect

namespace DeltaAlone

open Pkix.Path.Concrete
open Pkix.Revocation.Concrete

def issuer : Certificate :=
  issue 1 (commonName [65]) (commonName [65]) [1, 2, 3] [1, 2, 3] [caExtension]

def leaf : Certificate := issue 2 (commonName [65]) (commonName [67]) [1, 2, 3] [6] []

/-- A delta CRL to base CRL 1. -/
def deltaCrl : CertificateList :=
  crlBy (commonName [65]) [1, 2, 3] [] [numberExtension oidDeltaCrlIndicator true 1]

def fullCrl : CertificateList := crlBy (commonName [65]) [1, 2, 3] [] []

def codec : CrlCodec := crlCodec { basicConstraints := caTable, crls := [deltaCrl, fullCrl] }

def checkerOf (crl : CertificateList) : CrlChecker :=
  { crl, deltaCrl := none, crlIssuerCert := none, signerDiscovered := false
    nowUnix := summer2026, verifier := keyCopyVerifier }

theorem crls_alike : CheckersAlike codec (checkerOf deltaCrl) (checkerOf fullCrl) :=
  { nowUnix := rfl
    verifier := rfl
    crlIssuerCert := rfl
    signerDiscovered := rfl
    base :=
      { issuer := rfl
        thisUpdate := rfl
        nextUpdate := rfl
        idp := by decide
        entries := List.Forall₂.nil
        signed := fun _ => rfl }
    delta := Option.Rel.none }

end DeltaAlone

theorem delta_as_base_accepted :
    ∃ checker,
      CrlChecker.new DeltaAlone.codec Concrete.summer2026 Path.Concrete.keyCopyVerifier
        (Concrete.encodeCertificateList DeltaAlone.deltaCrl) = .ok checker ∧
      (∃ extension ∈ checker.crl.extensions,
        extension.critical = true ∧ extension.extnId = oidDeltaCrlIndicator) ∧
      checkRevocation DeltaAlone.codec checker DeltaAlone.leaf DeltaAlone.issuer = .ok () := by
  refine ⟨DeltaAlone.checkerOf DeltaAlone.deltaCrl, by rfl, ?_, by decide +kernel⟩
  exact ⟨Concrete.numberExtension oidDeltaCrlIndicator true 1, List.mem_singleton.mpr rfl, rfl, rfl⟩

theorem crl_processed_content_example :
    checkRevocation DeltaAlone.codec (DeltaAlone.checkerOf DeltaAlone.deltaCrl) DeltaAlone.leaf
        DeltaAlone.issuer =
      checkRevocation DeltaAlone.codec (DeltaAlone.checkerOf DeltaAlone.fullCrl) DeltaAlone.leaf
        DeltaAlone.issuer :=
  ((crl_processed_content DeltaAlone.codec (DeltaAlone.checkerOf DeltaAlone.deltaCrl)
    DeltaAlone.leaf).1 _ DeltaAlone.crls_alike).1 DeltaAlone.issuer

end Pkix.Revocation
