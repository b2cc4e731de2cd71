import Pkix.Revocation.BundleSearch
import Pkix.Revocation.ConcreteCrl
import Pkix.Revocation.CrlFacts

/-! A bundle in any order: when the verdict by a discovered signer does not depend on it. -/

namespace Pkix.Revocation

open Pkix.Path

section Outcome

variable {der : CrlCodec} {nowUnix : Nat} {verifier : SignatureVerifier}
  {crl : CertificateList} {cert issuer : Certificate}

/-- A checker made for the bundle and asked about one certificate. -/
def discoverAndCheck (der : CrlCodec) (nowUnix : Nat) (verifier : SignatureVerifier)
    (crlDer : Bytes) (bundle : List Certificate) (cert issuer : Certificate) : Result Unit := do
  let checker ← CrlChecker.newWithSignerDiscovery der nowUnix verifier crlDer bundle cert
  checkRevocation der checker cert issuer

/-- The checks that no signer has a part in, and what the lookup finds. -/
structure OthersPass (der : CrlCodec) (nowUnix : Nat) (crl : CertificateList)
    (cert issuer : Certificate) (parsedIdp : Option IssuingDistributionPoint)
    (found : Option RevokedCert) : Prop where
  parsed : parseIssuingDp der crl = .ok parsedIdp
  issuerNamed : namesMatch issuer.tbsCertificate.subject cert.tbsCertificate.issuer = true
  window : checkCrlWindow nowUnix crl = .ok ()
  scope : checkScope der cert parsedIdp crl.tbsCertList.issuer = .ok ()
  looked : findMatchingEntry der cert.tbsCertificate.issuer cert.tbsCertificate.serialNumber true
    crl.tbsCertList.issuer crl.entries = .ok found

theorem generalNameMatches_congr {a b : Name} (same : namesMatch a b = true)
    (name : GeneralName) :
    generalNameMatches name (.directoryName a) = generalNameMatches name (.directoryName b) := by
  cases name with
  | directoryName dn =>
      unfold generalNameMatches
      dsimp only
      rw [namesMatch_comm dn a, namesMatch_comm dn b, namesMatch_congr same]
  | _ => simp [generalNameMatches]

theorem pointMatches_congr {certIssuer a b : Name} (same : namesMatch a b = true)
    (idpName : DistributionPointName) :
    pointMatches certIssuer (dpnToGeneralNames a idpName) =
      pointMatches certIssuer (dpnToGeneralNames b idpName) := by
  funext point
  cases idpName with
  | fullName names => rfl
  | nameRelativeToCrlIssuer rdn =>
      unfold pointMatches generalNamesIntersect
      simp only [dpnToGeneralNames, List.any_cons, List.any_nil,
        generalNameMatches_congr (namesMatch_append same rdn)]

/-- Names that match place a CRL in the same scope. -/
theorem checkScope_congr {parsedIdp : Option IssuingDistributionPoint} {a b : Name}
    (same : namesMatch a b = true) :
    checkScope der cert parsedIdp a = checkScope der cert parsedIdp b := by
  unfold checkScope checkIdpScope checkIdpDpScope
  simp only [pointMatches_congr same]

def discoveredChecker (nowUnix : Nat) (verifier : SignatureVerifier) (crl : CertificateList)
    (signer : Certificate) : CrlChecker :=
  { crl, deltaCrl := none, crlIssuerCert := some signer, signerDiscovered := true, nowUnix
    verifier }

theorem discoveredSigner_ok_iff {bundle : List Slot} {signer : Certificate} :
    discoveredSigner der bundle crl = .ok signer ↔
      ∃ slot, bundle.find? (signerTest der crl) = some slot ∧
        checkCrlSign der slot.1 = .ok () ∧ reachesSelfSigned der bundle slot = true ∧
        slot.1 = signer := by
  unfold discoveredSigner
  rw [discoverCrlSigner_eq]
  cases bundle.find? (signerTest der crl) with
  | none => simp
  | some slot =>
      dsimp only
      rw [Walk.then_ok, Walk.then_ok, requireThat_ok_iff, Walk.pure_ok]
      simp

theorem newWithSignerDiscovery_ok_iff {crlDer : Bytes} {bundle : List Certificate}
    {checker : CrlChecker} :
    CrlChecker.newWithSignerDiscovery der nowUnix verifier crlDer bundle cert = .ok checker ↔
      ∃ crl signer, der.certificateList crlDer = .ok crl ∧
        discoveredSigner der (slots bundle) crl = .ok signer ∧
        discoveredChecker nowUnix verifier crl signer = checker := by
  unfold CrlChecker.newWithSignerDiscovery
  simp only [Walk.bind_ok, Walk.pure_ok, orCrlParseError_ok_iff]
  constructor
  · intro built
    rcases built with ⟨crl, decoded, signer, discovered, isChecker⟩
    exact ⟨crl, signer, decoded, discovered, isChecker⟩
  · intro built
    rcases built with ⟨crl, signer, decoded, discovered, isChecker⟩
    exact ⟨crl, decoded, signer, discovered, isChecker⟩

theorem newWithSignerDiscovery_harmless {crlDer : Bytes} {bundle : List Certificate} :
    Walk.Avoids IsRevoked
      (CrlChecker.newWithSignerDiscovery der nowUnix verifier crlDer bundle cert) := by
  apply (orCrlParseError_harmless _).bind
  intro crl _
  refine Walk.Avoids.bind ?_ (fun signer _ => Walk.avoids_ok _)
  unfold discoveredSigner
  split
  · exact Walk.avoids_error id
  · apply checkCrlSign_harmless.bind
    intro _ _
    apply (requireThat_harmless id).bind
    intro _ _
    exact Walk.avoids_ok _

theorem discovered_tail_iff {signer : Certificate} {parsedIdp : Option IssuingDistributionPoint}
    {settled : Verdict} (decided : settled ≠ .undetermined) :
    verdict (checkAgainstSigner der (discoveredChecker nowUnix verifier crl signer) cert
        parsedIdp (certSigner signer)) = settled ↔
      checkCrlWindow nowUnix crl = .ok () ∧
      verifyCrlSignature der verifier crl signer.tbsCertificate.subjectPublicKeyInfo = .ok () ∧
      checkScope der cert parsedIdp signer.tbsCertificate.subject = .ok () ∧
      ∃ found, findMatchingEntry der cert.tbsCertificate.issuer cert.tbsCertificate.serialNumber
          true crl.tbsCertList.issuer crl.entries = .ok found ∧
        baseVerdict der cert found = settled := by
  have noDelta : ∀ deltaEntries,
      collectDeltaEntries der (discoveredChecker nowUnix verifier crl signer)
        (certSigner signer) = .ok deltaEntries ↔ deltaEntries = [] := by
    intro deltaEntries
    rw [collectDeltaEntries_ok_iff]
    constructor
    · intro collected
      exact collected.2
    · intro isNil
      refine ⟨?_, isNil⟩
      intro deltaCrl held
      cases held
  rw [checkAgainstSigner_verdict_iff decided]
  constructor
  · intro settles
    rcases settles with ⟨window, signed, scope, deltaEntries, collected, status⟩
    rw [(noDelta deltaEntries).mp collected] at status
    rcases (checkRevocationStatusIndirect_verdict_iff decided).mp status with
      ⟨entry, inDelta, _⟩ | ⟨_, found, looked, isSettled⟩
    · cases inDelta
    · exact ⟨window, signed, scope, found, looked, isSettled⟩
  · intro passed
    rcases passed with ⟨window, signed, scope, found, looked, isSettled⟩
    have inNoDelta : lookup der (discoveredChecker nowUnix verifier crl signer) cert [] =
        .ok none := rfl
    have status := (checkRevocationStatusIndirect_verdict_iff decided).mpr
      (.inr ⟨inNoDelta, found, looked, isSettled⟩)
    exact ⟨window, signed, scope, [], (noDelta []).mpr rfl, status⟩

/-- The signer's part of a verdict and the rest of it. -/
theorem discovered_verdict_iff {signer : Certificate} {settled : Verdict}
    (decided : settled ≠ .undetermined) :
    verdict (checkRevocation der (discoveredChecker nowUnix verifier crl signer) cert issuer) =
        settled ↔
      SignerPasses der verifier crl signer ∧
        ∃ parsedIdp found, OthersPass der nowUnix crl cert issuer parsedIdp found ∧
          baseVerdict der cert found = settled := by
  rw [checkRevocation_verdict_iff decided]
  constructor
  · intro settles
    rcases settles with ⟨parsedIdp, other, admits, tail⟩
    have isSigner : other = certSigner signer := by
      rcases selectSigner_ok_iff.mp admits.selected with
        ⟨stored, isStored, _, isOther⟩ | ⟨noStored, _, _⟩
      · cases isStored
        exact isOther
      · cases noStored
    have named := admits.signerNamed
    have crlSign := admits.crlSign
    rw [isSigner] at named crlSign tail
    rcases (discovered_tail_iff decided).mp tail with
      ⟨window, signed, scope, found, looked, isSettled⟩
    have crlScope : checkScope der cert parsedIdp crl.tbsCertList.issuer = .ok () :=
      (checkScope_congr named).trans scope
    exact ⟨⟨crlSign, named, signed⟩, parsedIdp, found,
      ⟨admits.parsed, admits.issuerNamed, window, crlScope, looked⟩, isSettled⟩
  · intro passed
    rcases passed with ⟨passes, parsedIdp, found, others, isSettled⟩
    have scope := others.scope
    rw [checkScope_congr passes.named] at scope
    have selected : selectSigner (discoveredChecker nowUnix verifier crl signer)
        (declaresIndirect parsedIdp) (certSigner issuer) = .ok (certSigner signer) :=
      selectSigner_ok_iff.mpr (.inl ⟨signer, rfl, .inr rfl, rfl⟩)
    have tail := (discovered_tail_iff decided).mpr
      ⟨others.window, passes.signed, scope, found, others.looked, isSettled⟩
    exact ⟨parsedIdp, certSigner signer,
      ⟨others.parsed, selected, passes.named, others.issuerNamed, rfl, passes.crlSign⟩, tail⟩

theorem discoverAndCheck_verdict_iff {crlDer : Bytes} {bundle : List Certificate}
    {settled : Verdict} (decided : settled ≠ .undetermined) :
    verdict (discoverAndCheck der nowUnix verifier crlDer bundle cert issuer) = settled ↔
      ∃ crl, der.certificateList crlDer = .ok crl ∧
        Succeeds der verifier crl (slots bundle) ∧
        ∃ parsedIdp found, OthersPass der nowUnix crl cert issuer parsedIdp found ∧
          baseVerdict der cert found = settled := by
  unfold discoverAndCheck
  rw [verdict_bind newWithSignerDiscovery_harmless decided]
  simp only [newWithSignerDiscovery_ok_iff, discoveredSigner_ok_iff]
  constructor
  · intro settles
    rcases settles with ⟨checker, ⟨crl, signer, decoded, ⟨slot, found, _, reaches, isSigner⟩,
      isChecker⟩, outcome⟩
    rw [← isChecker, ← isSigner] at outcome
    rcases (discovered_verdict_iff decided).mp outcome with ⟨passes, rest⟩
    exact ⟨crl, decoded, ⟨slot, found, passes, reaches⟩, rest⟩
  · intro settles
    rcases settles with ⟨crl, decoded, ⟨slot, found, passes, reaches⟩, rest⟩
    exact ⟨discoveredChecker nowUnix verifier crl slot.1,
      ⟨crl, slot.1, decoded, ⟨slot, found, passes.crlSign, reaches, rfl⟩, rfl⟩,
      (discovered_verdict_iff decided).mpr ⟨passes, rest⟩⟩

end Outcome

section OrderFree

inductive VerdictClass
  | ok
  | revoked
  | error
  deriving DecidableEq, Repr

def verdictClass : Verdict → VerdictClass
  | .notRevoked => .ok
  | .revoked _ _ => .revoked
  | .undetermined => .error

variable {der : CrlCodec} {nowUnix : Nat} {verifier : SignatureVerifier} {crlDer : Bytes}
  {crl : CertificateList} {cert issuer : Certificate}

/-- One class of verdict for every order of the bundle. -/
def OrderFree (der : CrlCodec) (nowUnix : Nat) (verifier : SignatureVerifier) (crlDer : Bytes)
    (bundle : List Certificate) (cert issuer : Certificate) : Prop :=
  ∀ other : List Certificate, other.Perm bundle →
    verdictClass (verdict (discoverAndCheck der nowUnix verifier crlDer other cert issuer)) =
      verdictClass (verdict (discoverAndCheck der nowUnix verifier crlDer bundle cert issuer))

theorem verdictClass_error_iff {outcome : Verdict} :
    verdictClass outcome = .error ↔ outcome = .undetermined := by
  cases outcome <;> simp [verdictClass]

theorem baseVerdict_decided {found : Option RevokedCert} :
    baseVerdict der cert found ≠ .undetermined := by
  cases found <;> simp [baseVerdict, revokedBy]

/-- An order on which the search fails gives no verdict. -/
theorem undetermined_of_fails {bundle : List Certificate}
    (decoded : der.certificateList crlDer = .ok crl)
    (fails : ¬Succeeds der verifier crl (slots bundle)) :
    verdict (discoverAndCheck der nowUnix verifier crlDer bundle cert issuer) =
      .undetermined := by
  by_contra decided
  rcases (discoverAndCheck_verdict_iff decided).mp rfl with ⟨other, decodedOther, succeeds, _⟩
  rw [decoded] at decodedOther
  cases decodedOther
  exact fails succeeds

/-- An order on which it succeeds gives the verdict of the lookup, if the rest passes. -/
theorem verdict_of_succeeds {bundle : List Certificate}
    {parsedIdp : Option IssuingDistributionPoint} {found : Option RevokedCert}
    (decoded : der.certificateList crlDer = .ok crl)
    (others : OthersPass der nowUnix crl cert issuer parsedIdp found)
    (succeeds : Succeeds der verifier crl (slots bundle)) :
    verdict (discoverAndCheck der nowUnix verifier crlDer bundle cert issuer) =
      baseVerdict der cert found :=
  (discoverAndCheck_verdict_iff baseVerdict_decided).mpr
    ⟨crl, decoded, succeeds, parsedIdp, found, others, rfl⟩

theorem undetermined_of_othersFail {bundle : List Certificate}
    (othersFail : ∀ crl parsedIdp found, der.certificateList crlDer = .ok crl →
      ¬OthersPass der nowUnix crl cert issuer parsedIdp found) :
    verdict (discoverAndCheck der nowUnix verifier crlDer bundle cert issuer) =
      .undetermined := by
  by_contra decided
  rcases (discoverAndCheck_verdict_iff decided).mp rfl with
    ⟨crl, decoded, _, parsedIdp, found, others, _⟩
  exact othersFail crl parsedIdp found decoded others

end OrderFree

/-- The verdict is free of the order of the bundle exactly when the checks outside the
search fail, every slot that may be taken for the signer is accepted and can only arrive at
a self-signed certificate, or none that is accepted can arrive at one. -/
theorem signer_discovery_order_free_iff (der : CrlCodec) (nowUnix : Nat)
    (verifier : SignatureVerifier) (crlDer : Bytes) (bundle : List Certificate)
    (cert issuer : Certificate) :
    OrderFree der nowUnix verifier crlDer bundle cert issuer ↔
      ∀ crl parsedIdp found, der.certificateList crlDer = .ok crl →
        OthersPass der nowUnix crl cert issuer parsedIdp found →
        EverySignerArrives der verifier crl (slots bundle) ∨
          NoSignerArrives der verifier crl (slots bundle) := by
  constructor
  · intro orderFree crl parsedIdp found decoded others
    by_cases succeeds : Succeeds der verifier crl (slots bundle)
    · apply Or.inl
      rw [← every_order_succeeds_iff]
      intro other order
      by_contra fails
      have same := orderFree other order
      rw [undetermined_of_fails decoded fails, verdict_of_succeeds decoded others succeeds] at same
      exact baseVerdict_decided (verdictClass_error_iff.mp same.symm)
    · apply Or.inr
      rw [← no_order_succeeds_iff]
      intro other order othersSucceeds
      have same := orderFree other order
      rw [undetermined_of_fails decoded succeeds,
        verdict_of_succeeds decoded others othersSucceeds] at same
      exact baseVerdict_decided (verdictClass_error_iff.mp same)
  · intro settledBySearch other order
    by_cases othersFail : ∀ crl parsedIdp found, der.certificateList crlDer = .ok crl →
        ¬OthersPass der nowUnix crl cert issuer parsedIdp found
    · rw [undetermined_of_othersFail othersFail, undetermined_of_othersFail othersFail]
    · push Not at othersFail
      rcases othersFail with ⟨crl, parsedIdp, found, decoded, others⟩
      rcases settledBySearch crl parsedIdp found decoded others with every | none
      · rw [← every_order_succeeds_iff] at every
        rw [verdict_of_succeeds decoded others (every other order),
          verdict_of_succeeds decoded others (every bundle (List.Perm.refl bundle))]
      · rw [← no_order_succeeds_iff] at none
        rw [undetermined_of_fails decoded (none other order),
          undetermined_of_fails decoded (none bundle (List.Perm.refl bundle))]

namespace Rekeyed

open Pkix.Path.Concrete
open Pkix.Revocation.Concrete

/-- One issuer with an old and a new key; the CRL is by the new one. -/
def oldIssuer : Certificate :=
  issue 1 (commonName [65]) (commonName [65]) [4, 5] [4, 5] [caExtension]

def newIssuer : Certificate :=
  issue 3 (commonName [65]) (commonName [65]) [1, 2, 3] [1, 2, 3] [caExtension]

def leaf : Certificate := issue 2 (commonName [65]) (commonName [67]) [1, 2, 3] [6] []

def crl : CertificateList := crlBy (commonName [65]) [1, 2, 3] [] []

def codec : CrlCodec := crlCodec { basicConstraints := caTable, crls := [crl] }

def outcomeFor (bundle : List Certificate) : Result Unit :=
  discoverAndCheck codec summer2026 keyCopyVerifier (encodeCertificateList crl) bundle leaf
    newIssuer

end Rekeyed

theorem signer_discovery_order_sensitive :
    Rekeyed.outcomeFor [Rekeyed.newIssuer, Rekeyed.oldIssuer] = .ok () ∧
    Rekeyed.outcomeFor [Rekeyed.oldIssuer, Rekeyed.newIssuer] = .error .crlSignatureInvalid ∧
    ¬OrderFree Rekeyed.codec Concrete.summer2026 Path.Concrete.keyCopyVerifier
      (Concrete.encodeCertificateList Rekeyed.crl) [Rekeyed.newIssuer, Rekeyed.oldIssuer]
      Rekeyed.leaf Rekeyed.newIssuer := by
  have newFirst : Rekeyed.outcomeFor [Rekeyed.newIssuer, Rekeyed.oldIssuer] = .ok () := by
    decide +kernel
  have oldFirst : Rekeyed.outcomeFor [Rekeyed.oldIssuer, Rekeyed.newIssuer] =
      .error .crlSignatureInvalid := by
    decide +kernel
  refine ⟨newFirst, oldFirst, ?_⟩
  intro orderFree
  have same := orderFree [Rekeyed.oldIssuer, Rekeyed.newIssuer] (List.Perm.swap _ _ _)
  change verdictClass (verdict (Rekeyed.outcomeFor [Rekeyed.oldIssuer, Rekeyed.newIssuer])) =
    verdictClass (verdict (Rekeyed.outcomeFor [Rekeyed.newIssuer, Rekeyed.oldIssuer])) at same
  rw [newFirst, oldFirst] at same
  cases same

end Pkix.Revocation
