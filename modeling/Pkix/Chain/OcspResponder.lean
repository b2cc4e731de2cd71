import Pkix.Chain.VerifySoundness

/-! Verification of a delegated OCSP responder: its chain, with the responder itself exempt
from revocation checks when it says so, and its delegation by the given issuer. -/

namespace Pkix.Chain

open Pkix.Path

def oidOcspNoCheck : ObjectIdentifier := ⟨[1, 3, 6, 1, 5, 5, 7, 48, 1, 5]⟩
def oidKpOcspSigning : ObjectIdentifier := ⟨[1, 3, 6, 1, 5, 5, 7, 3, 9]⟩

def hasOcspNoCheck (cert : Certificate) : Bool :=
  cert.extensions.any (fun extension => extension.extnId == oidOcspNoCheck)

structure LeafIdent where
  issuer : Name
  serial : Bytes
  deriving DecidableEq, Repr

namespace LeafIdent

def of (cert : Certificate) : LeafIdent :=
  { issuer := cert.tbsCertificate.issuer, serial := cert.tbsCertificate.serialNumber }

def recognizes (ident : LeafIdent) (cert : Certificate) : Bool :=
  ident.serial == cert.tbsCertificate.serialNumber && ident.issuer == cert.tbsCertificate.issuer

end LeafIdent

/-- Passes every certificate but the one it recognizes on to the checker inside. -/
structure NoCheckShim where
  inner : RevocationChecker
  leafId : Option LeafIdent

namespace NoCheckShim

def bypasses (shim : NoCheckShim) (cert : Certificate) : Bool :=
  match shim.leafId with
  | some leaf => leaf.recognizes cert
  | none => false

def checker (shim : NoCheckShim) : RevocationChecker :=
  { checkRevocation := fun cert issuer =>
      if shim.bypasses cert then .ok () else shim.inner.checkRevocation cert issuer
    checkRevocationAgainstAnchor := fun cert anchor =>
      if shim.bypasses cert then .ok () else shim.inner.checkRevocationAgainstAnchor cert anchor }

theorem checker_issuer {shim : NoCheckShim} {cert issuer : Certificate}
    (passedOn : shim.bypasses cert = false) :
    shim.checker.checkRevocation cert issuer = shim.inner.checkRevocation cert issuer := by
  simp [checker, passedOn]

theorem checker_anchor {shim : NoCheckShim} {cert : Certificate} {anchor : TrustAnchor}
    (passedOn : shim.bypasses cert = false) :
    shim.checker.checkRevocationAgainstAnchor cert anchor =
      shim.inner.checkRevocationAgainstAnchor cert anchor := by
  simp [checker, passedOn]

end NoCheckShim

section Responder

variable (der : ChainCodec) (defaultVerifier : SignatureVerifier)

/-- The signature is always checked with the default backends. -/
def verifyResponderIsDelegatedBy (responder issuer : Certificate) : Result Unit :=
  if !namesMatch responder.tbsCertificate.issuer issuer.tbsCertificate.subject then
    .error (.ocspDelegation
      ("OCSP responder cert issuer DN does not match the supplied issuer's subject DN " ++
        "(RFC 6960 §4.2.2.2 delegation requirement)"))
  else
    match der.encodeTbs responder.tbsCertificate with
    | .error _ =>
        .error (.ocspDelegation
          ("OCSP responder cert TBSCertificate re-encoding failed " ++
            "(cannot verify delegation signature)"))
    | .ok tbsDer =>
        if defaultVerifier responder.signatureAlgorithm
            issuer.tbsCertificate.subjectPublicKeyInfo tbsDer responder.signature.rawBytes then
          .ok ()
        else
          .error (.ocspDelegation
            ("OCSP responder cert signature does not verify under the supplied issuer's " ++
              "public key (RFC 6960 §4.2.2.2: responder must be issued directly by the " ++
              "named CA — DN match without cryptographic binding is insufficient)"))

def noCheckShim (responder : Certificate) (revocation : RevocationChecker) : NoCheckShim :=
  { inner := revocation
    leafId := if hasOcspNoCheck responder then some (.of responder) else none }

def verifyOcspResponder (chain : List Certificate) (anchors : List TrustAnchor)
    (issuer : Certificate) (profile : (nowUnix : Nat) → ValidationPolicy) (nowUnix : Nat)
    (verifier : SignatureVerifier) (revocation : RevocationChecker) (aia : AiaFetcher) :
    Result ValidatedPath :=
  match chain.head? with
  | none =>
      .error (.ocspDelegation "OCSP responder chain must contain at least the responder cert")
  | some responder => do
      let validated ← verifyChain der chain anchors (profile nowUnix) verifier
        (noCheckShim responder revocation).checker aia
      verifyResponderIsDelegatedBy der defaultVerifier responder issuer
      pure validated

end Responder

section Soundness

variable {der : ChainCodec} {defaultVerifier : SignatureVerifier}

structure Delegated (der : ChainCodec) (defaultVerifier : SignatureVerifier)
    (responder issuer : Certificate) : Prop where
  named : namesMatch responder.tbsCertificate.issuer issuer.tbsCertificate.subject = true
  signed : ∃ tbsDer, der.encodeTbs responder.tbsCertificate = .ok tbsDer ∧
    defaultVerifier responder.signatureAlgorithm issuer.tbsCertificate.subjectPublicKeyInfo
      tbsDer responder.signature.rawBytes = true

theorem verifyResponderIsDelegatedBy_ok_iff {responder issuer : Certificate} :
    verifyResponderIsDelegatedBy der defaultVerifier responder issuer = .ok () ↔
      Delegated der defaultVerifier responder issuer := by
  unfold verifyResponderIsDelegatedBy
  cases named : namesMatch responder.tbsCertificate.issuer issuer.tbsCertificate.subject with
  | false =>
      simp only [Bool.not_false, if_true, reduceCtorEq, false_iff]
      intro delegated
      rw [delegated.named] at named
      cases named
  | true =>
      simp only [Bool.not_true, Bool.false_eq_true, if_false]
      cases encoded : der.encodeTbs responder.tbsCertificate with
      | error failure =>
          simp only [reduceCtorEq, false_iff]
          intro delegated
          rcases delegated.signed with ⟨tbsDer, same, _⟩
          rw [encoded] at same
          cases same
      | ok tbsDer =>
          dsimp only
          constructor
          · intro accepted
            split at accepted
            · next verified => exact ⟨named, tbsDer, encoded, verified⟩
            · cases accepted
          · intro delegated
            rcases delegated.signed with ⟨signedDer, same, verified⟩
            rw [encoded] at same
            cases same
            rw [if_pos verified]

theorem sameCertificate_of_recognizes {responder cert : Certificate}
    (recognized : (LeafIdent.of responder).recognizes cert = true) :
    sameCertificate responder cert = true := by
  simp only [LeafIdent.recognizes, LeafIdent.of, Bool.and_eq_true, beq_iff_eq] at recognized
  simp [sameCertificate, recognized.1, recognized.2, namesMatch_refl]

/-- In a chain without duplicates only the responder is recognized. -/
theorem bypasses_above {responder : Certificate} {rest : List Certificate}
    {revocation : RevocationChecker} {cert : Certificate}
    (distinct : (responder :: rest).Pairwise (fun a b => sameCertificate a b = false))
    (above : cert ∈ rest) : (noCheckShim responder revocation).bypasses cert = false := by
  have differ := List.rel_of_pairwise_cons distinct above
  rw [Bool.eq_false_iff]
  intro bypassed
  cases exempt : hasOcspNoCheck responder with
  | false => simp [NoCheckShim.bypasses, noCheckShim, exempt] at bypassed
  | true =>
      have recognized : (LeafIdent.of responder).recognizes cert = true := by
        simpa [NoCheckShim.bypasses, noCheckShim, exempt] using bypassed
      rw [sameCertificate_of_recognizes recognized] at differ
      cases differ

theorem bypasses_responder {responder : Certificate} {revocation : RevocationChecker}
    (checked : hasOcspNoCheck responder = false) :
    (noCheckShim responder revocation).bypasses responder = false := by
  simp [NoCheckShim.bypasses, noCheckShim, checked]

/-- The inner checker accepted every certificate but an exempt responder. -/
structure InnerChecked (revocation : RevocationChecker) (anchor : TrustAnchor)
    (chain : List Certificate) (exempt : Bool) : Prop where
  againstIssuer : ∀ index cert issuer, chain[index]? = some cert →
    chain[index + 1]? = some issuer → (0 < index ∨ exempt = false) →
    revocation.checkRevocation cert issuer = .ok ()
  againstAnchor : ∀ index cert, chain[index]? = some cert → index + 1 = chain.length →
    (0 < index ∨ exempt = false) → revocation.checkRevocationAgainstAnchor cert anchor = .ok ()

theorem innerChecked_of_shim {responder : Certificate} {rest : List Certificate}
    {revocation : RevocationChecker} {anchor : TrustAnchor}
    (distinct : (responder :: rest).Pairwise (fun a b => sameCertificate a b = false))
    (checked : Verifier.RevocationChecked (noCheckShim responder revocation).checker anchor
      (responder :: rest)) :
    InnerChecked revocation anchor (responder :: rest) (hasOcspNoCheck responder) := by
  have passedOn : ∀ index cert, (responder :: rest)[index]? = some cert →
      (0 < index ∨ hasOcspNoCheck responder = false) →
      (noCheckShim responder revocation).bypasses cert = false := by
    intro index cert located inner
    cases index with
    | zero =>
        cases located
        exact bypasses_responder (inner.resolve_left (Nat.lt_irrefl 0))
    | succ index => exact bypasses_above distinct (List.mem_of_getElem? located)
  constructor
  · intro index cert issuer located above inner
    have accepted := checked.againstIssuer index cert issuer located above
    rwa [NoCheckShim.checker_issuer (passedOn index cert located inner)] at accepted
  · intro index cert located last inner
    have isLast : (responder :: rest).getLast? = some cert := by
      rw [List.getLast?_eq_getElem?, ← last]
      exact located
    have accepted := checked.againstAnchor cert isLast
    rwa [NoCheckShim.checker_anchor (passedOn index cert located inner)] at accepted

/-- What an accepted responder guarantees; the certificates above the responder are checked
for revocation even when the responder is exempt. -/
theorem verifyOcspResponder_sound {chain : List Certificate} {anchors : List TrustAnchor}
    {issuer : Certificate} {profile : (nowUnix : Nat) → ValidationPolicy} {nowUnix : Nat}
    {verifier : SignatureVerifier} {revocation : RevocationChecker} {aia : AiaFetcher}
    {validated : ValidatedPath}
    (verified : verifyOcspResponder der defaultVerifier chain anchors issuer profile nowUnix
      verifier revocation aia = .ok validated) :
    ∃ responder rest anchor, chain.head? = some responder ∧
      validatePath der.toDerCodec (profile nowUnix) verifier (responder :: rest) anchors =
        .ok validated ∧
      anchors[validated.anchorIndex]? = some anchor ∧
      Delegated der defaultVerifier responder issuer ∧
      (∀ requiredEkus, (profile nowUnix).requiredLeafEku = some requiredEkus →
        oidKpOcspSigning ∈ requiredEkus →
        ∃ extension ekus, findExtension responder oidExtendedKeyUsage = some extension ∧
          der.extendedKeyUsage extension.extnValue = some ekus ∧ oidKpOcspSigning ∈ ekus) ∧
      InnerChecked revocation anchor (responder :: rest) (hasOcspNoCheck responder) := by
  unfold verifyOcspResponder at verified
  cases first : chain.head? with
  | none => simp [first] at verified
  | some responder =>
      simp only [first] at verified
      rcases Walk.bind_ok.mp verified with ⟨path, chainVerified, verified⟩
      rcases Walk.then_ok.mp verified with ⟨delegation, same⟩
      cases Walk.pure_ok.mp same
      rcases Verifier.upheld_of_verifyOne chainVerified with ⟨built, head, upheld⟩
      rw [first] at head
      rcases List.head?_eq_some_iff.mp head with ⟨rest, split⟩
      subst split
      rcases upheld.unrevoked with ⟨anchor, selected, checked⟩
      have validates : validatePath der.toDerCodec (profile nowUnix) verifier
          (responder :: rest) anchors = .ok validated := upheld.validates
      refine ⟨responder, rest, anchor, rfl, validates, selected,
        verifyResponderIsDelegatedBy_ok_iff.mp delegation, ?_,
        innerChecked_of_shim (validatePath_distinct validates) checked⟩
      intro requiredEkus required listed
      rcases validatePath_ok validates with ⟨leaf, _, _, _, isFirst, _, _, _, walked, _⟩
      cases isFirst
      exact leafEku_of_walk walked rfl required oidKpOcspSigning listed

end Soundness

namespace Concrete

open Pkix.Path.Concrete Pkix.PathBuilder.Concrete

def ekuCodec : ChainCodec :=
  { chainCodec [] with
    extendedKeyUsage := fun content => if content = [9] then some [oidKpOcspSigning] else none }

def ocspResponder (extensions : List Extension) : Certificate :=
  issue 7 (commonName [66]) (commonName [70]) [4] [10] extensions

def ocspIssuer : Certificate := issue 1 (commonName [65]) (commonName [66]) [1] [4] [caExtension]

def exemptResponder : Certificate :=
  ocspResponder [⟨oidExtendedKeyUsage, false, [9]⟩, ⟨oidOcspNoCheck, false, [5, 0]⟩]

def responderProfile (nowUnix : Nat) : ValidationPolicy :=
  { ValidationPolicy.new nowUnix with requiredLeafEku := some [oidKpOcspSigning] }

/-- Accepts certificates of the serial number 1 only. -/
def firstSerialOnly : RevocationChecker :=
  { checkRevocation := fun _ _ => .error .ocspStatusUnknown
    checkRevocationAgainstAnchor := fun cert _ =>
      if cert.tbsCertificate.serialNumber = [1] then .ok () else .error .ocspStatusUnknown }

theorem exemptResponder_sound :
    ∃ responder rest anchor, [exemptResponder, ocspIssuer].head? = some responder ∧
      validatePath ekuCodec.toDerCodec (responderProfile 1800000000) keyCopyVerifier
        (responder :: rest) rootAnchors =
        .ok (validatedPath [exemptResponder, ocspIssuer] exemptResponder 0 none) ∧
      rootAnchors[0]? = some anchor ∧
      Delegated ekuCodec keyCopyVerifier responder ocspIssuer ∧
      (∀ requiredEkus, (responderProfile 1800000000).requiredLeafEku = some requiredEkus →
        oidKpOcspSigning ∈ requiredEkus →
        ∃ extension ekus, findExtension responder oidExtendedKeyUsage = some extension ∧
          ekuCodec.extendedKeyUsage extension.extnValue = some ekus ∧ oidKpOcspSigning ∈ ekus) ∧
      InnerChecked firstSerialOnly anchor (responder :: rest) (hasOcspNoCheck responder) := by
  have verified : verifyOcspResponder ekuCodec keyCopyVerifier [exemptResponder, ocspIssuer]
      rootAnchors ocspIssuer responderProfile 1800000000 keyCopyVerifier firstSerialOnly
      noAiaFetcher = .ok (validatedPath [exemptResponder, ocspIssuer] exemptResponder 0 none) := by
    decide +kernel
  exact verifyOcspResponder_sound verified

/-- Under a profile that does not require the key usage a responder without it passes. -/
theorem plainResponder_accepted :
    (verifyOcspResponder ekuCodec keyCopyVerifier [ocspResponder [], ocspIssuer] rootAnchors
      ocspIssuer ValidationPolicy.new 1800000000 keyCopyVerifier acceptAll noAiaFetcher).isOk =
        true ∧
    findExtension (ocspResponder []) oidExtendedKeyUsage = none := by
  refine ⟨by decide +kernel, by decide⟩

end Concrete

end Pkix.Chain
