import Pkix.Path.ConcreteCodec
import Pkix.Path.WalkFacts

/-! Every link of a validated chain was checked against the issuer one position
up, or against the selected anchor. -/

namespace Pkix.Path

def signerKey (chain : List Certificate) (anchor : TrustAnchor) (index : Nat) :
    SubjectPublicKeyInfo :=
  match chain[index + 1]? with
  | some issuer => issuer.tbsCertificate.subjectPublicKeyInfo
  | none => anchor.subjectPublicKeyInfo

def signerName (chain : List Certificate) (anchor : TrustAnchor) (index : Nat) : Name :=
  match chain[index + 1]? with
  | some issuer => issuer.tbsCertificate.subject
  | none => anchor.subject

/-- An empty subject together with a critical SubjectAltName. -/
def IdentifiedBySan (cert : Certificate) : Prop :=
  cert.tbsCertificate.subject = [] ∧
    ∃ extension ∈ cert.extensions, extension.extnId = oidSubjectAltName ∧ extension.critical = true

structure LinkVerified (der : DerCodec) (policy : ValidationPolicy)
    (verifier : SignatureVerifier) (chain : List Certificate) (anchor : TrustAnchor)
    (index : Nat) (cert : Certificate) : Prop where
  signed : ∃ tbsBytes, der.encodeTbs cert.tbsCertificate = .ok tbsBytes ∧
    verifier cert.signatureAlgorithm (signerKey chain anchor index) tbsBytes
      cert.signature.rawBytes = true
  linked : namesMatch cert.tbsCertificate.issuer (signerName chain anchor index) = true ∨
    ∃ issuer, chain[index + 1]? = some issuer ∧ IdentifiedBySan issuer
  current : timeToUnixSecs cert.tbsCertificate.validity.notBefore ≤ policy.currentTimeUnix ∧
    policy.currentTimeUnix ≤ timeToUnixSecs cert.tbsCertificate.validity.notAfter
  handled : ∀ extension ∈ cert.extensions, extension.critical = true →
    extension.extnId ∈ handledCriticalOids
  caFlag : 0 < index → ∃ extension constraints,
    findExtension cert oidBasicConstraints = some extension ∧
    der.basicConstraints extension.extnValue = some constraints ∧ constraints.ca = true
  certSign : 0 < index → policy.enforceKeyUsage = true →
    ∀ extension, findExtension cert oidKeyUsage = some extension →
      ∃ usage, der.keyUsage extension.extnValue = some usage ∧ usage.keyCertSign = true

section Binding

variable {der : DerCodec} {policy : ValidationPolicy} {verifier : SignatureVerifier}
variable {chain : List Certificate}

/-- The working issuer is the certificate checked last, the anchor before any. -/
structure IssuerBound (anchor : TrustAnchor) (above : List Certificate)
    (state : WorkingState) : Prop where
  key : state.issuer.workingSpki = match above.getLast? with
    | some issuer => issuer.tbsCertificate.subjectPublicKeyInfo
    | none => anchor.subjectPublicKeyInfo
  name : state.issuer.workingIssuerName = match above.getLast? with
    | some issuer => issuer.tbsCertificate.subject
    | none => anchor.subject
  identity : state.issuer.workingIssuerIsSanIdentity = match above.getLast? with
    | some issuer => certHasSanIdentity issuer
    | none => false

theorem certHasSanIdentity_iff (cert : Certificate) :
    certHasSanIdentity cert = true ↔ IdentifiedBySan cert := by
  unfold certHasSanIdentity IdentifiedBySan
  cases cert.tbsCertificate.subject <;> simp

theorem issuerBound_step {anchor : TrustAnchor} {above below : List Certificate}
    {cert : Certificate} {state next : WorkingState}
    (stepped : certStep der policy verifier chain cert below state = .ok next) :
    IssuerBound anchor (above ++ [cert]) next := by
  obtain ⟨_, _, updated, _, _, _, _, _, _, _, rfl⟩ := certStep_ok_iff.mp stepped
  constructor <;> simp [issuerOf]

theorem getLast_drop_reverse {index : Nat} :
    (chain.drop (index + 1)).reverse.getLast? = chain[index + 1]? := by
  rw [List.getLast?_reverse, List.head?_drop]

theorem verifyCertSignature_ok {cert : Certificate} {index : Nat}
    {spki : SubjectPublicKeyInfo}
    (verified : verifyCertSignature der cert index spki verifier = .ok ()) :
    ∃ tbsBytes, der.encodeTbs cert.tbsCertificate = .ok tbsBytes ∧
      verifier cert.signatureAlgorithm spki tbsBytes cert.signature.rawBytes = true := by
  unfold verifyCertSignature at verified
  cases encoded : der.encodeTbs cert.tbsCertificate with
  | error failure => simp [encoded] at verified
  | ok tbsBytes =>
      rw [encoded] at verified
      exact ⟨tbsBytes, rfl, requireThat_ok_iff.mp verified⟩

theorem checkCa_caFlag {cert : Certificate} {index : Nat}
    (checked : checkCa der policy cert index chain = .ok ()) :
    ∃ extension constraints, findExtension cert oidBasicConstraints = some extension ∧
      der.basicConstraints extension.extnValue = some constraints ∧ constraints.ca = true := by
  obtain ⟨constraints, found, checked⟩ := Walk.bind_ok.mp checked
  obtain ⟨flagged, _⟩ := Walk.then_ok.mp checked
  rw [requireThat_ok_iff] at flagged
  cases constraints with
  | none => simp at flagged
  | some constraints =>
      obtain ⟨extension, located, decoded⟩ := tryFindCertExt_some_iff.mp found
      exact ⟨extension, constraints, located, decoded, by simpa using flagged⟩

theorem checkCa_certSign {cert : Certificate} {index : Nat}
    (checked : checkCa der policy cert index chain = .ok ())
    (enforced : policy.enforceKeyUsage = true) (extension : Extension)
    (located : findExtension cert oidKeyUsage = some extension) :
    ∃ usage, der.keyUsage extension.extnValue = some usage ∧ usage.keyCertSign = true := by
  obtain ⟨_, _, checked⟩ := Walk.bind_ok.mp checked
  obtain ⟨_, checked⟩ := Walk.then_ok.mp checked
  obtain ⟨usageChecked, _⟩ := Walk.then_ok.mp checked
  rw [checkKeyCertSign, if_pos enforced] at usageChecked
  obtain ⟨bit, extracted, allowed⟩ := Walk.bind_ok.mp usageChecked
  obtain ⟨found, decoded, same⟩ := Walk.bind_ok.mp extracted
  rw [requireThat_ok_iff, bne_iff_ne] at allowed
  cases found with
  | none =>
      obtain ⟨_, _, present⟩ := tryFindCertExt_first located decoded
      cases present
  | some usage =>
      obtain ⟨first, sameExt, decoded⟩ := tryFindCertExt_some_iff.mp decoded
      rw [located] at sameExt
      cases sameExt
      refine ⟨usage, decoded, ?_⟩
      rw [← Walk.pure_ok.mp same] at allowed
      simpa using allowed

theorem linkVerified_of_step {anchor : TrustAnchor} {index : Nat} {cert : Certificate}
    {state next : WorkingState} (located : chain[index]? = some cert)
    (bound : IssuerBound anchor (chain.drop (index + 1)).reverse state)
    (stepped : certStep der policy verifier chain cert (chain.take index).reverse state =
      .ok next) :
    LinkVerified der policy verifier chain anchor index cert := by
  obtain ⟨policies, san, updated, checked, _, _, _, _, _, advanced, _⟩ :=
    certStep_ok_iff.mp stepped
  rw [take_reverse_length located] at checked advanced
  obtain ⟨_, verified, linkage, valid, _, _, critical⟩ := certChecks_ok_iff.mp checked
  have ca (inner : 0 < index) : checkCa der policy cert index chain = .ok () := by
    obtain ⟨_, _, caChecked, _⟩ := (caStep_ca_iff (by omega)).mp advanced
    exact caChecked
  refine ⟨?_, ?_, ?_, ?_, fun inner => checkCa_caFlag (ca inner),
    fun inner enforced => checkCa_certSign (ca inner) enforced⟩
  · have key := bound.key
    rw [getLast_drop_reverse] at key
    rw [key] at verified
    exact verifyCertSignature_ok verified
  · rw [checkIssuerLinkage, requireThat_ok_iff, Bool.or_eq_true] at linkage
    have name := bound.name
    have identity := bound.identity
    rw [getLast_drop_reverse] at name identity
    rcases linkage with skipped | matched
    · rw [identity] at skipped
      cases above : chain[index + 1]? with
      | none => simp [above] at skipped
      | some issuer =>
          rw [above] at skipped
          exact .inr ⟨issuer, rfl, (certHasSanIdentity_iff issuer).mp skipped⟩
    · rw [name] at matched
      exact .inl (namesMatch_symm matched)
  · simpa [checkValidity] using valid
  · intro extension member flagged
    rw [checkCriticalExtensions, requireThat_ok_iff, List.all_eq_true] at critical
    simpa [flagged] using critical extension member

theorem linkVerified_of_walk {leaf : Certificate} {anchor : TrustAnchor}
    {tree : Option PolicyTree}
    (walked : chainWalk der policy verifier chain leaf anchor = .ok tree) (index : Nat)
    (cert : Certificate) (located : chain[index]? = some cert) :
    LinkVerified der policy verifier chain anchor index cert := by
  obtain ⟨final, finished, _⟩ := chainWalk_ok_iff.mp walked
  obtain ⟨state, next, bound, stepped⟩ :=
    reverse_walk_visits (fun above _ state => IssuerBound anchor above state)
      (fun _ _ _ _ _ _ stepped => issuerBound_step stepped)
      ⟨rfl, rfl, rfl⟩ finished located
  exact linkVerified_of_step located bound stepped

end Binding

/-- Every certificate of a validated chain passed its checks against the key and
the name of the certificate above it, the topmost against the selected anchor. -/
theorem validatePath_links_verified (der : DerCodec) (policy : ValidationPolicy)
    (verifier : SignatureVerifier) (chain : List Certificate) (anchors : List TrustAnchor)
    (path : ValidatedPath)
    (accepted : validatePath der policy verifier chain anchors = .ok path) :
    ∃ anchor, anchors[path.anchorIndex]? = some anchor ∧
      ∀ index cert, chain[index]? = some cert →
        LinkVerified der policy verifier chain anchor index cert := by
  obtain ⟨leaf, lastCert, anchor, tree, _, _, selected, _, walked, _⟩ := validatePath_ok accepted
  exact ⟨anchor, selected, linkVerified_of_walk walked⟩

section Example

open Concrete

private def linkedChain : List Certificate :=
  [issue 2 (commonName [66]) (commonName [67]) [4, 5] [6] [],
   issue 1 (commonName [65]) (commonName [66]) [1, 2, 3] [4, 5] [caExtension]]

private def linkedAnchors : List TrustAnchor := [anchorNamed (commonName [65]) [1, 2, 3] none]

theorem validatePath_links_verified_example :
    ∃ path anchor, validatePath (tableCodec { basicConstraints := caTable })
        (.new 1800000000) keyCopyVerifier linkedChain linkedAnchors = .ok path ∧
      linkedAnchors[path.anchorIndex]? = some anchor ∧
      ∀ index cert, linkedChain[index]? = some cert →
        LinkVerified (tableCodec { basicConstraints := caTable }) (.new 1800000000)
          keyCopyVerifier linkedChain anchor index cert := by
  have accepted : validatePath (tableCodec { basicConstraints := caTable })
      (.new 1800000000) keyCopyVerifier linkedChain linkedAnchors =
        .ok (validatedPath linkedChain
          (issue 2 (commonName [66]) (commonName [67]) [4, 5] [6] []) 0 none) := by
    decide +kernel
  obtain ⟨anchor, selected, links⟩ := validatePath_links_verified _ _ _ _ _ _ accepted
  exact ⟨_, anchor, accepted, selected, links⟩

end Example

end Pkix.Path
