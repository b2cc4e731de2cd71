import Pkix.Chain.VerifySoundness
import Pkix.RevocationHttp.CrlFetcher
import Pkix.RevocationHttp.OcspFetcher

/-! Chains verified against the CRLs and the OCSP responses that their certificates advertise,
fetched from whoever answers. -/

namespace Pkix.Chain

open Pkix.Path Pkix.Revocation Pkix.RevocationHttp

namespace Verifier

variable {der : ChainCodec} {self : Verifier} {supplied : List Certificate}
variable {validated : ValidatedPath}

/-- The chain whose revocation is checked: the one supplied, or what it is reassembled to. -/
def Follows (der : ChainCodec) (self : Verifier) (supplied chain : List Certificate) : Prop :=
  (∃ direct, self.validate der supplied = .ok direct ∧ chain = supplied) ∨
    ∃ failure, self.validate der supplied = .error failure ∧ isAiaRecoverable failure = true ∧
      self.buildWithAia der supplied = .ok chain

theorem follows_of_verifyOne (verified : self.verifyOne der supplied = .ok validated) :
    ∃ chain, self.Follows der supplied chain ∧ Upheld der self chain validated := by
  unfold verifyOne at verified
  split at verified
  · next direct accepted =>
      rcases (checked_ok_iff accepted).mp verified with ⟨same, upheld⟩
      subst same
      exact ⟨supplied, .inl ⟨validated, accepted, rfl⟩, upheld⟩
  · next failure rejected =>
      split at verified
      · next recoverable =>
          rcases Walk.bind_ok.mp verified with ⟨built, reassembled, finished⟩
          split at finished
          · next rebuilt accepted =>
              rcases (checked_ok_iff accepted).mp finished with ⟨same, upheld⟩
              subst same
              exact ⟨built, .inr ⟨failure, rejected, recoverable, reassembled⟩, upheld⟩
          · cases finished
      · cases verified

/-- A verdict is that of one chain, and the revocation checker has no part in finding it. -/
theorem verifyOne_ok_iff :
    self.verifyOne der supplied = .ok validated ↔
      ∃ chain, self.Follows der supplied chain ∧ Upheld der self chain validated := by
  constructor
  · exact follows_of_verifyOne
  intro ⟨chain, followed, upheld⟩
  have passes {result : ValidatedPath} (accepted : self.validate der chain = .ok result) :
      self.checked der chain result accepted = .ok validated := by
    have same : validated = result := Except.ok.inj (upheld.validates.symm.trans accepted)
    subst same
    exact (checked_ok_iff accepted).mpr ⟨rfl, upheld⟩
  unfold verifyOne
  rcases followed with ⟨direct, accepted, same⟩ | ⟨failure, rejected, recoverable, reassembled⟩
  · subst same
    split
    · next result again => exact passes again
    · next failure rejected => simp [accepted] at rejected
  · split
    · next result accepted => simp [rejected] at accepted
    · next again sameFailure =>
        have same : again = failure := Except.error.inj (sameFailure.symm.trans rejected)
        rw [same, if_pos recoverable, reassembled]
        apply Walk.bind_ok.mpr
        refine ⟨chain, rfl, ?_⟩
        split
        · next result again => exact passes again
        · next failure refused => simp [upheld.validates] at refused

end Verifier

section Links

variable {der : ChainCodec} {chain : List Certificate} {anchors : List TrustAnchor}
variable {policy : ValidationPolicy} {verifier : SignatureVerifier} {aia : AiaFetcher}
variable {validated : ValidatedPath}

/-- The fetchers leave the check against the anchor at its default. -/
def linkChecker (check : Certificate → Certificate → Revocation.Result Unit) :
    RevocationChecker :=
  { checkRevocation := check
    checkRevocationAgainstAnchor := fun _ _ => .ok () }

/-- Every certificate of the chain below another one stands in the relation to it. -/
def EachLink (holds : Certificate → Certificate → Prop) (chain : List Certificate) : Prop :=
  ∀ index cert issuer, chain[index]? = some cert → chain[index + 1]? = some issuer →
    holds cert issuer

theorem verifyChain_links_iff {check : Certificate → Certificate → Revocation.Result Unit} :
    verifyChain der chain anchors policy verifier (linkChecker check) aia = .ok validated ↔
      ∃ followed, Verifier.Follows der ⟨anchors, verifier, linkChecker check, policy, aia⟩ chain
          followed ∧
        validatePath der.toDerCodec policy verifier followed anchors = .ok validated ∧
        EachLink (fun cert issuer => check cert issuer = .ok ()) followed := by
  unfold verifyChain
  rw [Verifier.verifyOne_ok_iff]
  apply exists_congr
  intro followed
  apply and_congr_right
  intro _
  constructor
  · intro upheld
    rcases upheld.unrevoked with ⟨_, _, checked⟩
    exact ⟨upheld.validates, checked.againstIssuer⟩
  · intro ⟨validates, links⟩
    refine ⟨validates, ?_⟩
    have inRange := anchorIndex_lt validates
    exact ⟨_, List.getElem?_eq_getElem inRange, links, fun _ _ => rfl⟩

theorem EachLink.congr {holds holds' : Certificate → Certificate → Prop}
    (same : ∀ cert issuer, holds cert issuer ↔ holds' cert issuer) :
    EachLink holds chain ↔ EachLink holds' chain := by
  unfold EachLink
  simp only [same]

end Links

section Fetched

variable {der : ChainCodec} {chain : List Certificate} {anchors : List TrustAnchor}
variable {policy : ValidationPolicy} {verifier : SignatureVerifier} {aia : AiaFetcher}
variable {validated : ValidatedPath}

/-- The certificate advertises no CRL, or the first one that is fetched for it vouches for it. -/
def VouchedFor (der : CrlCodec) (fetcher : HttpCrlFetcher) (cert issuer : Certificate) : Prop :=
  ∃ urls, extractCdpHttpUrls der cert = .ok urls ∧
    (urls = [] ∨ FirstCrlVouches der fetcher cert issuer urls)

/-- Whatever the network returns, a chain is accepted with CRLs fetched on the way exactly when
the followed chain validates and every link of it is vouched for. -/
theorem verifyChain_fetchedCrls {crlDer : CrlCodec} {encodeName : Name → Except DerError Bytes}
    {describe : Revocation.Error → String} {fetcher : HttpCrlFetcher} :
    verifyChain der chain anchors policy verifier
        (linkChecker (fetcher.checkRevocation (pointsCodec crlDer encodeName describe))) aia =
        .ok validated ↔
      ∃ followed, Verifier.Follows der ⟨anchors, verifier,
          linkChecker (fetcher.checkRevocation (pointsCodec crlDer encodeName describe)), policy,
          aia⟩ chain followed ∧
        validatePath der.toDerCodec policy verifier followed anchors = .ok validated ∧
        EachLink (VouchedFor crlDer fetcher) followed := by
  have link (cert issuer : Certificate) :
      fetcher.checkRevocation (pointsCodec crlDer encodeName describe) cert issuer = .ok () ↔
        VouchedFor crlDer fetcher cert issuer := by
    rw [crlFetcher_ok_iff]
    simp only [pointsCodec_urls]
    rfl
  rw [verifyChain_links_iff]
  simp only [EachLink.congr link]

/-- A request can be built for the certificate, and it advertises no responder or the first
response that is fetched attests to it. -/
def AttestedTo (der : OcspHttpCodec) (fetcher : HttpOcspFetcher) (cert issuer : Certificate) :
    Prop :=
  ∃ body urls, buildOcspRequest der (fetcher.query cert issuer) = .ok body ∧
    extractAiaHttpUrls der cert = .ok urls ∧
    (urls = [] ∨ FirstResponseAttests der fetcher cert issuer body urls)

/-- Whatever the network returns, a chain is accepted with OCSP responses fetched on the way
exactly when the followed chain validates and every link of it is attested to. -/
theorem verifyChain_fetchedOcsp {ocspDer : OcspHttpCodec} {fetcher : HttpOcspFetcher} :
    verifyChain der chain anchors policy verifier
        (linkChecker (fetcher.checkRevocation ocspDer)) aia = .ok validated ↔
      ∃ followed, Verifier.Follows der ⟨anchors, verifier,
          linkChecker (fetcher.checkRevocation ocspDer), policy, aia⟩ chain followed ∧
        validatePath der.toDerCodec policy verifier followed anchors = .ok validated ∧
        EachLink (AttestedTo ocspDer fetcher) followed := by
  have link (cert issuer : Certificate) :
      fetcher.checkRevocation ocspDer cert issuer = .ok () ↔
        AttestedTo ocspDer fetcher cert issuer :=
    ocspFetcher_ok_iff
  rw [verifyChain_links_iff]
  simp only [EachLink.congr link]

end Fetched

end Pkix.Chain
