import Pkix.Revocation.OcspExactness
import Pkix.RevocationHttp.OcspCache

/-! Responses fetched from the OCSP responders of a certificate: the responders are asked in turn,
and the first response that parses decides. -/

namespace Pkix.RevocationHttp

open Pkix.Path Pkix.Revocation ReadThrough

/-- No two requests need be answered alike. -/
structure HttpOcspFetcher where
  fetch : (cert issuer : Certificate) → OcspNetwork
  verifier : SignatureVerifier
  nowUnix : Nat
  hashAlg : OcspHashAlg

def HttpOcspFetcher.query (fetcher : HttpOcspFetcher) (cert issuer : Certificate) : OcspQuery :=
  { cert, issuer, nowUnix := fetcher.nowUnix, verifier := fetcher.verifier
    hashAlg := fetcher.hashAlg }

def HttpOcspFetcher.checkRevocation (der : OcspHttpCodec) (fetcher : HttpOcspFetcher)
    (cert issuer : Certificate) : Revocation.Result Unit :=
  uncachedOcsp der (fetcher.fetch cert issuer) (fetcher.query cert issuer)

section Fetcher

variable {der : OcspHttpCodec} {fetcher : HttpOcspFetcher} {cert issuer : Certificate}

/-- A request that fails or is answered with something that is no response. -/
def UnusableResponse (der : OcspHttpCodec) (answer : Except String Bytes) : Prop :=
  ∀ bytes basic, answer = .ok bytes → parseBasicResponse der.toOcspCodec bytes ≠ .ok basic

/-- The first of the responders that answers with a response answers with one that attests to
the certificate. -/
def FirstResponseAttests (der : OcspHttpCodec) (fetcher : HttpOcspFetcher)
    (cert issuer : Certificate) (body : Bytes) (urls : List String) : Prop :=
  ∃ before url after bytes basic, urls = before ++ url :: after ∧
    (∀ position skipped, before[position]? = some skipped →
      UnusableResponse der (fetcher.fetch cert issuer position skipped body)) ∧
    fetcher.fetch cert issuer before.length url body = .ok bytes ∧
    parseBasicResponse der.toOcspCodec bytes = .ok basic ∧
    namesMatch issuer.tbsCertificate.subject cert.tbsCertificate.issuer = true ∧
    Attests der.toOcspCodec { basic, nowUnix := fetcher.nowUnix, verifier := fetcher.verifier }
      cert issuer.tbsCertificate.subject issuer.tbsCertificate.subjectPublicKeyInfo

theorem buildOcspChecker_ok_iff {query : OcspQuery} {bytes : Bytes} {checker : OcspChecker} :
    buildOcspChecker der query bytes = .ok checker ↔
      ∃ basic, parseBasicResponse der.toOcspCodec bytes = .ok basic ∧
        checker = { basic, nowUnix := query.nowUnix, verifier := query.verifier } := by
  simp only [buildOcspChecker, OcspChecker.new, Walk.bind_ok, Walk.pure_ok,
    eq_comm (a := checker)]

theorem ocspSources_skips_iff {network : OcspNetwork} {query : OcspQuery} {body : Bytes}
    {attempt : Nat} {url : String} :
    (ocspSources der network query body).Skips attempt url ↔
      UnusableResponse der (network attempt url body) := by
  constructor
  · intro skips bytes basic fetched parsed
    exact skips bytes _ fetched (buildOcspChecker_ok_iff.mpr ⟨basic, parsed, rfl⟩)
  · intro unusable bytes checker fetched accepted
    rcases buildOcspChecker_ok_iff.mp accepted with ⟨basic, parsed, _⟩
    exact unusable bytes basic fetched parsed

theorem ocspVerdict_ok_iff {query : OcspQuery} {checker : OcspChecker} :
    ocspVerdict der query checker = .ok () ↔
      namesMatch query.issuer.tbsCertificate.subject query.cert.tbsCertificate.issuer = true ∧
        Attests der.toOcspCodec checker query.cert query.issuer.tbsCertificate.subject
          query.issuer.tbsCertificate.subjectPublicKeyInfo := by
  simp only [ocspVerdict, OcspChecker.checkRevocation, Walk.then_ok, Revocation.requireThat_ok_iff,
    checkResponse_ok_iff]

theorem ocspOutcome_ok_iff {body : Bytes} {urls : List String} :
    ocspOutcome der (fetcher.query cert issuer) urls
        ((ocspSources der (fetcher.fetch cert issuer) (fetcher.query cert issuer) body).poll 0 urls
          []) = .ok () ↔
      FirstResponseAttests der fetcher cert issuer body urls := by
  have lost (left : List String) : allRespondersFailed urls left ≠ .ok () := by
    simp [allRespondersFailed, ocspFetchFailed]
  rw [ocspOutcome, conclude_poll_iff lost]
  simp only [Nat.zero_add, ocspSources_skips_iff]
  constructor
  · intro ⟨before, url, after, bytes, checker, split, skipped, fetched, accepted, passed⟩
    rcases buildOcspChecker_ok_iff.mp accepted with ⟨basic, parsed, rfl⟩
    rcases ocspVerdict_ok_iff.mp passed with ⟨named, attests⟩
    exact ⟨before, url, after, bytes, basic, split, skipped, fetched, parsed, named, attests⟩
  · intro ⟨before, url, after, bytes, basic, split, skipped, fetched, parsed, named, attests⟩
    exact ⟨before, url, after, bytes, _, split, skipped, fetched,
      buildOcspChecker_ok_iff.mpr ⟨basic, parsed, rfl⟩,
      ocspVerdict_ok_iff.mpr ⟨named, attests⟩⟩

/-- The fetcher passes a certificate exactly when a request for it can be built and it advertises
no responder, or the first response that is fetched for it attests to it. -/
theorem ocspFetcher_ok_iff :
    fetcher.checkRevocation der cert issuer = .ok () ↔
      ∃ body urls, buildOcspRequest der (fetcher.query cert issuer) = .ok body ∧
        extractAiaHttpUrls der cert = .ok urls ∧
        (urls = [] ∨ FirstResponseAttests der fetcher cert issuer body urls) := by
  have sameCert : (fetcher.query cert issuer).cert = cert := rfl
  unfold HttpOcspFetcher.checkRevocation uncachedOcsp
  rw [sameCert]
  cases buildOcspRequest der (fetcher.query cert issuer) with
  | error failure => simp [ocspFetchFailed]
  | ok body =>
      cases extractAiaHttpUrls der cert with
      | error failure => simp [ocspFetchFailed]
      | ok urls =>
          simp only [Except.ok.injEq, exists_and_left, exists_eq_left']
          cases urls with
          | nil => simp
          | cons first rest =>
              rw [or_iff_right (List.cons_ne_nil first rest)]
              exact ocspOutcome_ok_iff

end Fetcher

end Pkix.RevocationHttp
