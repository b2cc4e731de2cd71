import Pkix.Revocation.StaleDelta
import Pkix.RevocationHttp.CrlCalls
import Pkix.RevocationHttp.OcspCache

/-! CRLs fetched from the distribution points of a certificate: the URLs are asked in turn, and the
first CRL that parses decides. -/

namespace Pkix.RevocationHttp

open Pkix.Path Pkix.Revocation ReadThrough

/-- No two requests need be answered alike. -/
structure HttpCrlFetcher where
  fetch : (cert issuer : Certificate) → CrlNetwork
  verifier : SignatureVerifier
  nowUnix : Nat

section Extraction

variable (der : CrlCodec)

def httpUri : GeneralName → Option String
  | .uniformResourceIdentifier uri => if isHttpUri uri.bytes then some (asStr uri.bytes) else none
  | _ => none

/-- A name relative to the CRL issuer and a point without a name give no URL. -/
def pointUrls (point : DistributionPoint) : List String :=
  match point.distributionPoint with
  | some (.fullName names) => names.filterMap httpUri
  | some (.nameRelativeToCrlIssuer _) => []
  | none => []

def extractCdpHttpUrls (cert : Certificate) : Except DerError (List String) :=
  match findIn cert.extensions oidCrlDistributionPoints with
  | none => .ok []
  | some extension =>
      (der.crlDistributionPoints extension.extnValue).map (List.flatMap pointUrls)

/-- The codec of a fetcher that reads the distribution points itself. -/
def pointsCodec (encodeName : Name → Except DerError Bytes)
    (describe : Revocation.Error → String) : HttpCodec :=
  { der with
    encodeName
    extractCdpHttpUrls := fun cert => (extractCdpHttpUrls der cert).mapError
      (fun failure => "extension DER decode error: " ++ failure.message)
    describe }

variable {der} in
theorem pointsCodec_urls {encodeName : Name → Except DerError Bytes}
    {describe : Revocation.Error → String} {cert : Certificate} {urls : List String} :
    (pointsCodec der encodeName describe).extractCdpHttpUrls cert = .ok urls ↔
      extractCdpHttpUrls der cert = .ok urls := by
  simp only [pointsCodec]
  cases extractCdpHttpUrls der cert <;> simp [Except.mapError]

end Extraction

/-- The uncached call reads nothing of the cache's handle. -/
def HttpCrlFetcher.request (fetcher : HttpCrlFetcher) (cert issuer : Certificate) : Request :=
  { cert, issuer, nowUnix := fetcher.nowUnix, verifier := fetcher.verifier, handle := .inMemory }

def HttpCrlFetcher.checkRevocation (der : HttpCodec) (fetcher : HttpCrlFetcher)
    (cert issuer : Certificate) : Revocation.Result Unit :=
  uncachedCrl der (fetcher.fetch cert issuer) (fetcher.request cert issuer)

section Verdicts

/-- The CRL is the issuer's own, in force, about certificates like this one, and does not list
it. -/
structure Vouches (der : CrlCodec) (verifier : SignatureVerifier) (nowUnix : Nat)
    (crl : CertificateList) (cert issuer : Certificate) : Prop where
  signed : ∃ tbsBytes, der.encodeTbsCertList crl.tbsCertList = .ok tbsBytes ∧
    verifier crl.signatureAlgorithm issuer.tbsCertificate.subjectPublicKeyInfo tbsBytes
      crl.signature.rawBytes = true
  current : timeToUnixSecs crl.tbsCertList.thisUpdate ≤ nowUnix ∧ ∃ nextUpdate,
    crl.tbsCertList.nextUpdate = some nextUpdate ∧ nowUnix ≤ timeToUnixSecs nextUpdate
  named : namesMatch crl.tbsCertList.issuer issuer.tbsCertificate.subject = true
  issued : namesMatch issuer.tbsCertificate.subject cert.tbsCertificate.issuer = true
  mayIssue : checkCrlSign der issuer = .ok ()
  scope : ∃ idp, parseIssuingDp der crl = .ok idp ∧ declaresIndirect idp = false ∧
    checkScope der cert idp issuer.tbsCertificate.subject = .ok ()
  unlisted : ∀ entry ∈ crl.entries, entry.serialNumber ≠ cert.tbsCertificate.serialNumber

variable {der : CrlCodec} {verifier : SignatureVerifier} {nowUnix : Nat} {crl : CertificateList}
variable {cert issuer : Certificate}

theorem verifyCrlSignature_ok_iff {key : SubjectPublicKeyInfo} :
    verifyCrlSignature der verifier crl key = .ok () ↔
      ∃ tbsBytes, der.encodeTbsCertList crl.tbsCertList = .ok tbsBytes ∧
        verifier crl.signatureAlgorithm key tbsBytes crl.signature.rawBytes = true := by
  simp only [verifyCrlSignature, Walk.bind_ok, orCrlParseError_ok_iff,
    Revocation.requireThat_ok_iff]

theorem checkCrlWindow_ok_iff :
    checkCrlWindow nowUnix crl = .ok () ↔
      timeToUnixSecs crl.tbsCertList.thisUpdate ≤ nowUnix ∧ ∃ nextUpdate,
        crl.tbsCertList.nextUpdate = some nextUpdate ∧ nowUnix ≤ timeToUnixSecs nextUpdate := by
  rw [checkCrlWindow, Walk.then_ok, Revocation.requireThat_ok_iff, decide_eq_true_iff]
  apply and_congr_right
  intro _
  cases crl.tbsCertList.nextUpdate <;> simp

/-- The checker of a single CRL, as `CrlChecker::new` leaves it. -/
def plainChecker (verifier : SignatureVerifier) (nowUnix : Nat) (crl : CertificateList) :
    CrlChecker :=
  { crl, deltaCrl := none, crlIssuerCert := none, signerDiscovered := false, nowUnix, verifier }

theorem new_ok_iff {bytes : Bytes} {checker : CrlChecker} :
    CrlChecker.new der nowUnix verifier bytes = .ok checker ↔
      ∃ crl, der.certificateList bytes = .ok crl ∧ checker = plainChecker verifier nowUnix crl := by
  simp only [CrlChecker.new, Walk.bind_ok, orCrlParseError_ok_iff, Walk.pure_ok, plainChecker,
    eq_comm (a := checker)]

/-- A checker of one CRL passes a certificate exactly when the CRL vouches for it. -/
theorem plainChecker_ok_iff :
    checkRevocation der (plainChecker verifier nowUnix crl) cert issuer = .ok () ↔
      Vouches der verifier nowUnix crl cert issuer := by
  have noIssuer : (plainChecker verifier nowUnix crl).crlIssuerCert = none := rfl
  have unlisted (covered : namesMatch crl.tbsCertList.issuer cert.tbsCertificate.issuer = true) :
      lookup der (plainChecker verifier nowUnix crl) cert crl.entries = .ok none ↔
        ∀ entry ∈ crl.entries, entry.serialNumber ≠ cert.tbsCertificate.serialNumber := by
    rw [lookup_direct noIssuer, Except.ok.injEq, List.find?_eq_none]
    simp [isEntryFor, plainChecker, covered]
  rw [checkRevocation_ok_iff]
  constructor
  · intro passed
    rcases passed with ⟨idp, signer, admits, tail⟩
    rcases selectSigner_ok_iff.mp admits.selected with ⟨_, stored, _⟩ | ⟨_, direct, same⟩
    · cases stored
    subst same
    rcases (checkAgainstSigner_verdict_iff (by decide)).mp tail with
      ⟨window, signature, scope, entries, collected, status⟩
    have empty : entries = [] := (collectDeltaEntries_ok_iff.mp collected).2
    subst empty
    have covered := namesMatch_trans admits.signerNamed admits.issuerNamed
    rcases (checkRevocationStatusIndirect_verdict_iff (by decide)).mp status with
      ⟨_, listed, _⟩ | ⟨_, found, looked, verdict⟩
    · cases listed
    cases found with
    | some entry => cases verdict
    | none =>
        exact
          { signed := verifyCrlSignature_ok_iff.mp signature
            current := checkCrlWindow_ok_iff.mp window
            named := admits.signerNamed
            issued := admits.issuerNamed
            mayIssue := admits.crlSign
            scope := ⟨idp, admits.parsed, direct, scope⟩
            unlisted := (unlisted covered).mp looked }
  · intro vouches
    rcases vouches.scope with ⟨idp, parsed, direct, scope⟩
    have covered := namesMatch_trans vouches.named vouches.issued
    refine ⟨idp, certSigner issuer, ⟨parsed, ?_, vouches.named, vouches.issued, ?_,
      vouches.mayIssue⟩, ?_⟩
    · exact selectSigner_ok_iff.mpr (.inr ⟨rfl, direct, rfl⟩)
    · rw [noIssuer, namesMatch_comm]
      exact covered
    · apply (checkAgainstSigner_verdict_iff (by decide)).mpr
      refine ⟨checkCrlWindow_ok_iff.mpr vouches.current,
        verifyCrlSignature_ok_iff.mpr vouches.signed, scope, [], rfl, ?_⟩
      apply (checkRevocationStatusIndirect_verdict_iff (by decide)).mpr
      exact .inr ⟨rfl, none, (unlisted covered).mpr vouches.unlisted, rfl⟩

end Verdicts

section Fetcher

variable {der : HttpCodec} {fetcher : HttpCrlFetcher} {cert issuer : Certificate}

/-- A request that fails or is answered with something that is no CRL. -/
def UnusableCrl (der : CrlCodec) (answer : Except String Bytes) : Prop :=
  ∀ bytes crl, answer = .ok bytes → der.certificateList bytes ≠ .ok crl

/-- The first of the URLs that is answered with a CRL is answered with one that vouches for the
certificate. -/
def FirstCrlVouches (der : CrlCodec) (fetcher : HttpCrlFetcher) (cert issuer : Certificate)
    (urls : List String) : Prop :=
  ∃ before url after bytes crl, urls = before ++ url :: after ∧
    (∀ position skipped, before[position]? = some skipped →
      UnusableCrl der (fetcher.fetch cert issuer position skipped)) ∧
    fetcher.fetch cert issuer before.length url = .ok bytes ∧
    der.certificateList bytes = .ok crl ∧
    Vouches der fetcher.verifier fetcher.nowUnix crl cert issuer

theorem buildChecker_ok_iff {request : Request} {bytes : Bytes} {checker : CrlChecker} :
    buildChecker der request bytes = .ok checker ↔
      ∃ crl, der.certificateList bytes = .ok crl ∧
        checker = plainChecker request.verifier request.nowUnix crl :=
  new_ok_iff

theorem crlSources_skips_iff {network : CrlNetwork} {request : Request} {attempt : Nat}
    {url : String} :
    (crlSources der network request).Skips attempt url ↔
      UnusableCrl der.toCrlCodec (network attempt url) := by
  constructor
  · intro skips bytes crl fetched parsed
    exact skips bytes _ fetched (buildChecker_ok_iff.mpr ⟨crl, parsed, rfl⟩)
  · intro unusable bytes checker fetched accepted
    rcases buildChecker_ok_iff.mp accepted with ⟨crl, parsed, _⟩
    exact unusable bytes crl fetched parsed

/-- The first URL that is answered with a CRL decides, by what that CRL says. -/
theorem crlOutcome_ok_iff {urls : List String} :
    crlOutcome der (fetcher.request cert issuer)
        ((crlSources der (fetcher.fetch cert issuer) (fetcher.request cert issuer)).poll 0 urls
          []) = .ok () ↔
      FirstCrlVouches der.toCrlCodec fetcher cert issuer urls := by
  have lost (left : List String) : allFailed der (fetcher.request cert issuer) left ≠ .ok () := by
    simp [allFailed, fetchFailed]
  rw [crlOutcome, conclude_poll_iff lost]
  simp only [Nat.zero_add, crlSources_skips_iff]
  constructor
  · intro ⟨before, url, after, bytes, checker, split, skipped, fetched, accepted, passed⟩
    rcases buildChecker_ok_iff.mp accepted with ⟨crl, parsed, rfl⟩
    exact ⟨before, url, after, bytes, crl, split, skipped, fetched, parsed,
      plainChecker_ok_iff.mp passed⟩
  · intro ⟨before, url, after, bytes, crl, split, skipped, fetched, parsed, vouches⟩
    exact ⟨before, url, after, bytes, _, split, skipped, fetched,
      buildChecker_ok_iff.mpr ⟨crl, parsed, rfl⟩, plainChecker_ok_iff.mpr vouches⟩

/-- The fetcher passes a certificate exactly when it advertises no URL, or the first CRL that is
fetched for it vouches for it. -/
theorem crlFetcher_ok_iff :
    fetcher.checkRevocation der cert issuer = .ok () ↔
      ∃ urls, der.extractCdpHttpUrls cert = .ok urls ∧
        (urls = [] ∨ FirstCrlVouches der.toCrlCodec fetcher cert issuer urls) := by
  have sameCert : (fetcher.request cert issuer).cert = cert := rfl
  unfold HttpCrlFetcher.checkRevocation uncachedCrl
  rw [sameCert]
  cases der.extractCdpHttpUrls cert with
  | error text => simp [fetchFailed]
  | ok urls =>
      simp only [Except.ok.injEq, exists_eq_left']
      cases urls with
      | nil => simp
      | cons first rest =>
          rw [or_iff_right (List.cons_ne_nil first rest)]
          exact crlOutcome_ok_iff

end Fetcher

end Pkix.RevocationHttp
