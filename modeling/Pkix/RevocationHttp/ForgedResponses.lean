import Pkix.RevocationHttp.CrlTransparency
import Pkix.RevocationHttp.OcspTransparency
import Pkix.RevocationHttp.RollbackGuard

/-! Responses are stored before they are verified. A forged one is never a determination, but
while it is live it keeps an honest one from being fetched. -/

namespace Pkix.RevocationHttp

open Pkix.Path
open Pkix.Revocation
open Pkix.ReadThrough

section Crl

variable {der : HttpCodec} {store : CrlStore}

/-- A determination from a CRL rests on the issuer's signature, and one without a CRL on a
certificate that names none. -/
structure CrlVerified (der : HttpCodec) (call : CrlCall) (answer : CrlAnswer) : Prop where
  signed : ∀ bytes checker, answer.reading.found (·.2.bytes) = some (bytes, checker) →
    verdict answer.outcome ≠ .undetermined →
    buildChecker der call.request bytes = .ok checker ∧
      checkCrlWindow call.request.nowUnix checker.crl = .ok () ∧
      verifyCrlSignature der.toCrlCodec call.request.verifier checker.crl
        call.request.issuer.tbsCertificate.subjectPublicKeyInfo = .ok ()
  unasked : answer.reading.found (·.2.bytes) = none → verdict answer.outcome ≠ .undetermined →
    der.extractCdpHttpUrls call.request.cert = .ok []

theorem buildChecker_ok {request : Request} {bytes : Bytes} {checker : CrlChecker}
    (built : buildChecker der request bytes = .ok checker) :
    checker.crlIssuerCert = none ∧ checker.nowUnix = request.nowUnix ∧
      checker.verifier = request.verifier := by
  rcases Walk.bind_ok.mp built with ⟨crl, _, made⟩
  rw [← Walk.pure_ok.mp made]
  exact ⟨rfl, rfl, rfl⟩

theorem cachedCrl_unasked {call : CrlCall}
    (given : (cachedCrl der call.network store call.request).1.reading.found (·.2.bytes) = none)
    (settled : verdict (cachedCrl der call.network store call.request).1.outcome ≠ .undetermined) :
    der.extractCdpHttpUrls call.request.cert = .ok [] := by
  unfold cachedCrl at given settled
  split at given
  · next text extracted =>
      rw [extracted] at settled
      exact absurd rfl settled
  · assumption
  · next urls _ extracted =>
      rw [extracted] at settled
      have gaveUp : ∃ notes, crlOutcome der call.request
          ((crlReader der call.network call.request).read 0 store urls []).1 =
          allFailed der call.request notes := Reading.conclude_none given
      rcases gaveUp with ⟨notes, isOutcome⟩
      cases urls with
      | nil => exact extracted
      | cons url urls =>
          dsimp only at settled
          rw [isOutcome] at settled
          exact absurd rfl settled

theorem cachedCrl_verified {call : CrlCall} :
    CrlVerified der call (cachedCrl der call.network store call.request).1 := by
  constructor
  · intro bytes checker given settled
    rcases cachedCrl_sound bytes checker given with ⟨built, isVerdict⟩
    rw [isVerdict] at settled
    rcases buildChecker_ok built with ⟨noIssuer, sameNow, sameVerifier⟩
    rcases crlVerdict_settled settled with ⟨_, signer, admits, window, verified⟩
    rcases selectSigner_ok_iff.mp admits.selected with ⟨stored, isStored, _⟩ | ⟨_, _, isDirect⟩
    · rw [noIssuer] at isStored
      cases isStored
    · rw [sameNow] at window
      rw [sameVerifier, isDirect] at verified
      exact ⟨built, window, verified⟩
  · exact cachedCrl_unasked

theorem serveCrl_at {forged earlier : List CrlCall} {call : CrlCall} {rest : List CrlCall}
    (current : CurrentCrl der (serveCrl der store forged).2 call)
    (steady : ∀ before ∈ earlier, SteadyCrl der before call) :
    ((serveCrl der store (forged ++ earlier ++ call :: rest)).1[(forged ++ earlier).length]?).map
        (fun answer => verdict answer.outcome) =
      some (verdict (uncachedCrl der call.network call.request)) := by
  have kept : CurrentCrl der (serveCrl der store (forged ++ earlier)).2 call := by
    rw [serveCrl, serve_append]
    exact serve_after (fun _ _ _ fromCall before => before.after fromCall) steady current
  rw [serveCrl, serve_at]
  exact congrArg some (cachedCrl_verdict kept)

end Crl

section Ocsp

variable {der : OcspHttpCodec} {store : OcspStore}

/-- A determination from a response rests on a signature for the issuer, and one without a
response on a certificate that names no responder. -/
structure OcspVerified (der : OcspHttpCodec) (call : OcspCall) (answer : OcspAnswer) : Prop where
  signed : ∀ bytes checker, answer.reading.found (·.bytes) = some (bytes, checker) →
    verdict answer.outcome ≠ .undetermined →
    buildOcspChecker der call.query bytes = .ok checker ∧
      checker.verifier = call.query.verifier ∧
      SignedForIssuer der.toOcspCodec checker call.query.issuer.tbsCertificate.subject
        call.query.issuer.tbsCertificate.subjectPublicKeyInfo
  unasked : answer.reading.found (·.bytes) = none → verdict answer.outcome ≠ .undetermined →
    extractAiaHttpUrls der call.query.cert = .ok []

theorem cachedOcsp_unasked {call : OcspCall}
    (given : (cachedOcsp der call.network store call.query).1.reading.found (·.bytes) = none)
    (settled : verdict (cachedOcsp der call.network store call.query).1.outcome ≠
      .undetermined) :
    extractAiaHttpUrls der call.query.cert = .ok [] := by
  unfold cachedOcsp at given settled
  cases built : buildOcspRequest der call.query with
  | error failure =>
      rw [built] at settled
      exact absurd rfl settled
  | ok body =>
      rw [built] at given settled
      dsimp only at given settled
      cases responders : extractAiaHttpUrls der call.query.cert with
      | error failure =>
          rw [responders] at settled
          exact absurd rfl settled
      | ok urls =>
          cases urls with
          | nil => rfl
          | cons url urls =>
              rw [responders] at given settled
              dsimp only at given settled
              cases identified : extractCertIdIdentity der body with
              | error failure =>
                  rw [identified] at settled
                  exact absurd rfl settled
              | ok identity =>
                  rw [identified] at given settled
                  have gaveUp : ∃ notes, ocspOutcome der call.query (url :: urls)
                      ((ocspReader der call.network call.query body identity).read 0 store
                        (url :: urls) []).1 = allRespondersFailed (url :: urls) notes :=
                    Reading.conclude_none given
                  rcases gaveUp with ⟨notes, isOutcome⟩
                  dsimp only at settled
                  rw [isOutcome] at settled
                  exact absurd rfl settled

theorem cachedOcsp_verified {call : OcspCall} :
    OcspVerified der call (cachedOcsp der call.network store call.query).1 := by
  constructor
  · intro bytes checker given settled
    rcases cachedOcsp_sound call.network call.query bytes checker given with ⟨built, isVerdict⟩
    rw [isVerdict] at settled
    exact ⟨built, (buildOcspChecker_ok built).2, (ocspVerdict_settled settled).1⟩
  · exact cachedOcsp_unasked

theorem serveOcsp_at (roundTrips : RoundTrips der) {forged earlier : List OcspCall}
    {call : OcspCall} {rest : List OcspCall}
    (current : CurrentFor der (serveOcsp der store forged).2 call)
    (steady : ∀ before ∈ earlier, Steady der before call) :
    ((serveOcsp der store (forged ++ earlier ++ call :: rest)).1[(forged ++ earlier).length]?).map
        (fun answer => verdict answer.outcome) =
      some (verdict (uncachedOcsp der call.network call.query)) := by
  have kept : CurrentFor der (serveOcsp der store (forged ++ earlier)).2 call := by
    rw [serveOcsp, serve_append]
    exact serve_after (fun _ _ _ fromCall before => before.after fromCall) steady current
  rw [serveOcsp, serve_at]
  exact congrArg some (cachedOcsp_verdict roundTrips kept)

end Ocsp

/-- After any calls, a later one has its verdict without the cache if nothing but what the
network now returns is live for it at the switch, and the answers since then stay what the
network returns while they are live. In every call, a determination rests on a verified
signature. -/
theorem honest_calls_after_forgeries (der : HttpCodec) (ocspDer : OcspHttpCodec)
    (roundTrips : RoundTrips ocspDer) :
    (∀ (store : CrlStore) (forged earlier : List CrlCall) (call : CrlCall) (rest : List CrlCall),
      CurrentCrl der (serveCrl der store forged).2 call →
      (∀ before ∈ earlier, SteadyCrl der before call) →
      ((serveCrl der store (forged ++ earlier ++ call :: rest)).1[(forged ++ earlier).length]?).map
          (fun answer => verdict answer.outcome) =
        some (verdict (uncachedCrl der call.network call.request))) ∧
    (∀ (store : OcspStore) (forged earlier : List OcspCall) (call : OcspCall)
      (rest : List OcspCall), CurrentFor ocspDer (serveOcsp ocspDer store forged).2 call →
      (∀ before ∈ earlier, Steady ocspDer before call) →
      ((serveOcsp ocspDer store
          (forged ++ earlier ++ call :: rest)).1[(forged ++ earlier).length]?).map
          (fun answer => verdict answer.outcome) =
        some (verdict (uncachedOcsp ocspDer call.network call.query))) ∧
    (∀ store calls, List.Forall₂ (CrlVerified der) calls (serveCrl der store calls).1) ∧
    (∀ store calls,
      List.Forall₂ (OcspVerified ocspDer) calls (serveOcsp ocspDer store calls).1) := by
  refine ⟨?_, ?_, ?_, ?_⟩
  · intro store forged earlier call rest current steady
    exact serveCrl_at current steady
  · intro store forged earlier call rest current steady
    exact serveOcsp_at roundTrips current steady
  · intro store calls
    exact serve_forall₂ (fun _ _ => cachedCrl_verified)
  · intro store calls
    exact serve_forall₂ (fun _ _ => cachedOcsp_verified)

namespace Forged

open Pkix.Path.Concrete
open Pkix.Revocation.Concrete

def honest : CertificateList := crlBy (commonName [65]) [1, 2, 3] [] []

/-- The certificate is revoked in the next CRL of the issuer. -/
def revoking : CertificateList := crlBy (commonName [65]) [1, 2, 3] [entryOf 2 []] []

/-- In the issuer's name, signed with another key. -/
def forged : CertificateList := crlBy (commonName [65]) [9] [] []

def expired : CertificateList :=
  { forged with tbsCertList := { forged.tbsCertList with nextUpdate := some june2026 } }

def codec : HttpCodec :=
  { crlCodec
      { basicConstraints := caTable, crls := [honest, revoking, forged, expired] } with
    encodeName := fun name => .ok (encodeName name)
    extractCdpHttpUrls := fun _ => .ok [Shared.url]
    describe := fun _ => "not usable" }

/-- A call while a CRL is at the distribution point. -/
def callOn (crl : CertificateList) : CrlCall :=
  { request := Shared.request .inMemory
    network := fun _ _ => .ok (encodeCertificateList crl) }

theorem callOn_steady (crl : CertificateList) : SteadyCrl codec (callOn crl) (callOn crl) :=
  fun _ _ _ _ _ _ _ answered _ _ _ => answered

/-- A call to a responder that returns what is not a response, and one to an honest one. -/
def garbage : OcspCall :=
  { query := Renamed.queryUnder (commonName [65]), network := fun _ _ _ => .ok [0] }

def answered : OcspCall := honestCall Renamed.respond (Renamed.queryUnder (commonName [65]))

theorem expired_current : CurrentCrl codec (serveCrl codec (fun _ => none) [callOn expired]).2
    (callOn honest) := by
  have missed : lookupLive codec (serveCrl codec (fun _ => none) [callOn expired]).2
      (Shared.request .inMemory) Shared.url = none := by decide +kernel
  intro urls extracted source listed entry checker found
  cases extracted
  rw [List.mem_singleton.mp listed] at found
  cases missed.symm.trans found

theorem garbage_current : CurrentFor Renamed.codec
    (serveOcsp Renamed.codec (fun _ => none) [garbage]).2 answered := by
  have missed : liveOcsp (serveOcsp Renamed.codec (fun _ => none) [garbage]).2
      (ocspKey ([2], Renamed.keyDigest256) "http://a") summer2026 = none := by decide +kernel
  have isBody : buildOcspRequest Renamed.codec answered.query =
      .ok (Renamed.encodeRequest (Renamed.certIdUnder Renamed.nameDigestA)) := by decide +kernel
  have isIdentity : extractCertIdIdentity Renamed.codec
      (Renamed.encodeRequest (Renamed.certIdUnder Renamed.nameDigestA)) =
      .ok ([2], Renamed.keyDigest256) := by decide +kernel
  have isUrl : extractAiaHttpUrls Renamed.codec answered.query.cert = .ok ["http://a"] := by
    decide +kernel
  intro body identity urls asks source listed entry checker found
  have sameBody := Except.ok.inj (isBody.symm.trans asks.built)
  subst sameBody
  have sameIdentity := Except.ok.inj (isIdentity.symm.trans asks.identified)
  subst sameIdentity
  have sameUrls := Except.ok.inj (isUrl.symm.trans asks.responders)
  subst sameUrls
  rw [List.mem_singleton.mp listed] at found
  cases missed.symm.trans found

end Forged

theorem honest_calls_after_forgeries_example :
    ((serveCrl Forged.codec (fun _ => none)
      [Forged.callOn Forged.expired, Forged.callOn Forged.honest,
        Forged.callOn Forged.honest]).1[2]?).map (fun answer => verdict answer.outcome) =
      some .notRevoked ∧
    ((serveOcsp Renamed.codec (fun _ => none)
      [Forged.garbage, Forged.answered]).1[1]?).map (fun answer => verdict answer.outcome) =
      some .notRevoked := by
  constructor
  · have right := (honest_calls_after_forgeries Forged.codec Renamed.codec
      Renamed.codec_roundTrips).1 (fun _ => none) [Forged.callOn Forged.expired]
      [Forged.callOn Forged.honest] (Forged.callOn Forged.honest) [] Forged.expired_current
      (by simp [Forged.callOn_steady])
    refine Eq.trans right ?_
    decide +kernel
  · have right := (honest_calls_after_forgeries Forged.codec Renamed.codec
      Renamed.codec_roundTrips).2.1 (fun _ => none) [Forged.garbage] [] Forged.answered []
      Forged.garbage_current (by simp)
    refine Eq.trans right ?_
    decide +kernel

/-- A forged CRL is stored unverified and refuses a certificate that is good without the
cache. Without any forgery, a CRL goes on to be used when the next one has replaced it. -/
theorem forged_crl_refuses_good :
    (serveCrl Forged.codec (fun _ => none)
      [Forged.callOn Forged.forged, Forged.callOn Forged.honest]).1.map (·.outcome) =
      [.error .crlSignatureInvalid, .error .crlSignatureInvalid] ∧
    uncachedCrl Forged.codec (Forged.callOn Forged.honest).network (Shared.request .inMemory) =
      .ok () ∧
    ((serveCrl Forged.codec (fun _ => none) [Forged.callOn Forged.forged]).2 Shared.key).map
        (·.bytes) = some (Concrete.encodeCertificateList Forged.forged) ∧
    verifyCrlSignature Forged.codec.toCrlCodec Path.Concrete.keyCopyVerifier Forged.forged
      Shared.issuer.tbsCertificate.subjectPublicKeyInfo = .error .crlSignatureInvalid ∧
    (serveCrl Forged.codec (fun _ => none)
      [Forged.callOn Forged.honest, Forged.callOn Forged.revoking]).1.map (·.outcome) =
      [.ok (), .ok ()] ∧
    uncachedCrl Forged.codec (Forged.callOn Forged.revoking).network (Shared.request .inMemory) =
      .error (.revoked [2] none) := by
  refine ⟨by decide +kernel, by decide +kernel, by decide +kernel, by decide +kernel,
    by decide +kernel, by decide +kernel⟩

end Pkix.RevocationHttp
