import Pkix.Revocation.OcspVerdicts
import Pkix.RevocationHttp.OcspCache

/-! When the OCSP cache is transparent: as long as a live entry is what the network returns,
a cached call has the verdict of one without the cache. -/

namespace Pkix.RevocationHttp

open Pkix.Path
open Pkix.Revocation
open Pkix.ReadThrough

section Stores

variable {der : OcspHttpCodec} {store : OcspStore} {key other : OcspCacheKey}
variable {entry : CachedOcspResponse} {nowUnix : Nat}

theorem liveOcsp_some (found : liveOcsp store key nowUnix = some entry) :
    store key = some entry ∧ isLive entry.nextUpdate nowUnix = true :=
  Option.filter_eq_some_iff.mp found

theorem liveOcsp_invalidate
    (found : liveOcsp (invalidateOcsp store key) other nowUnix = some entry) :
    liveOcsp store other nowUnix = some entry := by
  unfold liveOcsp at found ⊢
  by_cases same : other = key
  · rw [same, invalidateOcsp, Function.update_self] at found
    cases found
  · rw [invalidateOcsp, Function.update_of_ne same] at found
    exact found

/-- An entry that is live after a response came in was so before or holds that response. -/
theorem liveOcsp_populate {bytes : Bytes}
    (found : liveOcsp (maybePopulateOcsp der store key bytes) other nowUnix = some entry) :
    liveOcsp store other nowUnix = some entry ∨
      other = key ∧ entry.bytes = bytes ∧ ∃ metadata, parseOcspMetadata der bytes = .ok metadata ∧
        isLive metadata.nextUpdate nowUnix = true := by
  unfold maybePopulateOcsp at found
  cases parsed : parseOcspMetadata der bytes with
  | error failure =>
      rw [parsed] at found
      exact .inl found
  | ok metadata =>
      rw [parsed] at found
      dsimp only at found
      by_cases same : other = key
      · rcases liveOcsp_some found with ⟨held, live⟩
        rw [same, putOcsp, Function.update_self] at held
        cases held
        exact .inr ⟨same, rfl, metadata, rfl, live⟩
      · unfold liveOcsp at found ⊢
        rw [putOcsp, Function.update_of_ne same] at found
        exact .inl found

theorem ocspReader_drops {network : OcspNetwork} {query : OcspQuery} {body : Bytes}
    {identity : Bytes × Bytes} : DropsOnly (ocspReader der network query body identity) :=
  fun _ _ _ _ found => liveOcsp_invalidate found

end Stores

section Calls

variable {der : OcspHttpCodec} {store : OcspStore} {query : OcspQuery}

/-- A request made from a CertID reads back as that CertID. -/
def RoundTrips (der : OcspHttpCodec) : Prop :=
  ∀ certId body, der.encodeOcspRequest certId = .ok body → der.ocspRequest body = .ok [certId]

/-- What a query sends, where, and what it is stored under. -/
structure Asks (der : OcspHttpCodec) (query : OcspQuery) (body : Bytes)
    (identity : Bytes × Bytes) (urls : List String) : Prop where
  built : buildOcspRequest der query = .ok body
  identified : extractCertIdIdentity der body = .ok identity
  responders : extractAiaHttpUrls der query.cert = .ok urls

theorem buildOcspRequest_ok {body : Bytes} (built : buildOcspRequest der query = .ok body) :
    ∃ certId, certIdFor der query = .ok certId ∧ der.encodeOcspRequest certId = .ok body :=
  Walk.bind_ok.mp built

theorem extractCertIdIdentity_built (roundTrips : RoundTrips der) {body : Bytes}
    (built : buildOcspRequest der query = .ok body) :
    ∃ certId, certIdFor der query = .ok certId ∧
      extractCertIdIdentity der body = .ok (certId.serialNumber, certId.issuerKeyHash) := by
  rcases buildOcspRequest_ok built with ⟨certId, named, encoded⟩
  refine ⟨certId, named, ?_⟩
  unfold extractCertIdIdentity
  rw [roundTrips certId body encoded]

/-- The cache holds nothing live and usable for the call that the network would not return
to it. -/
def CurrentFor (der : OcspHttpCodec) (store : OcspStore) (call : OcspCall) : Prop :=
  ∀ body identity urls, Asks der call.query body identity urls →
    Current (ocspReader der call.network call.query body identity) urls store

theorem CurrentFor.empty {call : OcspCall} : CurrentFor der (fun _ => none) call :=
  fun _ _ _ _ _ _ _ _ found => nomatch found

theorem cachedOcsp_verdict (roundTrips : RoundTrips der) {call : OcspCall}
    (current : CurrentFor der store call) :
    verdict (cachedOcsp der call.network store call.query).1.outcome =
      verdict (uncachedOcsp der call.network call.query) := by
  unfold cachedOcsp uncachedOcsp
  cases built : buildOcspRequest der call.query with
  | error failure => rfl
  | ok body =>
      dsimp only
      cases responders : extractAiaHttpUrls der call.query.cert with
      | error failure => rfl
      | ok urls =>
          cases urls with
          | nil => rfl
          | cons url urls =>
              rcases extractCertIdIdentity_built roundTrips built with ⟨certId, _, identified⟩
              dsimp only
              rw [identified]
              exact Reading.conclude_congr
                (read_found ocspReader_drops (current _ _ _ ⟨built, identified, responders⟩))
                (fun _ _ => rfl)

/-- An answer given from a response is the verdict of a checker made from it. -/
def OcspAnswerSound (der : OcspHttpCodec) (query : OcspQuery) (answer : OcspAnswer) : Prop :=
  ∀ bytes checker, answer.reading.found (·.bytes) = some (bytes, checker) →
    buildOcspChecker der query bytes = .ok checker ∧ answer.outcome = ocspVerdict der query checker

theorem cachedOcsp_sound (network : OcspNetwork) (query : OcspQuery) :
    OcspAnswerSound der query (cachedOcsp der network store query).1 := by
  intro bytes checker given
  unfold cachedOcsp at given ⊢
  split at given
  · cases given
  · split at given
    · cases given
    · cases given
    · split at given
      · cases given
      · exact ⟨read_accepts given, Reading.conclude_some given⟩

/-- The rule for caches: what taking out an entry and storing a response preserve, a call
preserves. -/
theorem cachedOcsp_keeps {holds : OcspStore → Prop} {network : OcspNetwork}
    (dropped : ∀ store key, holds store → holds (invalidateOcsp store key))
    (kept : ∀ body identity urls, Asks der query body identity urls →
      ∀ store url attempt bytes, url ∈ urls → network attempt url body = .ok bytes →
        holds store → holds (maybePopulateOcsp der store (ocspKey identity url) bytes))
    (start : holds store) : holds (cachedOcsp der network store query).2 := by
  unfold cachedOcsp
  split
  · exact start
  · next body built =>
      split
      · exact start
      · exact start
      · next urls _ responders =>
          split
          · exact start
          · next identity identified =>
              exact read_keeps (fun store url => dropped store (ocspKey identity url))
                (kept body identity urls ⟨built, identified, responders⟩) start

/-- What the network returns to one call it returns to a later one with the same key, as long
as the response is live. -/
def Steady (der : OcspHttpCodec) (call later : OcspCall) : Prop :=
  ∀ body identity urls, Asks der call.query body identity urls →
    ∀ laterBody laterUrls, Asks der later.query laterBody identity laterUrls →
    ∀ url, url ∈ urls → url ∈ laterUrls →
    ∀ position bytes metadata, call.network position url body = .ok bytes →
      parseOcspMetadata der bytes = .ok metadata →
      isLive metadata.nextUpdate later.query.nowUnix = true →
      ∀ attempt, later.network attempt url laterBody = .ok bytes

theorem ocspKey_inj {identity identity' : Bytes × Bytes} {url url' : String}
    (same : ocspKey identity url = ocspKey identity' url') : identity = identity' ∧ url = url' := by
  injection same with serial keyHash responder
  exact ⟨Prod.ext serial keyHash, responder⟩

/-- A call leaves the cache current for the calls that come after it. -/
theorem CurrentFor.after {call later : OcspCall} (current : CurrentFor der store later)
    (steady : Steady der call later) :
    CurrentFor der (cachedOcsp der call.network store call.query).2 later := by
  refine @cachedOcsp_keeps der store call.query (CurrentFor der · later) call.network ?_ ?_ current
  · intro store key before body identity urls asks url listed entry checker found
    exact before body identity urls asks url listed entry checker (liveOcsp_invalidate found)
  · intro body identity urls asks store url position bytes member answered before laterBody
      laterIdentity laterUrls laterAsks laterUrl listed entry checker found usable attempt
    rcases liveOcsp_populate found with old | ⟨sameKey, sameBytes, metadata, parsed, live⟩
    · exact before laterBody laterIdentity laterUrls laterAsks laterUrl listed entry checker old
        usable attempt
    · rcases ocspKey_inj sameKey with ⟨sameIdentity, sameUrl⟩
      subst sameIdentity
      subst sameUrl
      change later.network attempt laterUrl laterBody = .ok entry.bytes
      rw [sameBytes]
      exact steady body laterIdentity urls asks laterBody laterUrls laterAsks laterUrl member listed
        position bytes metadata answered parsed live attempt

end Calls

section Honest

variable {der : OcspHttpCodec} {respond : String → Bytes → Except String Bytes}

/-- A call to responders that answer a request alike whenever it is made. -/
def honestCall (respond : String → Bytes → Except String Bytes) (query : OcspQuery) : OcspCall :=
  { query, network := fun _ => respond }

/-- With a responder in common, CertIDs of one serial number and one issuer key hash have the
same hash algorithm and the same issuer name hash. -/
def KeepsApart (der : OcspHttpCodec) (query other : OcspQuery) : Prop :=
  ∀ certId otherId urls otherUrls url, certIdFor der query = .ok certId →
    certIdFor der other = .ok otherId → extractAiaHttpUrls der query.cert = .ok urls →
    extractAiaHttpUrls der other.cert = .ok otherUrls → url ∈ urls → url ∈ otherUrls →
    certId.serialNumber = otherId.serialNumber → certId.issuerKeyHash = otherId.issuerKeyHash →
    certId.hashAlgorithm = otherId.hashAlgorithm ∧ certId.issuerNameHash = otherId.issuerNameHash

/-- The queries have a cache key in common. -/
def SharesKey (der : OcspHttpCodec) (query other : OcspQuery) : Prop :=
  ∃ body otherBody identity urls otherUrls url, Asks der query body identity urls ∧
    Asks der other otherBody identity otherUrls ∧ url ∈ urls ∧ url ∈ otherUrls

theorem KeepsApart.sameCertId (roundTrips : RoundTrips der) {query other : OcspQuery}
    (apart : KeepsApart der query other) (shares : SharesKey der query other) :
    certIdFor der query = certIdFor der other := by
  rcases shares with ⟨body, otherBody, identity, urls, otherUrls, url, asks, otherAsks, member,
    otherMember⟩
  rcases extractCertIdIdentity_built roundTrips asks.built with ⟨certId, named, identified⟩
  rcases extractCertIdIdentity_built roundTrips otherAsks.built with ⟨otherId, otherNamed,
    otherIdentified⟩
  have isIdentity := Except.ok.inj (asks.identified.symm.trans identified)
  have isOther := Except.ok.inj (otherAsks.identified.symm.trans otherIdentified)
  rcases Prod.mk.inj (isIdentity.symm.trans isOther) with ⟨sameSerial, sameKeyHash⟩
  rcases apart certId otherId urls otherUrls url named otherNamed asks.responders
    otherAsks.responders member otherMember sameSerial sameKeyHash with ⟨sameHash, sameName⟩
  rw [named, otherNamed]
  cases certId
  cases otherId
  simp_all

theorem KeepsApart.steady (roundTrips : RoundTrips der) {query other : OcspQuery}
    (apart : KeepsApart der query other) :
    Steady der (honestCall respond query) (honestCall respond other) := by
  intro body identity urls asks otherBody otherUrls otherAsks url member otherMember position
    bytes metadata answered _ _ attempt
  have sameCertId := apart.sameCertId roundTrips
    ⟨body, otherBody, identity, urls, otherUrls, url, asks, otherAsks, member, otherMember⟩
  rcases buildOcspRequest_ok asks.built with ⟨certId, named, encoded⟩
  rcases buildOcspRequest_ok otherAsks.built with ⟨otherId, otherNamed, otherEncoded⟩
  change certIdFor der query = .ok certId at named
  change certIdFor der other = .ok otherId at otherNamed
  have sameId : certId = otherId :=
    Except.ok.inj (named.symm.trans (sameCertId.trans otherNamed))
  subst sameId
  have sameBody : body = otherBody := Except.ok.inj (encoded.symm.trans otherEncoded)
  subst sameBody
  exact answered

theorem buildOcspChecker_ok {query : OcspQuery} {bytes : Bytes} {checker : OcspChecker}
    (built : buildOcspChecker der query bytes = .ok checker) :
    checker.nowUnix = query.nowUnix ∧ checker.verifier = query.verifier := by
  rcases Walk.bind_ok.mp built with ⟨basic, _, made⟩
  rw [← Walk.pure_ok.mp made]
  exact ⟨rfl, rfl⟩

end Honest

namespace Renamed

open Pkix.Path.Concrete
open Pkix.Revocation.Concrete

/-- SHA-256 of the names with common names A and B, and of the key 1, 2, 3. -/
def nameDigestA : Bytes :=
  [10, 121, 164, 227, 141, 9, 147, 164, 17, 71, 84, 220, 227, 86, 6, 207, 172, 109, 117,
   37, 199, 244, 49, 234, 239, 212, 207, 185, 88, 16, 17, 252]

def nameDigestB : Bytes :=
  [197, 66, 235, 64, 172, 212, 195, 92, 28, 165, 232, 154, 85, 48, 56, 139, 244, 51, 45,
   24, 50, 1, 227, 54, 29, 21, 114, 23, 122, 242, 72, 156]

def keyDigest256 : Bytes :=
  [3, 144, 88, 198, 242, 192, 203, 73, 44, 83, 59, 10, 77, 20, 239, 119, 204, 15, 120,
   171, 204, 206, 213, 40, 125, 132, 161, 162, 1, 28, 251, 129]

def sha256Table : List (Bytes × Bytes) :=
  [(encodeName (commonName [65]), nameDigestA), (encodeName (commonName [66]), nameDigestB),
    ([1, 2, 3], keyDigest256)]

def certIdUnder (nameDigest : Bytes) : CertId :=
  ⟨⟨oidSha256, some ⟨.other 0x05, []⟩⟩, nameDigest, keyDigest256, [2]⟩

def encodeRequest (certId : CertId) : Bytes :=
  tlv 0x30 (tlv 0x30 (tlv 0x30 (tlv 0x30 (encodeCertId certId))))

def june : DateTime := ⟨2026, 6, 1, 0, 0, 0, 1780272000⟩
def september : DateTime := ⟨2026, 9, 1, 0, 0, 0, 1788220800⟩

def goodResponse (certId : CertId) : BasicOcspResponse :=
  { tbsResponseData :=
      { version := .v1
        responderId := .byKey keyDigest
        producedAt := june
        responses := [⟨certId, .good, june, some september, none⟩]
        responseExtensions := none }
    signatureAlgorithm := ecdsaWithSha256
    signature := ⟨0, [1, 2, 3]⟩
    certs := none }

def encodeBasic (basic : BasicOcspResponse) : Bytes :=
  tlv 0x30 (encodeResponseData basic.tbsResponseData ++ encodeAlgorithm basic.signatureAlgorithm ++
    encodeBitString 0x03 basic.signature)

def encodeResponse (basic : BasicOcspResponse) : Bytes :=
  tlv 0x30 (tlv 0x0A [0] ++
    tlv 0xA0 (tlv 0x30 (encodeOid oidPkixOcspBasic ++ tlv 0x04 (encodeBasic basic))))

def answers : List BasicOcspResponse :=
  [goodResponse (certIdUnder nameDigestA), goodResponse (certIdUnder nameDigestB)]

/-- http://a -/
def responder : Ia5String := ⟨[104, 116, 116, 112, 58, 47, 47, 97], by decide +kernel⟩

def aiaContent : Bytes := tlv 0x30 (tlv 0x30 (encodeOid oidAdOcsp ++ tlv 0x86 responder.bytes))

/-- The requests for the two CertIDs, and the responses to them. -/
def codec : OcspHttpCodec :=
  { ocspCodec
      { ocspResponse := answers.map (fun basic =>
          (encodeResponse basic, ⟨.successful, some ⟨oidPkixOcspBasic, encodeBasic basic⟩⟩))
        basicOcspResponse := answers.map (fun basic => (encodeBasic basic, basic))
        sha1 := sha1Table } with
    sha256 := fun data => (sha256Table.lookup data).getD []
    authorityInfoAccess := fun content =>
      orUndecodable ([(aiaContent,
        [⟨oidAdOcsp, .uniformResourceIdentifier responder⟩])].lookup content)
    encodeOcspRequest := fun certId =>
      if certId ∈ [certIdUnder nameDigestA, certIdUnder nameDigestB] then .ok (encodeRequest certId)
      else .error ⟨"not encoded here"⟩
    ocspRequest := fun bytes =>
      if bytes = encodeRequest (certIdUnder nameDigestA) then .ok [certIdUnder nameDigestA]
      else if bytes = encodeRequest (certIdUnder nameDigestB) then .ok [certIdUnder nameDigestB]
      else .error ⟨"not a request"⟩
    failed := ⟨"failed"⟩
    describe := fun _ => "not usable" }

theorem codec_roundTrips : RoundTrips codec := by
  intro certId body encoded
  have known : certId ∈ [certIdUnder nameDigestA, certIdUnder nameDigestB] := by
    by_contra unknown
    simp only [codec, if_neg unknown] at encoded
    cases encoded
  simp only [codec, if_pos known] at encoded
  cases encoded
  rcases List.mem_pair.mp known with isA | isB
  · subst isA
    decide +kernel
  · subst isB
    decide +kernel

def respond (_url : String) (body : Bytes) : Except String Bytes :=
  if body = encodeRequest (certIdUnder nameDigestA) then
    .ok (encodeResponse (goodResponse (certIdUnder nameDigestA)))
  else if body = encodeRequest (certIdUnder nameDigestB) then
    .ok (encodeResponse (goodResponse (certIdUnder nameDigestB)))
  else .error "404"

/-- The certificate with serial number 2 under the key 1, 2, 3 and an issuer's name. -/
def queryUnder (issuerName : Name) : OcspQuery :=
  { cert := issue 2 issuerName (commonName [67]) [1, 2, 3] [4]
      [⟨oidPeAuthorityInfoAccess, false, aiaContent⟩]
    issuer := issue 1 issuerName issuerName [1, 2, 3] [1, 2, 3] [caExtension]
    nowUnix := summer2026
    verifier := keyCopyVerifier
    hashAlg := .sha256 }

end Renamed

end Pkix.RevocationHttp
