import Mathlib.Logic.Function.Basic
import Pkix.Lib.ReadThrough
import Pkix.Revocation.OcspChecker
import Pkix.RevocationHttp.CrlCache

/-! The OCSP fetcher with and without a cache. A responder is asked with the CertID of the
certificate, and its answers are stored under a part of it. -/

namespace Pkix.RevocationHttp

open Pkix.Path
open Pkix.Revocation
open Pkix.ReadThrough

inductive OcspHashAlg
  | sha1
  | sha256
  deriving DecidableEq, Repr

structure OcspCacheKey where
  certSerial : Bytes
  issuerKeyHash : Bytes
  responderUrl : String
  deriving DecidableEq, Repr

structure CachedOcspResponse where
  producedAt : Nat
  thisUpdate : Nat
  nextUpdate : Option Nat
  bytes : Bytes
  deriving DecidableEq, Repr

abbrev OcspStore := OcspCacheKey → Option CachedOcspResponse

/-- What the OCSP fetchers call besides: the codecs of an access description and of a request
with one CertID, the error of a message without entries, and the texts of errors. -/
structure OcspHttpCodec extends OcspCodec where
  authorityInfoAccess : Bytes → Except DerError (List AccessDescription)
  encodeOcspRequest : CertId → Except DerError Bytes
  ocspRequest : Bytes → Except DerError (List CertId)
  failed : DerError
  describe : Revocation.Error → String

/-- A call of check_revocation with the settings of its fetcher. -/
structure OcspQuery where
  cert : Certificate
  issuer : Certificate
  nowUnix : Nat
  verifier : SignatureVerifier
  hashAlg : OcspHashAlg

/-- What a POST returns, by the position of the URL in the certificate. -/
abbrev OcspNetwork := (attempt : Nat) → (url : String) → (body : Bytes) → Except String Bytes

def oidPeAuthorityInfoAccess : ObjectIdentifier := ⟨[1, 3, 6, 1, 5, 5, 7, 1, 1]⟩
def oidAdOcsp : ObjectIdentifier := ⟨[1, 3, 6, 1, 5, 5, 7, 48, 1]⟩

section Requests

variable (der : OcspHttpCodec)

def startsWithCi (scheme uri : Bytes) : Bool :=
  decide (scheme.length ≤ uri.length) &&
    (uri.take scheme.length).map toAsciiLowercase == scheme

def isHttpUri (uri : Bytes) : Bool :=
  startsWithCi [104, 116, 116, 112, 58, 47, 47] uri ||
    startsWithCi [104, 116, 116, 112, 115, 58, 47, 47] uri

def asStr (uri : Bytes) : String := String.ofList (uri.map (fun octet => Char.ofNat octet.toNat))

def ocspUrl (description : AccessDescription) : Option String :=
  if description.accessMethod = oidAdOcsp then
    match description.accessLocation with
    | .uniformResourceIdentifier uri => if isHttpUri uri.bytes then some (asStr uri.bytes) else none
    | _ => none
  else none

/-- The OCSP part of the access descriptions. -/
def extractAiaHttpUrls (cert : Certificate) : Except DerError (List String) :=
  match findIn cert.extensions oidPeAuthorityInfoAccess with
  | none => .ok []
  | some extension =>
      (der.authorityInfoAccess extension.extnValue).map (List.filterMap ocspUrl)

def OcspHashAlg.oid : OcspHashAlg → ObjectIdentifier
  | .sha1 => oidSha1
  | .sha256 => oidSha256

def digest (hashAlg : OcspHashAlg) (data : Bytes) : Bytes :=
  match hashAlg with
  | .sha1 => der.sha1 data
  | .sha256 => der.sha256 data

/-- The CertID of a certificate under its issuer; the algorithm's parameters are NULL. -/
def certIdFor (query : OcspQuery) : Except DerError CertId := do
  let nameDer ← der.encodeName query.issuer.tbsCertificate.subject
  pure
    { hashAlgorithm := ⟨query.hashAlg.oid, some ⟨.other 0x05, []⟩⟩
      issuerNameHash := digest der query.hashAlg nameDer
      issuerKeyHash := digest der query.hashAlg
        query.issuer.tbsCertificate.subjectPublicKeyInfo.subjectPublicKey.rawBytes
      serialNumber := query.cert.tbsCertificate.serialNumber }

def buildOcspRequest (query : OcspQuery) : Except DerError Bytes := do
  let certId ← certIdFor der query
  der.encodeOcspRequest certId

def extractCertIdIdentity (body : Bytes) : Except DerError (Bytes × Bytes) :=
  match der.ocspRequest body with
  | .error failure => .error failure
  | .ok [] => .error der.failed
  | .ok (first :: _) => .ok (first.serialNumber, first.issuerKeyHash)

structure OcspMetadata where
  producedAt : Nat
  thisUpdate : Nat
  nextUpdate : Option Nat
  deriving DecidableEq, Repr

/-- The times of the first entry, whichever certificate it is for. -/
def parseOcspMetadata (bytes : Bytes) : Except DerError OcspMetadata :=
  match der.ocspResponse bytes with
  | .error failure => .error failure
  | .ok outer =>
      if outer.responseStatus ≠ .successful then .error der.failed
      else
        match outer.responseBytes with
        | none => .error der.failed
        | some inner =>
            match der.basicOcspResponse inner.response with
            | .error failure => .error failure
            | .ok basic =>
                match basic.tbsResponseData.responses with
                | [] => .error der.failed
                | single :: _ =>
                    .ok
                      { producedAt := basic.tbsResponseData.producedAt.unixDuration
                        thisUpdate := single.thisUpdate.unixDuration
                        nextUpdate := single.nextUpdate.map (·.unixDuration) }

def OcspMetadata.withBytes (metadata : OcspMetadata) (bytes : Bytes) : CachedOcspResponse :=
  { producedAt := metadata.producedAt
    thisUpdate := metadata.thisUpdate
    nextUpdate := metadata.nextUpdate
    bytes }

end Requests

section Queries

variable (der : OcspHttpCodec)

def buildOcspChecker (query : OcspQuery) (bytes : Bytes) : Revocation.Result OcspChecker :=
  OcspChecker.new der.toOcspCodec query.nowUnix query.verifier bytes

def ocspVerdict (query : OcspQuery) (checker : OcspChecker) : Revocation.Result Unit :=
  checker.checkRevocation der.toOcspCodec query.cert query.issuer

def ocspFetchFailed (description : String) : Revocation.Result Unit :=
  .error (.revocationFetchFailed description)

def allRespondersFailed (urls failures : List String) : Revocation.Result Unit :=
  ocspFetchFailed ("all " ++ toString urls.length ++ " URL(s) failed: " ++
    "; ".intercalate failures)

def putOcsp (store : OcspStore) (key : OcspCacheKey) (entry : CachedOcspResponse) : OcspStore :=
  Function.update store key (some entry)

def invalidateOcsp (store : OcspStore) (key : OcspCacheKey) : OcspStore :=
  Function.update store key none

/-- Whatever was stored before is replaced. -/
def maybePopulateOcsp (store : OcspStore) (key : OcspCacheKey) (bytes : Bytes) : OcspStore :=
  match parseOcspMetadata der bytes with
  | .error _ => store
  | .ok metadata => putOcsp store key (metadata.withBytes bytes)

def liveOcsp (store : OcspStore) (key : OcspCacheKey) (nowUnix : Nat) :
    Option CachedOcspResponse :=
  (store key).filter (fun entry => isLive entry.nextUpdate nowUnix)

def ocspKey (identity : Bytes × Bytes) (url : String) : OcspCacheKey :=
  { certSerial := identity.1, issuerKeyHash := identity.2, responderUrl := url }

section Responders

variable (network : OcspNetwork) (query : OcspQuery) (body : Bytes)

/-- The responders as the loop of the fetcher meets them. -/
def ocspSources : Sources String Bytes OcspChecker Revocation.Error String :=
  { fetch := fun attempt url => network attempt url body
    accept := buildOcspChecker der query
    faultNote := fun url text => url ++ ": " ++ text
    parseNote := fun url failure => url ++ ": OCSP parse: " ++ der.describe failure }

/-- The responders with the cache in front of each. -/
def ocspReader (identity : Bytes × Bytes) :
    Reader OcspStore String CachedOcspResponse Bytes OcspChecker Revocation.Error String :=
  { ocspSources der network query body with
    live := fun store url => liveOcsp store (ocspKey identity url) query.nowUnix
    content := fun entry => entry.bytes
    drop := fun store url => invalidateOcsp store (ocspKey identity url)
    keep := fun store url bytes => maybePopulateOcsp der store (ocspKey identity url) bytes
    staleNote := fun url failure => url ++ ": cached OCSP parse: " ++ der.describe failure }

end Responders

abbrev OcspReading := Reading String CachedOcspResponse Bytes OcspChecker String

def ocspOutcome (query : OcspQuery) (urls : List String) (reading : OcspReading) :
    Revocation.Result Unit :=
  reading.conclude (allRespondersFailed urls) (ocspVerdict der query)

def uncachedOcsp (network : OcspNetwork) (query : OcspQuery) : Revocation.Result Unit :=
  match buildOcspRequest der query with
  | .error failure =>
      ocspFetchFailed
        ("OCSP request build failed: OCSP request encoding error: " ++ failure.message)
  | .ok body =>
      match extractAiaHttpUrls der query.cert with
      | .error failure =>
          ocspFetchFailed
            ("authorityInfoAccess extension parse failed: extension DER decode error: "
              ++ failure.message)
      | .ok [] => .ok ()
      | .ok urls => ocspOutcome der query urls ((ocspSources der network query body).poll 0 urls [])

/-- An answer and the reading it was given from. -/
structure OcspAnswer where
  outcome : Revocation.Result Unit
  reading : OcspReading

def withoutResponse (store : OcspStore) (outcome : Revocation.Result Unit) :
    OcspAnswer × OcspStore :=
  ({ outcome, reading := .exhausted [] }, store)

def cachedOcsp (network : OcspNetwork) (store : OcspStore) (query : OcspQuery) :
    OcspAnswer × OcspStore :=
  match buildOcspRequest der query with
  | .error failure =>
      withoutResponse store (ocspFetchFailed
        ("OCSP request build failed: OCSP request encoding error: " ++ failure.message))
  | .ok body =>
      match extractAiaHttpUrls der query.cert with
      | .error failure =>
          withoutResponse store (ocspFetchFailed
            ("authorityInfoAccess extension parse failed: extension DER decode error: "
              ++ failure.message))
      | .ok [] => withoutResponse store (.ok ())
      | .ok urls =>
          match extractCertIdIdentity der body with
          | .error failure =>
              withoutResponse store
                (ocspFetchFailed ("OCSP request CertID extract failed: " ++ failure.message))
          | .ok identity =>
              let read := (ocspReader der network query body identity).read 0 store urls []
              ({ outcome := ocspOutcome der query urls read.1, reading := read.1 }, read.2)

end Queries

section Runs

variable (der : OcspHttpCodec)

/-- A query and the network it finds. -/
structure OcspCall where
  query : OcspQuery
  network : OcspNetwork

/-- The answers of calls made one after the other, and the cache they leave. -/
def serveOcsp (store : OcspStore) (calls : List OcspCall) : List OcspAnswer × OcspStore :=
  serve (fun store call => cachedOcsp der call.network store call.query) store calls

end Runs

end Pkix.RevocationHttp
