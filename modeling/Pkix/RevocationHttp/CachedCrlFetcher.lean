import Pkix.RevocationHttp.CrlCache

/-! Calls of cached CRL fetchers over one cache. A call is a small machine: each step is
one access to the cache or to the network, and other calls may step in between. -/

namespace Pkix.RevocationHttp

open Pkix.Path
open Pkix.Revocation

/-- How a fetcher holds the cache: itself, with a put under one lock, or as a trait object,
with a get and then a put. -/
inductive CacheHandle
  | inMemory
  | traitObject
  deriving DecidableEq, Repr

/-- A call of check_revocation on some fetcher. -/
structure Request where
  cert : Certificate
  issuer : Certificate
  nowUnix : Nat
  verifier : SignatureVerifier
  handle : CacheHandle

/-- The CRL an answer was given from; a fetched one with its key and whether it was
stored. -/
inductive Basis
  | noCrl
  | cached (key : CrlCacheKey) (entry : CachedCrl)
  | fetched (key : Option CrlCacheKey) (bytes : Bytes) (stored : Bool)
  deriving DecidableEq, Repr

inductive Progress
  | atUrls (urls failures : List String)
  | corrupt (url : String) (rest failures : List String)
  | fetching (url : String) (rest failures : List String)
  | populating (url : String) (bytes : Bytes) (checker : CrlChecker)
  | putting (key : CrlCacheKey) (entry : CachedCrl) (checker : CrlChecker)
  | answered (outcome : Revocation.Result Unit) (basis : Basis)

structure Call where
  request : Request
  progress : Progress

section Calls

variable (der : HttpCodec)

def fetchFailed (description : String) : Revocation.Result Unit :=
  .error (.revocationFetchFailed description)

def beginCall (request : Request) : Progress :=
  match der.extractCdpHttpUrls request.cert with
  | .error text =>
      .answered (fetchFailed ("cRLDistributionPoints extension parse failed: " ++ text)) .noCrl
  | .ok [] => .answered (.ok ()) .noCrl
  | .ok urls => .atUrls urls []

def numberOfUrls (request : Request) : Nat :=
  match der.extractCdpHttpUrls request.cert with
  | .error _ => 0
  | .ok urls => urls.length

def allFailed (request : Request) (failures : List String) : Revocation.Result Unit :=
  fetchFailed ("all " ++ toString (numberOfUrls der request) ++ " URL(s) failed: " ++
    "; ".intercalate failures)

def cacheKey (request : Request) (url : String) : Option CrlCacheKey :=
  (der.encodeName request.issuer.tbsCertificate.subject).toOption.map (fun issuerDnDer =>
    { issuerDnDer, distributionPointUri := some url })

def lookupLive (store : CrlStore) (request : Request) (url : String) :
    Option (CrlCacheKey × CachedCrl) :=
  match cacheKey der request url with
  | none => none
  | some key =>
      match store key with
      | none => none
      | some entry => if isLive entry.nextUpdate request.nowUnix then some (key, entry) else none

def buildChecker (request : Request) (bytes : Bytes) : Revocation.Result CrlChecker :=
  CrlChecker.new der.toCrlCodec request.nowUnix request.verifier bytes

def verdictOf (request : Request) (checker : CrlChecker) : Revocation.Result Unit :=
  checkRevocation der.toCrlCodec checker request.cert request.issuer

/-- The head of the loop over the URLs, with the lookup in the cache. -/
def tryUrls (store : CrlStore) (request : Request) : (urls failures : List String) → Progress
  | [], failures => .answered (allFailed der request failures) .noCrl
  | url :: rest, failures =>
      match lookupLive der store request url with
      | none => .fetching url rest failures
      | some (key, entry) =>
          match buildChecker der request entry.bytes with
          | .ok checker => .answered (verdictOf der request checker) (.cached key entry)
          | .error failure =>
              .corrupt url rest
                (failures ++ [url ++ ": cached CRL parse: " ++ der.describe failure])

def receive (request : Request) (url : String) (rest failures : List String) :
    Except String Bytes → Progress
  | .error text => .atUrls rest (failures ++ [url ++ ": " ++ text])
  | .ok bytes =>
      match buildChecker der request bytes with
      | .ok checker => .populating url bytes checker
      | .error failure =>
          .atUrls rest (failures ++ [url ++ ": CRL parse: " ++ der.describe failure])

/-- The guarded put, or for a trait object its get; the answer after a refusal is still that
of the fetched CRL. -/
def populate (store : CrlStore) (request : Request) (url : String) (bytes : Bytes)
    (checker : CrlChecker) : CrlStore × Progress :=
  let answer := verdictOf der request checker
  match cacheKey der request url, parseCrlMetadata der bytes with
  | some key, .ok metadata =>
      match request.handle with
      | .inMemory =>
          let put := putCrlIfNotRollback store key (metadata.withBytes bytes)
          (put.1, .answered answer (.fetched (some key) bytes put.2))
      | .traitObject =>
          if isRollback (store key) metadata.crlNumber then
            (store, .answered answer (.fetched (some key) bytes false))
          else (store, .putting key (metadata.withBytes bytes) checker)
  | key, _ => (store, .answered answer (.fetched key bytes false))

/-- One step of a call; `response` is what the network gives if it is asked. -/
def advance (response : Except String Bytes) (store : CrlStore) (request : Request) :
    Progress → CrlStore × Progress
  | .atUrls urls failures => (store, tryUrls der store request urls failures)
  | .corrupt url rest failures =>
      (((cacheKey der request url).map (invalidateCrl store)).getD store,
        .fetching url rest failures)
  | .fetching url rest failures => (store, receive der request url rest failures response)
  | .populating url bytes checker => populate der store request url bytes checker
  | .putting key entry checker =>
      (putCrl store key entry,
        .answered (verdictOf der request checker) (.fetched (some key) entry.bytes true))
  | .answered outcome basis => (store, .answered outcome basis)

end Calls

section Systems

variable (der : HttpCodec)

/-- The cache and the calls that are under way or answered. -/
structure System where
  store : CrlStore
  calls : Nat → Option Call

inductive Action
  | begin (id : Nat) (request : Request)
  | proceed (id : Nat) (response : Except String Bytes)

def perform (system : System) : Action → System
  | .begin id request =>
      match system.calls id with
      | some _ => system
      | none =>
          { system with
            calls := Function.update system.calls id
              (some { request, progress := beginCall der request }) }
  | .proceed id response =>
      match system.calls id with
      | none => system
      | some call =>
          let next := advance der response system.store call.request call.progress
          { store := next.1
            calls := Function.update system.calls id (some { call with progress := next.2 }) }

def run (system : System) (actions : List Action) : System := actions.foldl (perform der) system

/-- Nothing called yet. -/
def idle (store : CrlStore) : System := { store, calls := fun _ => none }

end Systems

end Pkix.RevocationHttp
