import Mathlib.Logic.Function.Basic
import Pkix.Lib.Octets
import Pkix.Revocation.CrlChecker

/-! The CRLs a cache holds and the guard on what replaces them. Times are seconds since the
epoch. -/

namespace Pkix.RevocationHttp

open Pkix.Path
open Pkix.Revocation

structure CrlCacheKey where
  issuerDnDer : Bytes
  distributionPointUri : Option String
  deriving DecidableEq, Repr

structure CachedCrl where
  crlNumber : Option Bytes
  thisUpdate : Nat
  nextUpdate : Option Nat
  bytes : Bytes
  deriving DecidableEq, Repr

abbrev CrlStore := CrlCacheKey → Option CachedCrl

/-- What the fetchers call besides: the encoder of a name, the URLs of a certificate's
distribution points, and the texts of errors. -/
structure HttpCodec extends CrlCodec where
  encodeName : Name → Except DerError Bytes
  extractCdpHttpUrls : Certificate → Except String (List String)
  describe : Revocation.Error → String

/-- An entry without nextUpdate never expires. -/
def isLive (nextUpdate : Option Nat) (now : Nat) : Bool :=
  match nextUpdate with
  | none => true
  | some nextUpdate => decide (now < nextUpdate)

def crlNumberGt (incoming stored : Bytes) : Bool :=
  let length := max incoming.length stored.length
  Octets.lexGt (Octets.padLeft length incoming) (Octets.padLeft length stored)

/-- Without a number on both sides nothing is a rollback. -/
def isRollback (prior : Option CachedCrl) (incoming : Option Bytes) : Bool :=
  match prior, incoming with
  | some prior, some incoming =>
      match prior.crlNumber with
      | some priorNumber => crlNumberGt priorNumber incoming
      | none => false
  | _, _ => false

def putCrl (store : CrlStore) (key : CrlCacheKey) (entry : CachedCrl) : CrlStore :=
  Function.update store key (some entry)

def invalidateCrl (store : CrlStore) (key : CrlCacheKey) : CrlStore :=
  Function.update store key none

/-- Under one lock: the new store, and whether the entry went in. -/
def putCrlIfNotRollback (store : CrlStore) (key : CrlCacheKey) (newEntry : CachedCrl) :
    CrlStore × Bool :=
  match store key with
  | some existing =>
      if isRollback (some existing) newEntry.crlNumber then (store, false)
      else (putCrl store key newEntry, true)
  | none => (putCrl store key newEntry, true)

structure CrlMetadata where
  crlNumber : Option Bytes
  thisUpdate : Nat
  nextUpdate : Option Nat
  deriving DecidableEq, Repr

/-- A CRLNumber that does not decode counts as absent. -/
def parseCrlMetadata (der : HttpCodec) (bytes : Bytes) : Except DerError CrlMetadata :=
  match der.certificateList bytes with
  | .error failure => .error failure
  | .ok crl =>
      .ok
        { crlNumber := (findIn crl.extensions oidCrlNumber).bind (fun extension =>
            (der.uint extension.extnValue).toOption)
          thisUpdate := timeToUnixSecs crl.tbsCertList.thisUpdate
          nextUpdate := crl.tbsCertList.nextUpdate.map timeToUnixSecs }

def CrlMetadata.withBytes (metadata : CrlMetadata) (bytes : Bytes) : CachedCrl :=
  { crlNumber := metadata.crlNumber
    thisUpdate := metadata.thisUpdate
    nextUpdate := metadata.nextUpdate
    bytes }

theorem putCrl_other {store : CrlStore} {key other : CrlCacheKey} {entry : CachedCrl}
    (different : other ≠ key) : putCrl store key entry other = store other :=
  Function.update_of_ne different _ _

@[simp] theorem putCrl_same {store : CrlStore} {key : CrlCacheKey} {entry : CachedCrl} :
    putCrl store key entry key = some entry :=
  Function.update_self _ _ _

theorem invalidateCrl_other {store : CrlStore} {key other : CrlCacheKey}
    (different : other ≠ key) : invalidateCrl store key other = store other :=
  Function.update_of_ne different _ _

@[simp] theorem invalidateCrl_same {store : CrlStore} {key : CrlCacheKey} :
    invalidateCrl store key key = none :=
  Function.update_self _ _ _

/-- The guard refuses a rollback of the stored entry and nothing else. -/
theorem putCrlIfNotRollback_eq {store : CrlStore} {key : CrlCacheKey} {newEntry : CachedCrl} :
    putCrlIfNotRollback store key newEntry =
      if isRollback (store key) newEntry.crlNumber then (store, false)
      else (putCrl store key newEntry, true) := by
  unfold putCrlIfNotRollback
  cases store key with
  | none => rfl
  | some existing => rfl

end Pkix.RevocationHttp
