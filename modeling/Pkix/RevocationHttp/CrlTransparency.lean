import Pkix.RevocationHttp.CrlCalls

/-! When the CRL cache is transparent: as long as a live entry is what the network returns, a
cached call has the verdict of one without the cache. The number of an entry keeps a CRL out of
the cache but is never an answer. -/

namespace Pkix.RevocationHttp

open Pkix.Path
open Pkix.Revocation
open Pkix.ReadThrough

section Lookups

variable {der : HttpCodec} {store : CrlStore} {request other : Request} {url otherUrl : String}
variable {key : CrlCacheKey} {entry : CachedCrl} {bytes : Bytes}

theorem cacheKey_url (keyed : cacheKey der request url = some key) :
    key.distributionPointUri = some url := by
  rcases Option.map_eq_some_iff.mp keyed with ⟨issuerDnDer, _, isKey⟩
  rw [← isKey]

theorem cacheKey_same_url (keyed : cacheKey der request url = some key)
    (otherKeyed : cacheKey der other otherUrl = some key) : url = otherUrl :=
  Option.some.inj ((cacheKey_url keyed).symm.trans (cacheKey_url otherKeyed))

theorem lookupLive_of (keyed : cacheKey der request url = some key)
    (held : store key = some entry) (live : isLive entry.nextUpdate request.nowUnix = true) :
    lookupLive der store request url = some (key, entry) := by
  unfold lookupLive
  rw [keyed]
  dsimp only
  rw [held]
  exact if_pos live

theorem lookupLive_drop (found : lookupLive der (dropCorrupt der store other otherUrl) request url =
      some (key, entry)) :
    lookupLive der store request url = some (key, entry) := by
  unfold dropCorrupt at found
  cases dropped : cacheKey der other otherUrl with
  | none =>
      rw [dropped] at found
      exact found
  | some otherKey =>
      rw [dropped] at found
      rcases lookupLive_some found with ⟨keyed, held, live⟩
      change invalidateCrl store otherKey key = some entry at held
      by_cases same : key = otherKey
      · rw [same, invalidateCrl_same] at held
        cases held
      · rw [invalidateCrl_other same] at held
        exact lookupLive_of keyed held live

/-- An entry that is live after a CRL came in was so before or holds that CRL. -/
theorem lookupLive_populate
    (found : lookupLive der (maybePopulateCrl der store other otherUrl bytes) request url =
      some (key, entry)) :
    lookupLive der store request url = some (key, entry) ∨
      cacheKey der request url = some key ∧ cacheKey der other otherUrl = some key ∧
        entry.bytes = bytes ∧ ∃ metadata, parseCrlMetadata der bytes = .ok metadata ∧
          isLive metadata.nextUpdate request.nowUnix = true := by
  unfold maybePopulateCrl at found
  split at found
  · next otherKey metadata otherKeyed parsed =>
      rw [putCrlIfNotRollback_eq] at found
      split at found
      · exact .inl found
      · rcases lookupLive_some found with ⟨keyed, held, live⟩
        change putCrl store otherKey (metadata.withBytes bytes) key = some entry at held
        by_cases same : key = otherKey
        · subst same
          rw [putCrl_same] at held
          cases held
          exact .inr ⟨keyed, otherKeyed, rfl, metadata, parsed, live⟩
        · rw [putCrl_other same] at held
          exact .inl (lookupLive_of keyed held live)
  · exact .inl found

theorem crlReader_drops {network : CrlNetwork} : DropsOnly (crlReader der network request) :=
  fun _ _ _ _ found => lookupLive_drop found

end Lookups

section Calls

variable {der : HttpCodec} {store : CrlStore} {request : Request} {network : CrlNetwork}

/-- The cache holds nothing live and usable for the call that the network would not return
to it. -/
def CurrentCrl (der : HttpCodec) (store : CrlStore) (call : CrlCall) : Prop :=
  ∀ urls, der.extractCdpHttpUrls call.request.cert = .ok urls →
    Current (crlReader der call.network call.request) urls store

theorem cachedCrl_verdict {call : CrlCall} (current : CurrentCrl der store call) :
    verdict (cachedCrl der call.network store call.request).1.outcome =
      verdict (uncachedCrl der call.network call.request) := by
  unfold cachedCrl uncachedCrl
  cases extracted : der.extractCdpHttpUrls call.request.cert with
  | error text => rfl
  | ok urls =>
      cases urls with
      | nil => rfl
      | cons url urls =>
          exact Reading.conclude_congr (read_found crlReader_drops (current _ extracted))
            (fun _ _ => rfl)

/-- An answer given from a CRL is the verdict of a checker made from it. -/
def CrlAnswerSound (der : HttpCodec) (request : Request) (answer : CrlAnswer) : Prop :=
  ∀ bytes checker, answer.reading.found (·.2.bytes) = some (bytes, checker) →
    buildChecker der request bytes = .ok checker ∧
      answer.outcome = verdictOf der request checker

theorem cachedCrl_sound : CrlAnswerSound der request (cachedCrl der network store request).1 := by
  intro bytes checker given
  unfold cachedCrl at given ⊢
  split at given
  · cases given
  · cases given
  · exact ⟨read_accepts given, Reading.conclude_some given⟩

/-- The rule for caches: what dropping an entry and storing a CRL preserve, a call preserves. -/
theorem cachedCrl_keeps {holds : CrlStore → Prop}
    (dropped : ∀ store url, holds store → holds (dropCorrupt der store request url))
    (kept : ∀ urls, der.extractCdpHttpUrls request.cert = .ok urls →
      ∀ store url attempt bytes, url ∈ urls → network attempt url = .ok bytes →
        holds store → holds (maybePopulateCrl der store request url bytes))
    (start : holds store) : holds (cachedCrl der network store request).2 := by
  unfold cachedCrl
  split
  · exact start
  · exact start
  · next urls _ extracted => exact read_keeps dropped (kept urls extracted) start

/-- What the network returns to one call it returns to a later one with the same key, as long
as the CRL is live. -/
def SteadyCrl (der : HttpCodec) (call later : CrlCall) : Prop :=
  ∀ url key, cacheKey der call.request url = some key →
    cacheKey der later.request url = some key →
    ∀ position bytes metadata, call.network position url = .ok bytes →
      parseCrlMetadata der bytes = .ok metadata →
      isLive metadata.nextUpdate later.request.nowUnix = true →
      ∀ attempt, later.network attempt url = .ok bytes

/-- A call leaves the cache current for the calls that come after it. -/
theorem CurrentCrl.after {call later : CrlCall} (current : CurrentCrl der store later)
    (steady : SteadyCrl der call later) :
    CurrentCrl der (cachedCrl der call.network store call.request).2 later := by
  refine @cachedCrl_keeps der store call.request call.network (CurrentCrl der · later) ?_ ?_ current
  · intro store url before urls extracted source listed held checker found
    exact before urls extracted source listed held checker (lookupLive_drop found)
  · intro _ _ store url position bytes _ answered before urls extracted source listed held checker
      found usable attempt
    rcases lookupLive_populate found with old |
      ⟨keyed, callKeyed, sameBytes, metadata, parsed, live⟩
    · exact before urls extracted source listed held checker old usable attempt
    · have sameUrl : url = source := cacheKey_same_url callKeyed keyed
      subst sameUrl
      change later.network attempt url = .ok held.2.bytes
      rw [sameBytes]
      exact steady url held.1 callKeyed keyed position bytes metadata answered parsed live attempt

end Calls

end Pkix.RevocationHttp
