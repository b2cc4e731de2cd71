import Pkix.RevocationHttp.CachedCrlFetcher

/-! What a step of a call does to a shared cache, and what a call keeps over any run. -/

namespace Pkix.RevocationHttp

open Pkix.Path
open Pkix.Revocation

section Steps

variable {der : HttpCodec} {store : CrlStore} {request : Request}

theorem lookupLive_some {url : String} {key : CrlCacheKey} {entry : CachedCrl}
    (found : lookupLive der store request url = some (key, entry)) :
    cacheKey der request url = some key ∧ store key = some entry ∧
      isLive entry.nextUpdate request.nowUnix = true := by
  unfold lookupLive at found
  split at found
  · cases found
  · rename_i keyed isKey
    split at found
    · cases found
    · rename_i held isHeld
      split at found
      · rename_i live
        cases found
        exact ⟨isKey, isHeld, live⟩
      · cases found

/-- What became of a key: untouched, taken out, or given an entry that rolls nothing back. -/
def Guarded (before after : CrlStore) (key : CrlCacheKey) : Prop :=
  after key = before key ∨ after key = none ∨
    ∃ entry, after key = some entry ∧ isRollback (before key) entry.crlNumber = false

theorem Guarded.refl (store : CrlStore) (key : CrlCacheKey) : Guarded store store key := .inl rfl

theorem populate_inMemory {url : String} {bytes : Bytes} {checker : CrlChecker}
    {key : CrlCacheKey} {metadata : CrlMetadata} (keyed : cacheKey der request url = some key)
    (parsed : parseCrlMetadata der bytes = .ok metadata)
    (inMemory : request.handle = .inMemory) :
    populate der store request url bytes checker =
      ((putCrlIfNotRollback store key (metadata.withBytes bytes)).1,
        .answered (verdictOf der request checker) (.fetched (some key) bytes
          (putCrlIfNotRollback store key (metadata.withBytes bytes)).2)) := by
  simp only [populate, keyed, parsed, inMemory]

theorem populate_traitObject {url : String} {bytes : Bytes} {checker : CrlChecker}
    {key : CrlCacheKey} {metadata : CrlMetadata} (keyed : cacheKey der request url = some key)
    (parsed : parseCrlMetadata der bytes = .ok metadata)
    (isTraitObject : request.handle = .traitObject) :
    populate der store request url bytes checker =
      if isRollback (store key) metadata.crlNumber then
        (store, .answered (verdictOf der request checker) (.fetched (some key) bytes false))
      else (store, .putting key (metadata.withBytes bytes) checker) := by
  simp only [populate, keyed, parsed, isTraitObject]

theorem populate_unkeyed {url : String} {bytes : Bytes} {checker : CrlChecker}
    (unkeyed : ∀ key metadata, cacheKey der request url = some key →
      parseCrlMetadata der bytes ≠ .ok metadata) :
    populate der store request url bytes checker =
      (store, .answered (verdictOf der request checker)
        (.fetched (cacheKey der request url) bytes false)) := by
  unfold populate
  split
  · rename_i key metadata keyed parsed
    exact absurd parsed (unkeyed key metadata keyed)
  · rfl

end Steps

section Runs

variable {der : HttpCodec} {system : System} {key : CrlCacheKey}

theorem perform_proceed {id : Nat} {response : Except String Bytes} {call : Call}
    (running : system.calls id = some call) :
    perform der system (.proceed id response) =
      { store := (advance der response system.store call.request call.progress).1
        calls := Function.update system.calls id
          (some ⟨call.request,
            (advance der response system.store call.request call.progress).2⟩) } := by
  unfold perform
  dsimp only
  rw [running]

end Runs

end Pkix.RevocationHttp
