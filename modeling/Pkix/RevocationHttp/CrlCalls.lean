import Pkix.Lib.ReadThrough
import Pkix.RevocationHttp.CacheRuns

/-! CRL calls with and without the cache, made one after the other. With no other call in
between, a call of the shared cache comes to the loop of its fetcher. -/

namespace Pkix.RevocationHttp

open Pkix.Path
open Pkix.Revocation
open Pkix.ReadThrough

/-- What a GET returns, by the position of the URL in the certificate. -/
abbrev CrlNetwork := (attempt : Nat) → (url : String) → Except String Bytes

abbrev CrlReading := Reading String (CrlCacheKey × CachedCrl) Bytes CrlChecker String

section Fetchers

variable (der : HttpCodec)

def maybePopulateCrl (store : CrlStore) (request : Request) (url : String) (bytes : Bytes) :
    CrlStore :=
  match cacheKey der request url, parseCrlMetadata der bytes with
  | some key, .ok metadata => (putCrlIfNotRollback store key (metadata.withBytes bytes)).1
  | _, _ => store

def dropCorrupt (store : CrlStore) (request : Request) (url : String) : CrlStore :=
  ((cacheKey der request url).map (invalidateCrl store)).getD store

/-- The distribution points as the loop of the fetcher meets them. -/
def crlSources (network : CrlNetwork) (request : Request) :
    Sources String Bytes CrlChecker Revocation.Error String :=
  { fetch := network
    accept := buildChecker der request
    faultNote := fun url text => url ++ ": " ++ text
    parseNote := fun url failure => url ++ ": CRL parse: " ++ der.describe failure }

/-- The distribution points with the cache in front of each. -/
def crlReader (network : CrlNetwork) (request : Request) :
    Reader CrlStore String (CrlCacheKey × CachedCrl) Bytes CrlChecker Revocation.Error String :=
  { crlSources der network request with
    live := fun store url => lookupLive der store request url
    content := fun held => held.2.bytes
    drop := fun store url => dropCorrupt der store request url
    keep := fun store url bytes => maybePopulateCrl der store request url bytes
    staleNote := fun url failure => url ++ ": cached CRL parse: " ++ der.describe failure }

def crlOutcome (request : Request) (reading : CrlReading) : Revocation.Result Unit :=
  reading.conclude (allFailed der request) (verdictOf der request)

def uncachedCrl (network : CrlNetwork) (request : Request) : Revocation.Result Unit :=
  match der.extractCdpHttpUrls request.cert with
  | .error text => fetchFailed ("cRLDistributionPoints extension parse failed: " ++ text)
  | .ok [] => .ok ()
  | .ok urls => crlOutcome der request ((crlSources der network request).poll 0 urls [])

/-- An answer and the reading it was given from. -/
structure CrlAnswer where
  outcome : Revocation.Result Unit
  reading : CrlReading

def withoutCrl (store : CrlStore) (outcome : Revocation.Result Unit) : CrlAnswer × CrlStore :=
  ({ outcome, reading := .exhausted [] }, store)

def cachedCrl (network : CrlNetwork) (store : CrlStore) (request : Request) :
    CrlAnswer × CrlStore :=
  match der.extractCdpHttpUrls request.cert with
  | .error text =>
      withoutCrl store (fetchFailed ("cRLDistributionPoints extension parse failed: " ++ text))
  | .ok [] => withoutCrl store (.ok ())
  | .ok urls =>
      let read := (crlReader der network request).read 0 store urls []
      ({ outcome := crlOutcome der request read.1, reading := read.1 }, read.2)

/-- A request and the network it finds. -/
structure CrlCall where
  request : Request
  network : CrlNetwork

def serveCrl (store : CrlStore) (calls : List CrlCall) : List CrlAnswer × CrlStore :=
  serve (fun store call => cachedCrl der call.network store call.request) store calls

end Fetchers

section Alone

variable {der : HttpCodec} {store : CrlStore} {request : Request} {network : CrlNetwork}

/-- The steps of one call, with what the network gives at each. -/
def advanceAll (der : HttpCodec) (request : Request) (responses : List (Except String Bytes))
    (state : CrlStore × Progress) : CrlStore × Progress :=
  responses.foldl (fun state response => advance der response state.1 request state.2) state

/-- Some steps take the one state to the other. -/
def StepsTo (der : HttpCodec) (request : Request) (state next : CrlStore × Progress) : Prop :=
  ∃ responses, advanceAll der request responses state = next

theorem StepsTo.refl (state : CrlStore × Progress) : StepsTo der request state state := ⟨[], rfl⟩

theorem StepsTo.trans {state next last : CrlStore × Progress}
    (first : StepsTo der request state next) (second : StepsTo der request next last) :
    StepsTo der request state last := by
  rcases first with ⟨responses, reached⟩
  rcases second with ⟨later, finished⟩
  refine ⟨responses ++ later, ?_⟩
  unfold advanceAll at reached finished ⊢
  rw [List.foldl_append, reached, finished]

theorem StepsTo.step (response : Except String Bytes) (state : CrlStore × Progress) :
    StepsTo der request state (advance der response state.1 request state.2) :=
  ⟨[response], rfl⟩

/-- The lookup takes one step, and one more to drop a corrupt entry. -/
theorem consult_steps {url : String} {rest failures : List String} :
    match (crlReader der network request).consult store url failures with
    | .ok reading => ∃ basis, StepsTo der request (store, .atUrls (url :: rest) failures)
        (store, .answered (crlOutcome der request reading) basis)
    | .error left => StepsTo der request (store, .atUrls (url :: rest) failures)
        (left.1, .fetching url rest left.2) := by
  have looked := @StepsTo.step der request (.error "not asked")
    (store, .atUrls (url :: rest) failures)
  dsimp only [advance, tryUrls] at looked
  unfold Reader.consult
  cases found : lookupLive der store request url with
  | none =>
      have missed : (crlReader der network request).live store url = none := found
      rw [found] at looked
      rw [missed]
      exact looked
  | some held =>
      have hit : (crlReader der network request).live store url = some held := found
      rw [found] at looked
      rw [hit]
      cases built : buildChecker der request held.2.bytes with
      | ok checker =>
          have accepted : (crlReader der network request).accept held.2.bytes = .ok checker := built
          dsimp only [crlReader] at accepted ⊢
          rw [accepted]
          simp only [built] at looked
          exact ⟨_, looked⟩
      | error failure =>
          have refused : (crlReader der network request).accept held.2.bytes = .error failure :=
            built
          dsimp only [crlReader] at refused ⊢
          rw [refused]
          simp only [built] at looked
          exact looked.trans (StepsTo.step (.error "not asked") _)

/-- The put takes one step, or two through a trait object. -/
theorem populate_steps {url : String} {bytes : Bytes} {checker : CrlChecker} :
    ∃ basis, StepsTo der request (store, .populating url bytes checker)
      (maybePopulateCrl der store request url bytes,
        .answered (verdictOf der request checker) basis) := by
  have put := @StepsTo.step der request (.error "not asked") (store, .populating url bytes checker)
  dsimp only [advance] at put
  unfold maybePopulateCrl
  by_cases unkeyed : ∀ key metadata, cacheKey der request url = some key →
      parseCrlMetadata der bytes ≠ .ok metadata
  · rw [populate_unkeyed unkeyed] at put
    split
    · next key metadata keyed parsed => exact absurd parsed (unkeyed key metadata keyed)
    · exact ⟨_, put⟩
  · push Not at unkeyed
    rcases unkeyed with ⟨key, metadata, keyed, parsed⟩
    rw [keyed, parsed]
    dsimp only
    cases handle : request.handle with
    | inMemory =>
        rw [populate_inMemory keyed parsed handle] at put
        exact ⟨_, put⟩
    | traitObject =>
        rw [populate_traitObject keyed parsed handle] at put
        rw [putCrlIfNotRollback_eq]
        change ∃ basis, StepsTo der request _
          ((if isRollback (store key) metadata.crlNumber then (store, false)
            else (putCrl store key (metadata.withBytes bytes), true)).1, _)
        cases rollsBack : isRollback (store key) metadata.crlNumber with
        | true =>
            rw [rollsBack] at put
            exact ⟨_, put⟩
        | false =>
            rw [rollsBack] at put
            exact ⟨_, put.trans (StepsTo.step (.error "not asked") _)⟩

/-- Alone, the steps of a call from its URLs come to the loop over them. -/
theorem read_steps {urls failures : List String} {attempt : Nat} :
    ∃ basis, StepsTo der request (store, .atUrls urls failures)
      (((crlReader der network request).read attempt store urls failures).2,
        .answered (crlOutcome der request
          ((crlReader der network request).read attempt store urls failures).1) basis) := by
  induction urls generalizing store failures attempt with
  | nil => exact ⟨_, StepsTo.step (.error "not asked") _⟩
  | cons url rest ih =>
      have consulted := @consult_steps der store request network url rest failures
      unfold Reader.read
      cases looked : (crlReader der network request).consult store url failures with
      | ok reading =>
          rw [looked] at consulted
          exact consulted
      | error left =>
          rw [looked] at consulted
          dsimp only at consulted ⊢
          have asked := consulted.trans (StepsTo.step (network attempt url) _)
          dsimp only [advance] at asked
          cases fetched : network attempt url with
          | error text =>
              have failed : (crlReader der network request).fetch attempt url = .error text :=
                fetched
              rw [fetched] at asked
              rw [failed]
              rcases @ih left.1 (left.2 ++ [url ++ ": " ++ text]) (attempt + 1) with ⟨basis, later⟩
              exact ⟨basis, asked.trans later⟩
          | ok bytes =>
              have answered : (crlReader der network request).fetch attempt url = .ok bytes :=
                fetched
              rw [fetched] at asked
              dsimp only [receive] at asked
              rw [answered]
              dsimp only
              cases built : buildChecker der request bytes with
              | ok checker =>
                  have accepted : (crlReader der network request).accept bytes = .ok checker :=
                    built
                  rw [built] at asked
                  rw [accepted]
                  rcases @populate_steps der left.1 request url bytes checker with ⟨basis, put⟩
                  exact ⟨basis, asked.trans put⟩
              | error failure =>
                  have refused : (crlReader der network request).accept bytes = .error failure :=
                    built
                  rw [built] at asked
                  rw [refused]
                  rcases @ih left.1 (left.2 ++ [url ++ ": CRL parse: " ++ der.describe failure])
                    (attempt + 1) with ⟨basis, later⟩
                  exact ⟨basis, asked.trans later⟩

theorem call_steps :
    ∃ basis, StepsTo der request (store, beginCall der request)
      ((cachedCrl der network store request).2,
        .answered (cachedCrl der network store request).1.outcome basis) := by
  unfold beginCall cachedCrl
  cases extracted : der.extractCdpHttpUrls request.cert with
  | error text => exact ⟨_, StepsTo.refl _⟩
  | ok urls =>
      cases urls with
      | nil => exact ⟨_, StepsTo.refl _⟩
      | cons url rest => exact read_steps

end Alone

section Runs

variable {der : HttpCodec} {system : System} {request : Request} {id : Nat}

theorem run_append (first later : List Action) :
    run der system (first ++ later) = run der (run der system first) later :=
  List.foldl_append

theorem run_proceeds {responses : List (Except String Bytes)} {progress : Progress}
    (running : system.calls id = some ⟨request, progress⟩) :
    run der system (responses.map (.proceed id)) =
      { store := (advanceAll der request responses (system.store, progress)).1
        calls := Function.update system.calls id
          (some ⟨request, (advanceAll der request responses (system.store, progress)).2⟩) } := by
  induction responses generalizing system progress with
  | nil =>
      have same : Function.update system.calls id (some ⟨request, progress⟩) = system.calls := by
        rw [← running, Function.update_eq_self]
      dsimp only [advanceAll, List.foldl]
      rw [same]
      rfl
  | cons response responses ih =>
      have stepped : (perform der system (.proceed id response)).calls id =
          some ⟨request, (advance der response system.store request progress).2⟩ := by
        rw [perform_proceed running]
        exact Function.update_self _ _ _
      have rest := ih stepped
      rw [perform_proceed running] at rest
      dsimp only at rest
      rw [Function.update_idem] at rest
      rw [← perform_proceed running] at rest
      exact rest

/-- A call that no other interrupts answers as the loop of its fetcher does. -/
theorem run_call (network : CrlNetwork) (free : system.calls id = none) :
    ∃ actions basis, run der system actions =
      { store := (cachedCrl der network system.store request).2
        calls := Function.update system.calls id (some ⟨request,
          .answered (cachedCrl der network system.store request).1.outcome basis⟩) } := by
  rcases @call_steps der system.store request network with ⟨basis, responses, reached⟩
  refine ⟨.begin id request :: responses.map (.proceed id), basis, ?_⟩
  have begun : perform der system (.begin id request) =
      { store := system.store
        calls := Function.update system.calls id (some ⟨request, beginCall der request⟩) } := by
    unfold perform
    dsimp only
    rw [free]
  have running : (perform der system (.begin id request)).calls id =
      some ⟨request, beginCall der request⟩ := by
    rw [begun]
    exact Function.update_self _ _ _
  have proceeded := @run_proceeds der _ request id responses _ running
  rw [begun] at proceeded
  dsimp only at proceeded
  rw [Function.update_idem, reached] at proceeded
  rw [← begun] at proceeded
  exact proceeded

/-- Calls one after the other are a run of the shared cache. -/
theorem serveCrl_run {calls : List CrlCall} {first : Nat}
    (free : ∀ id, first ≤ id → system.calls id = none) :
    ∃ actions, (run der system actions).store = (serveCrl der system.store calls).2 ∧
      (∀ id, id < first → (run der system actions).calls id = system.calls id) ∧
      ∀ position call answer, calls[position]? = some call →
        (serveCrl der system.store calls).1[position]? = some answer →
        ∃ basis, (run der system actions).calls (first + position) =
          some ⟨call.request, .answered answer.outcome basis⟩ := by
  induction calls generalizing system first with
  | nil => exact ⟨[], rfl, fun _ _ => rfl, fun _ _ _ listed => nomatch listed⟩
  | cons call calls ih =>
      rcases @run_call der system call.request first call.network (free first le_rfl) with
        ⟨actions, basis, answered⟩
      have freeAfter : ∀ id, first + 1 ≤ id → (run der system actions).calls id = none := by
        intro id after
        rw [answered]
        dsimp only
        rw [Function.update_of_ne (by omega)]
        exact free id (by omega)
      rcases ih freeAfter with ⟨later, store, kept, answers⟩
      have sameStore : (run der system actions).store =
          (cachedCrl der call.network system.store call.request).2 := by rw [answered]
      rw [sameStore] at store answers
      refine ⟨actions ++ later, ?_, ?_, ?_⟩
      · rw [run_append]
        exact store
      · intro id before
        rw [run_append, kept id (by omega), answered]
        exact Function.update_of_ne (by omega) _ _
      · intro position other answer listed given
        rw [run_append]
        cases position with
        | zero =>
            cases listed
            cases given
            refine ⟨basis, ?_⟩
            rw [Nat.add_zero, kept first (by omega), answered]
            exact Function.update_self _ _ _
        | succ position =>
            rcases answers position other answer listed given with ⟨basis, isAnswered⟩
            refine ⟨basis, ?_⟩
            rw [← isAnswered]
            congr 1
            omega

end Runs

end Pkix.RevocationHttp
