import Mathlib.Data.List.Chain
import Pkix.PathBuilder.SearchOrder

/-! The answers of a whole sequence of calls, and which paths they are. -/

namespace Pkix.PathBuilder

open Pkix.Path DepthFirst

namespace PathCandidates

variable {der : BuilderCodec} {target : Certificate} {pool : List Certificate}
variable {anchors : List TrustAnchor} {limit : Nat} {state next : PathCandidates}
variable {remaining : List (List Nat)} {needed : Nat}

theorem Answered.later {mid : PathCandidates} {needed' : Nat} {item : Item}
    (answered : Answered der target pool anchors limit mid next needed' remaining item)
    (spent : state.budget + needed' = mid.budget + needed) (same : mid.done = state.done) :
    Answered der target pool anchors limit state next needed remaining item := by
  cases answered with
  | path tracks paid busy => exact .path tracks (by omega) (busy.trans same)
  | exhausted closed enough => exact .exhausted closed (by omega)
  | overBudget closed short => exact .overBudget closed (by omega)

theorem Tracks.loop {turns : Nat} {item : Item}
    (tracks : Tracks der target pool anchors limit state remaining needed)
    (returned : loopWithin der turns state = some (.returned item next)) :
    Answered der target pool anchors limit state next needed remaining item := by
  have kept : ∀ mid next, mid.Paired →
      (∃ left, Tracks der target pool anchors limit mid remaining left ∧
        state.budget + left = mid.budget + needed ∧ mid.done = state.done) →
      turn der mid = .again next →
      ∃ left, Tracks der target pool anchors limit next remaining left ∧
        state.budget + left = next.budget + needed ∧ next.done = state.done := by
    intro mid next midPaired midTracks turned
    rcases midTracks with ⟨left, here, spent, same⟩
    rcases here.again turned with ⟨nextLeft, nextTracks, nextSpent⟩
    exact ⟨nextLeft, nextTracks, by omega, (done_again midPaired turned).trans same⟩
  rcases loopWithin_answers kept tracks.paired ⟨needed, tracks, rfl, rfl⟩ returned with
    ⟨last, _, ⟨left, lastTracks, spent, same⟩, turned⟩
  exact (lastTracks.answer turned).later spent same

theorem Tracks.started (tracks : Tracks der target pool anchors limit state remaining needed) :
    Tracks der target pool anchors limit { state with started := true } remaining needed := by
  refine ⟨tracks.paired.started, tracks.samePool, tracks.sameAnchors, tracks.sameLimit, ?_⟩
  cases tracks.left with
  | exploring opened path => exact .exploring opened path
  | fresh opened grown within frames path => exact .fresh opened grown within frames path
  | yielded opened grown flagged frames path => exact .yielded opened grown flagged frames path

theorem Tracks.call {turns : Nat} {item : Item}
    (tracks : Tracks der target pool anchors limit state remaining needed)
    (busy : state.done = false)
    (returned : nextWithin der turns state = some (.returned item next)) :
    Answered der target pool anchors limit state next needed remaining item := by
  rw [nextWithin_busy turns busy] at returned
  exact (tracks.started.loop returned).later rfl rfl

theorem tracks_new (der : BuilderCodec) (target : Certificate) (pool : List Certificate)
    (anchors : List TrustAnchor) (config : PathBuilderConfig) :
    Tracks der target pool anchors config.maxDepth (new target pool anchors config)
      (naivePaths der target pool anchors config) (naiveVisits der target pool anchors config) := by
  refine ⟨paired_new target pool anchors config, rfl, rfl, rfl, ?_⟩
  have fresh : Left der target pool anchors config.maxDepth (new target pool anchors config)
      (pathsFrom der target pool anchors config.maxDepth [] ++ []) _ :=
    .fresh .nil rfl (Nat.zero_le _) rfl rfl
  rw [List.append_nil] at fresh
  exact fresh

/-- As long as no call reports an exhausted budget, the answers are the remaining paths in
order, and nothing from then on. -/
theorem Tracks.calls {final : PathCandidates} {items : List Item}
    (tracks : Tracks der target pool anchors limit state remaining needed)
    (busy : state.done = false) (calls : Calls der state items final)
    (within : some (.error .budgetExceeded) ∉ items) (position : Nat) (item : Item)
    (located : items[position]? = some item) :
    item = remaining[position]?.map (fun indices => .ok (chainOf target pool indices)) := by
  induction calls generalizing remaining needed position with
  | none => simp at located
  | @next state mid final turns first items returned rest ih =>
      have restWithin : some (.error .budgetExceeded) ∉ items :=
        fun listed => within (List.mem_cons_of_mem _ listed)
      cases tracks.call busy returned with
      | path midTracks _ same =>
          cases position with
          | zero =>
              cases located
              rfl
          | succ position =>
              exact ih midTracks (same.trans busy) restWithin position located
      | exhausted closed =>
          rw [List.getElem?_nil, Option.map_none]
          cases position with
          | zero =>
              cases located
              rfl
          | succ position =>
              exact calls_done rest closed item (List.mem_of_getElem? located)
      | overBudget => exact absurd List.mem_cons_self within

/-- The budget is exhausted by no call when it covers every frame of the search. -/
theorem Tracks.calls_within {final : PathCandidates} {items : List Item}
    (tracks : Tracks der target pool anchors limit state remaining needed)
    (busy : state.done = false) (calls : Calls der state items final)
    (enough : needed ≤ state.budget) : some (.error .budgetExceeded) ∉ items := by
  induction calls generalizing remaining needed with
  | none => simp
  | @next state mid final turns first items returned rest ih =>
      cases tracks.call busy returned with
      | path midTracks spent same =>
          have later := ih midTracks (same.trans busy) (by omega)
          simpa using later
      | exhausted closed =>
          intro listed
          rcases List.mem_cons.mp listed with first | later
          · cases first
          · cases calls_done rest closed _ later
      | overBudget _ short => omega

end PathCandidates

section Paths

variable {der : BuilderCodec} {target : Certificate} {pool : List Certificate}
variable {anchors : List TrustAnchor} {config : PathBuilderConfig}

def issuedBy (cert issuer : Certificate) : Prop :=
  namesMatch issuer.tbsCertificate.subject cert.tbsCertificate.issuer = true

instance : DecidableRel issuedBy := fun _ _ => inferInstanceAs (Decidable (_ = true))

/-- A chain in which the keys of any two certificates differ, in the sense given. -/
structure TopologicallyValid (der : BuilderCodec) (differ : Certificate → Certificate → Prop)
    (chain : List Certificate) : Prop where
  linked : chain.IsChain issuedBy
  issuersAreCas : ∀ cert ∈ chain.tail, certIsCa der cert = true
  keysDiffer : chain.Pairwise differ

structure CertificationPath (der : BuilderCodec) (target : Certificate)
    (pool : List Certificate) (anchors : List TrustAnchor) (config : PathBuilderConfig)
    (differ : Certificate → Certificate → Prop) (indices : List Nat) : Prop where
  pooled : ∀ idx ∈ indices, idx < pool.length
  short : indices.length ≤ config.maxDepth
  valid : TopologicallyValid der differ (chainOf target pool indices)
  anchored : endsAtAnchor target pool anchors indices = true
  notBefore : ∀ count < indices.length,
    endsAtAnchor target pool anchors (indices.take count) = false

def differentKeys (a b : Certificate) : Prop := sameKey a b = false

instance : DecidableRel differentKeys := fun _ _ => inferInstanceAs (Decidable (_ = false))

theorem mem_issuers_iff {indices : List Nat} {idx : Nat} :
    idx ∈ issuers der target pool indices ↔
      ∃ cert, pool[idx]? = some cert ∧ issuedBy (lastCert target pool indices) cert ∧
        certIsCa der cert = true ∧
        ∀ inPath ∈ chainOf target pool indices, differentKeys inPath cert := by
  unfold issuers issuersFrom
  rw [List.drop_zero, List.mem_filter, List.mem_map]
  constructor
  · intro ⟨⟨entry, ranked, sameIdx⟩, fit⟩
    rcases mem_rankCandidates_iff.mp ranked with ⟨cert, located, matched, _⟩
    rw [sameIdx] at located
    rw [located, Option.any_some, PathCandidates.fits, Bool.and_eq_true] at fit
    refine ⟨cert, located, matched, fit.1, ?_⟩
    simpa [spkiAlreadyInPath, differentKeys] using fit.2
  · intro ⟨cert, located, matched, isCa, fresh⟩
    have unseen : spkiAlreadyInPath cert (chainOf target pool indices) = false := by
      simpa [spkiAlreadyInPath, differentKeys] using fresh
    refine ⟨⟨(tierOf der (certAkiKeyId der (lastCert target pool indices)) cert, idx),
      mem_rankCandidates_iff.mpr ⟨cert, located, matched, rfl⟩, rfl⟩, ?_⟩
    rw [located, Option.any_some, PathCandidates.fits, isCa, unseen]
    rfl

theorem getLast?_chainOf (indices : List Nat) :
    (chainOf target pool indices).getLast? = some (lastCert target pool indices) :=
  List.getLast?_eq_some_getLast _

theorem chainOf_tail_append {indices : List Nat} {idx : Nat} {cert : Certificate}
    (pooled : pool[idx]? = some cert) :
    (chainOf target pool (indices ++ [idx])).tail =
      (chainOf target pool indices).tail ++ [cert] := by
  simp [chainOf, pooled]

/-- Adding a certificate keeps a chain valid exactly when it is one of the issuers to try. -/
theorem valid_append_iff {indices : List Nat} {idx : Nat} (inRange : idx < pool.length) :
    TopologicallyValid der differentKeys (chainOf target pool (indices ++ [idx])) ↔
      TopologicallyValid der differentKeys (chainOf target pool indices) ∧
        idx ∈ issuers der target pool indices := by
  have pooled := List.getElem?_eq_getElem inRange
  have split := @chainOf_append target pool indices idx _ pooled
  rw [mem_issuers_iff]
  constructor
  · intro ⟨linked, cas, keys⟩
    rw [split] at linked keys
    rw [chainOf_tail_append pooled] at cas
    rw [List.isChain_append] at linked
    rw [List.pairwise_append] at keys
    refine ⟨⟨linked.1, fun cert listed => cas cert (by simp [listed]), keys.1⟩,
      pool[idx], pooled, ?_, cas _ (by simp), fun inPath listed => keys.2.2 _ listed _ (by simp)⟩
    exact linked.2.2 _ (getLast?_chainOf indices) _ rfl
  · intro ⟨⟨linked, cas, keys⟩, cert, located, issued, isCa, fresh⟩
    rw [pooled] at located
    cases located
    refine ⟨?_, ?_, ?_⟩
    · rw [split, List.isChain_append]
      refine ⟨linked, List.isChain_singleton _, ?_⟩
      intro last isLast issuer isIssuer
      rw [getLast?_chainOf] at isLast
      cases isLast
      cases isIssuer
      exact issued
    · rw [chainOf_tail_append pooled]
      intro cert listed
      rcases List.mem_append.mp listed with inner | isLast
      · exact cas cert inner
      · rw [List.mem_singleton.mp isLast]
        exact isCa
    · rw [split, List.pairwise_append]
      refine ⟨keys, List.pairwise_singleton _ _, ?_⟩
      intro inPath listed cert isLast
      rw [List.mem_singleton.mp isLast]
      exact fresh inPath listed

theorem issuers_inRange {indices : List Nat} {idx : Nat}
    (listed : idx ∈ issuers der target pool indices) : idx < pool.length := by
  rcases mem_issuers_iff.mp listed with ⟨_, located, _⟩
  exact (List.getElem?_eq_some_iff.mp located).1

theorem valid_nil : TopologicallyValid der differentKeys (chainOf target pool []) :=
  ⟨List.isChain_singleton _, by simp [chainOf], List.pairwise_singleton _ _⟩

/-- The walk of the plain search from the target, as a property of the whole path. -/
theorem admits_iff {indices : List Nat} :
    Admits (endsAtAnchor target pool anchors) (issuers der target pool) [] indices ↔
      (∀ idx ∈ indices, idx < pool.length) ∧
        TopologicallyValid der differentKeys (chainOf target pool indices) ∧
        ∀ count < indices.length, endsAtAnchor target pool anchors (indices.take count) = false := by
  induction indices using List.reverseRecOn with
  | nil => simp [admits_nil, valid_nil]
  | append_singleton indices idx ih =>
      rw [admits_concat_iff, ih, List.nil_append]
      constructor
      · intro ⟨⟨pooled, valid, notBefore⟩, incomplete, offered⟩
        have inRange := issuers_inRange offered
        refine ⟨?_, (valid_append_iff inRange).mpr ⟨valid, offered⟩, ?_⟩
        · simpa [or_imp, forall_and] using ⟨pooled, inRange⟩
        · intro count within
          rw [List.length_append, List.length_singleton] at within
          rcases Nat.lt_succ_iff_lt_or_eq.mp within with inner | atEnd
          · rw [List.take_append_of_le_length (Nat.le_of_lt inner)]
            exact notBefore count inner
          · rw [atEnd, List.take_left]
            exact incomplete
      · intro ⟨pooled, valid, notBefore⟩
        have inRange := pooled idx (by simp)
        rcases (valid_append_iff inRange).mp valid with ⟨inner, offered⟩
        have last := notBefore indices.length (by simp)
        rw [List.take_left] at last
        refine ⟨⟨fun other listed => pooled other (by simp [listed]), inner, ?_⟩, last, offered⟩
        intro count within
        have early := notBefore count (by simp; omega)
        rwa [List.take_append_of_le_length (Nat.le_of_lt within)] at early

theorem mem_naivePaths_iff {indices : List Nat} :
    indices ∈ naivePaths der target pool anchors config ↔
      CertificationPath der target pool anchors config differentKeys indices := by
  unfold naivePaths
  rw [mem_enumerate_iff]
  constructor
  · intro ⟨tail, same, short, ends, admits⟩
    rw [List.nil_append] at same
    subst same
    rcases admits_iff.mp admits with ⟨pooled, valid, notBefore⟩
    exact ⟨pooled, short, valid, ends, notBefore⟩
  · intro ⟨pooled, short, valid, ends, notBefore⟩
    exact ⟨indices, rfl, short, ends, admits_iff.mpr ⟨pooled, valid, notBefore⟩⟩

theorem filterMap_sublist_map {α β : Type} {f : α → Option β} {g : α → β}
    (agree : ∀ item value, f item = some value → value = g item) (items : List α) :
    (items.filterMap f).Sublist (items.map g) := by
  induction items with
  | nil => exact .slnil
  | cons item items ih =>
      cases kept : f item with
      | none =>
          rw [List.filterMap_cons_none kept]
          exact ih.cons _
      | some value =>
          rw [List.filterMap_cons_some kept, agree item value kept]
          exact ih.cons_cons _

theorem rankCandidates_nodup (cur : Certificate) :
    ((rankCandidates der cur pool).map (·.2)).Nodup := by
  have order : ((rankCandidates der cur pool).map (·.2)).Perm
      ((pool.zipIdx.filterMap (fun entry =>
        if namesMatch entry.1.tbsCertificate.subject cur.tbsCertificate.issuer then
          some (tierOf der (certAkiKeyId der cur) entry.1, entry.2)
        else none)).map (·.2)) := (List.perm_insertionSort _ _).map _
  rw [order.nodup_iff, List.map_filterMap]
  have positions : (pool.zipIdx.map (·.2)).Nodup := by
    rw [List.zipIdx_map_snd]
    exact List.nodup_range' _
  refine List.Nodup.sublist (filterMap_sublist_map ?_ _) positions
  intro entry idx kept
  split at kept <;> cases kept
  rfl

theorem naivePaths_nodup : (naivePaths der target pool anchors config).Nodup :=
  nodup_enumerate (fun _ => (rankCandidates_nodup _).filter _) _ _

/-- As long as the budget lasts, the answers are the paths of the plain search in its order,
then nothing: each index sequence once, and exactly those of the certification paths. -/
theorem search_yields_paths {items : List Item} {final : PathCandidates}
    (calls : PathCandidates.Calls der (.new target pool anchors config) items final)
    (within : some (.error .budgetExceeded) ∉ items) :
    (∀ (position : Nat) (item : Item), items[position]? = some item →
      item = (naivePaths der target pool anchors config)[position]?.map
        (fun indices => .ok (chainOf target pool indices))) ∧
    (naivePaths der target pool anchors config).Nodup ∧
    ∀ indices, indices ∈ naivePaths der target pool anchors config ↔
      CertificationPath der target pool anchors config differentKeys indices := by
  refine ⟨?_, naivePaths_nodup, fun indices => mem_naivePaths_iff⟩
  intro position item located
  exact (PathCandidates.tracks_new der target pool anchors config).calls rfl calls within
    position item located

/-- The budget lasts for every sequence of calls when it covers the plain search. -/
theorem search_within_budget {items : List Item} {final : PathCandidates}
    (calls : PathCandidates.Calls der (.new target pool anchors config) items final)
    (enough : naiveVisits der target pool anchors config ≤ config.dfsBudget) :
    some (.error .budgetExceeded) ∉ items :=
  (PathCandidates.tracks_new der target pool anchors config).calls_within rfl calls enough

end Paths

namespace Concrete

open Pkix.Path.Concrete PathCandidates

def rsaKey (parameters : Option Any) : SubjectPublicKeyInfo :=
  { algorithm := ⟨oidRsaEncryption, parameters⟩, subjectPublicKey := ⟨0, [7]⟩ }

def withKey (cert : Certificate) (spki : SubjectPublicKeyInfo) : Certificate :=
  { cert with tbsCertificate := { cert.tbsCertificate with subjectPublicKeyInfo := spki } }

/-- One RSA key, with NULL parameters here and without parameters in its issuer. -/
def nullTarget : Certificate :=
  withKey (issue 2 (commonName [66]) (commonName [67]) [4] [7] []) (rsaKey (some ⟨.other 5, []⟩))

def bareIssuer : Certificate :=
  withKey (issue 1 (commonName [65]) (commonName [66]) [1] [7] [caExtension]) (rsaKey none)

def twinSearch : PathCandidates := .new nullTarget [bareIssuer] rootAnchors .new

/-- A path with pairwise different key infos that the search does not yield: it takes the
two encodings for one key. -/
theorem twinKeys_skipped :
    CertificationPath caCodec nullTarget [bareIssuer] rootAnchors .new
      (fun a b => a.tbsCertificate.subjectPublicKeyInfo ≠ b.tbsCertificate.subjectPublicKeyInfo)
      [0] ∧
    nextWithin caCodec 10 twinSearch =
      some (.returned none { twinSearch with
        path := [], frames := [], budget := 9999, started := true, done := true }) := by
  refine ⟨⟨by decide, by decide, ⟨by decide +kernel, by decide +kernel, by decide +kernel⟩,
    by decide +kernel, by decide +kernel⟩, by decide +kernel⟩

def resumed (state : PathCandidates) : PathCandidates :=
  match nextWithin caCodec 20 state with
  | some (.returned _ next) => next
  | _ => state

def crossedAnswers : List Item := [some (.ok (leafCert :: crossedPool.take 2)), none]

theorem crossedSearch_calls :
    Calls caCodec crossedSearch crossedAnswers (resumed (resumed crossedSearch)) := by
  have first : nextWithin caCodec 20 crossedSearch =
      some (.returned (some (.ok (leafCert :: crossedPool.take 2))) (resumed crossedSearch)) := by
    decide +kernel
  have second : nextWithin caCodec 20 (resumed crossedSearch) =
      some (.returned none (resumed (resumed crossedSearch))) := by
    decide +kernel
  exact .next first (.next second (.none _))

theorem crossedSearch_yields :
    (∀ (position : Nat) (item : Item), crossedAnswers[position]? = some item →
      item = (naivePaths caCodec leafCert crossedPool rootAnchors .new)[position]?.map
        (fun indices => .ok (chainOf leafCert crossedPool indices))) ∧
    CertificationPath caCodec leafCert crossedPool rootAnchors .new differentKeys [0, 1] := by
  have yields := search_yields_paths crossedSearch_calls (by decide +kernel)
  exact ⟨yields.1, (yields.2.2 [0, 1]).mp (by decide +kernel)⟩

end Concrete

end Pkix.PathBuilder
