import Pkix.Lib.DepthFirst
import Pkix.PathBuilder.SearchRuns

/-! The iterator refines the plain depth-first search. A path is given by the pool indices of
its certificates after the target. -/

namespace Pkix.PathBuilder

open Pkix.Path DepthFirst

section Plain

variable (der : BuilderCodec) (target : Certificate) (pool : List Certificate)
variable (anchors : List TrustAnchor)

def chainOf (indices : List Nat) : List Certificate :=
  target :: indices.filterMap (fun idx => pool[idx]?)

def lastCert (indices : List Nat) : Certificate :=
  (chainOf target pool indices).getLast (List.cons_ne_nil _ _)

def endsAtAnchor (indices : List Nat) : Bool :=
  issuerIsAnchor anchors (lastCert target pool indices)

/-- The issuers left to try once the cursor has passed some of the ranking. -/
def issuersFrom (indices : List Nat) (cursor : Nat) : List Nat :=
  (((rankCandidates der (lastCert target pool indices) pool).drop cursor).map (·.2)).filter
    (fun idx => (pool[idx]?).any (PathCandidates.fits der (chainOf target pool indices)))

def issuers (indices : List Nat) : List Nat := issuersFrom der target pool indices 0

/-- The plain recursive search. -/
def naivePaths (config : PathBuilderConfig) : List (List Nat) :=
  enumerate (endsAtAnchor target pool anchors) (issuers der target pool) config.maxDepth []

def naiveVisits (config : PathBuilderConfig) : Nat :=
  visits (endsAtAnchor target pool anchors) (issuers der target pool) config.maxDepth []

abbrev pathsFrom (limit : Nat) (indices : List Nat) : List (List Nat) :=
  enumerate (endsAtAnchor target pool anchors) (issuers der target pool)
    (limit - indices.length) indices

abbrev visitsFrom (limit : Nat) (indices : List Nat) : Nat :=
  visits (endsAtAnchor target pool anchors) (issuers der target pool)
    (limit - indices.length) indices

abbrev pathsLeft (limit : Nat) (levels : List (Level Nat)) : List (List Nat) :=
  agendaPaths (endsAtAnchor target pool anchors) (issuers der target pool) limit levels

abbrev visitsLeft (limit : Nat) (levels : List (Level Nat)) : Nat :=
  agendaVisits (endsAtAnchor target pool anchors) (issuers der target pool) limit levels

end Plain

section ChainFacts

variable {der : BuilderCodec} {target : Certificate} {pool : List Certificate}
variable {indices : List Nat} {cursor : Nat}

theorem chainOf_append {idx : Nat} {cert : Certificate} (pooled : pool[idx]? = some cert) :
    chainOf target pool (indices ++ [idx]) = chainOf target pool indices ++ [cert] := by
  simp [chainOf, pooled]

theorem lastCert_of_split {below : List Certificate} {cur : Certificate}
    (split : chainOf target pool indices = below ++ [cur]) :
    lastCert target pool indices = cur := by
  have nonempty : chainOf target pool indices ≠ [] := List.cons_ne_nil _ _
  have last : (chainOf target pool indices).getLast? = some cur := by simp [split]
  rw [List.getLast?_eq_some_getLast nonempty] at last
  exact Option.some.inj last

theorem issuersFrom_spent
    (spent : (rankCandidates der (lastCert target pool indices) pool).length ≤ cursor) :
    issuersFrom der target pool indices cursor = [] := by
  simp [issuersFrom, List.drop_eq_nil_of_le spent]

theorem issuersFrom_succ {tier idx : Nat} {candidate : Certificate}
    (located : (rankCandidates der (lastCert target pool indices) pool)[cursor]? =
      some (tier, idx)) (pooled : pool[idx]? = some candidate) :
    issuersFrom der target pool indices cursor =
      if PathCandidates.fits der (chainOf target pool indices) candidate = true then
        idx :: issuersFrom der target pool indices (cursor + 1)
      else issuersFrom der target pool indices (cursor + 1) := by
  rcases List.getElem?_eq_some_iff.mp located with ⟨bound, same⟩
  unfold issuersFrom
  rw [List.drop_eq_getElem_cons bound, same, List.map_cons, List.filter_cons, pooled]
  rfl

end ChainFacts

namespace PathCandidates

section Simulation

variable (der : BuilderCodec) (target : Certificate) (pool : List Certificate)
variable (anchors : List TrustAnchor) (limit : Nat)

/-- `indices` is one issuer longer than the path of the level below it. -/
def Grown (indices : List Nat) : List (Level Nat) → Prop
  | [] => indices = []
  | level :: _ => ∃ idx cert, pool[idx]? = some cert ∧ indices = level.path ++ [idx]

/-- The frames past their anchor check, bottom first, with the levels they stand for. -/
inductive Opened : List Frame → List (Level Nat) → Prop
  | nil : Opened [] []
  | cons {lower : List Frame} {levels : List (Level Nat)} {indices : List Nat} {cursor : Nat}
      (below : Opened lower levels) (grown : Grown pool indices levels)
      (within : indices.length < limit) :
      Opened
        (lower ++ [{ ranked := some (rankCandidates der (lastCert target pool indices) pool)
                     cursor, anchorChecked := true, anchorYielded := false }])
        (⟨indices, issuersFrom der target pool indices cursor⟩ :: levels)

/-- The certificates of the path the top level extends. -/
def chainAt : List (Level Nat) → List Certificate
  | [] => []
  | level :: _ => chainOf target pool level.path

/-- What the iterator has still to yield, and the frames it has still to enter for that. -/
inductive Left (state : PathCandidates) : List (List Nat) → Nat → Prop
  | exploring {levels : List (Level Nat)}
      (opened : Opened der target pool limit state.frames levels)
      (path : state.path = chainAt target pool levels) :
      Left state (pathsLeft der target pool anchors limit levels)
        (visitsLeft der target pool anchors limit levels)
  | fresh {lower : List Frame} {levels : List (Level Nat)} {indices : List Nat}
      (opened : Opened der target pool limit lower levels)
      (grown : Grown pool indices levels) (within : indices.length ≤ limit)
      (frames : state.frames = lower ++ [Frame.new])
      (path : state.path = chainOf target pool indices) :
      Left state
        (pathsFrom der target pool anchors limit indices ++
          pathsLeft der target pool anchors limit levels)
        (visitsFrom der target pool anchors limit indices +
          visitsLeft der target pool anchors limit levels)
  | yielded {lower : List Frame} {levels : List (Level Nat)} {indices : List Nat} {top : Frame}
      (opened : Opened der target pool limit lower levels)
      (grown : Grown pool indices levels) (flagged : top.anchorYielded = true)
      (frames : state.frames = lower ++ [top]) (path : state.path = chainOf target pool indices) :
      Left state (pathsLeft der target pool anchors limit levels)
        (visitsLeft der target pool anchors limit levels)

end Simulation

section Steps

variable {der : BuilderCodec} {target : Certificate} {pool : List Certificate}
variable {anchors : List TrustAnchor} {limit : Nat} {state next : PathCandidates}
variable {lower : List Frame} {levels : List (Level Nat)} {indices : List Nat}

theorem chainOf_dropLast (grown : Grown pool indices levels) :
    (chainOf target pool indices).dropLast = chainAt target pool levels := by
  cases levels with
  | nil =>
      have empty : indices = [] := grown
      subst empty
      rfl
  | cons level levels =>
      rcases grown with ⟨idx, cert, pooled, same⟩
      rw [same, chainOf_append pooled, List.dropLast_concat]
      rfl

theorem Opened.length_eq (opened : Opened der target pool limit lower levels) :
    lower.length = levels.length := by
  induction opened with
  | nil => rfl
  | cons _ _ _ ih => simp [ih]

theorem Opened.grown_length (opened : Opened der target pool limit lower levels)
    (grown : Grown pool indices levels) : indices.length = lower.length := by
  induction opened generalizing indices with
  | nil =>
      have empty : indices = [] := grown
      simp [empty]
  | cons below inner _ ih =>
      rcases grown with ⟨idx, cert, _, same⟩
      rw [same, List.length_append, List.length_append, ih inner]
      rfl

theorem Left.pop (opened : Opened der target pool limit lower levels)
    (grown : Grown pool indices levels) {top : Frame} (frames : state.frames = lower ++ [top])
    (path : state.path = chainOf target pool indices) :
    Left der target pool anchors limit state.pop (pathsLeft der target pool anchors limit levels)
      (visitsLeft der target pool anchors limit levels) := by
  apply Left.exploring
  · simpa [PathCandidates.pop, frames] using opened
  · simp only [PathCandidates.pop, path]
    exact chainOf_dropLast grown

/-- The part below the anchor check, from a top frame whose ranking is that of its
certificate. -/
theorem Left.explore {top : Frame} {below : List Certificate} {cur : Certificate}
    (samePool : state.pool = pool) (sameLimit : state.maxDepth = limit)
    (opened : Opened der target pool limit lower levels) (grown : Grown pool indices levels)
    (tops : state.Tops lower top below cur) (path : state.path = chainOf target pool indices)
    (checked : top.anchorChecked = true) (notYielded : top.anchorYielded = false)
    (ranked : ranking der state top cur =
      rankCandidates der (lastCert target pool indices) pool)
    (within : indices.length < limit) (explores : Explores der state lower top cur next) :
    Left der target pool anchors limit next
      (pathsLeft der target pool anchors limit
        (⟨indices, issuersFrom der target pool indices top.cursor⟩ :: levels))
      (visitsLeft der target pool anchors limit
        (⟨indices, issuersFrom der target pool indices top.cursor⟩ :: levels)) := by
  have height := opened.grown_length grown
  have moved : Opened der target pool limit (advanced der state top cur).frames
      (⟨indices, issuersFrom der target pool indices (top.cursor + 1)⟩ :: levels) := by
    have shape : (advanced der state top cur).frames = lower ++
        [{ ranked := some (rankCandidates der (lastCert target pool indices) pool)
           cursor := top.cursor + 1, anchorChecked := true, anchorYielded := false }] := by
      simp [advanced, setTop, tops.frames, ranked, checked, notYielded]
    rw [shape]
    exact .cons opened grown within
  cases explores with
  | tooDeep deep => omega
  | exhausted _ spent =>
      rw [ranked] at spent
      rw [issuersFrom_spent spent]
      unfold pathsLeft visitsLeft
      rw [agendaPaths_done, agendaVisits_done]
      exact Left.pop opened grown tops.frames path
  | skipped tier idx candidate _ located pooled unfit =>
      rw [ranked] at located
      rw [samePool] at pooled
      rw [path] at unfit
      rw [issuersFrom_succ located pooled, unfit]
      exact .exploring moved path
  | pushed tier idx candidate _ located pooled fit =>
      rw [ranked] at located
      rw [samePool] at pooled
      rw [path] at fit
      rw [issuersFrom_succ located pooled, fit]
      unfold pathsLeft visitsLeft
      simp only [if_true]
      rw [agendaPaths_choose, agendaVisits_choose]
      have deeper : limit - (indices.length + 1) = limit - (indices ++ [idx]).length := by simp
      rw [deeper]
      apply Left.fresh moved ⟨idx, candidate, pooled, rfl⟩
      · simp only [List.length_append, List.length_singleton]
        omega
      · rfl
      · rw [chainOf_append pooled, ← path]
        rfl

/-- The three things the top frame can be. -/
inductive TopLeft (der : BuilderCodec) (target : Certificate) (pool : List Certificate)
    (anchors : List TrustAnchor) (limit : Nat) (state : PathCandidates) (lower : List Frame)
    (top : Frame) : List (List Nat) → Nat → Prop
  | exploring {levels : List (Level Nat)} {indices : List Nat}
      (opened : Opened der target pool limit lower levels) (grown : Grown pool indices levels)
      (path : state.path = chainOf target pool indices) (within : indices.length < limit)
      (ranked : top.ranked = some (rankCandidates der (lastCert target pool indices) pool))
      (checked : top.anchorChecked = true) (notYielded : top.anchorYielded = false) :
      TopLeft der target pool anchors limit state lower top
        (pathsLeft der target pool anchors limit
          (⟨indices, issuersFrom der target pool indices top.cursor⟩ :: levels))
        (visitsLeft der target pool anchors limit
          (⟨indices, issuersFrom der target pool indices top.cursor⟩ :: levels))
  | fresh {levels : List (Level Nat)} {indices : List Nat}
      (opened : Opened der target pool limit lower levels) (grown : Grown pool indices levels)
      (path : state.path = chainOf target pool indices) (within : indices.length ≤ limit)
      (isNew : top = Frame.new) :
      TopLeft der target pool anchors limit state lower top
        (pathsFrom der target pool anchors limit indices ++
          pathsLeft der target pool anchors limit levels)
        (visitsFrom der target pool anchors limit indices +
          visitsLeft der target pool anchors limit levels)
  | yielded {levels : List (Level Nat)} {indices : List Nat}
      (opened : Opened der target pool limit lower levels) (grown : Grown pool indices levels)
      (path : state.path = chainOf target pool indices) (flagged : top.anchorYielded = true) :
      TopLeft der target pool anchors limit state lower top
        (pathsLeft der target pool anchors limit levels)
        (visitsLeft der target pool anchors limit levels)

variable {top : Frame} {below : List Certificate} {cur : Certificate}
variable {remaining : List (List Nat)} {needed : Nat}

theorem Left.topLeft (left : Left der target pool anchors limit state remaining needed)
    (tops : state.Tops lower top below cur) :
    TopLeft der target pool anchors limit state lower top remaining needed := by
  cases left with
  | exploring opened path =>
      rw [tops.frames] at opened
      generalize shape : lower ++ [top] = frames at opened
      cases opened with
      | nil => simp at shape
      | cons below grown within =>
          rcases List.append_inj' shape rfl with ⟨sameLower, sameTop⟩
          cases sameLower
          cases sameTop
          exact .exploring below grown path within rfl rfl rfl
  | fresh opened grown within frames path =>
      rw [tops.frames] at frames
      rcases List.append_inj' frames rfl with ⟨sameLower, sameTop⟩
      cases sameLower
      exact .fresh opened grown path within (List.cons.inj sameTop).1
  | yielded opened grown flagged frames path =>
      rw [tops.frames] at frames
      rcases List.append_inj' frames rfl with ⟨sameLower, sameTop⟩
      cases sameLower
      rw [← (List.cons.inj sameTop).1] at flagged
      exact .yielded opened grown path flagged

theorem ranking_stored {ranked : List (Nat × Nat)} (stored : top.ranked = some ranked) :
    ranking der state top cur = ranked := by
  unfold ranking
  rw [stored]
  rfl

/-- An iterator over this pool, with what it has still to yield. -/
structure Tracks (der : BuilderCodec) (target : Certificate) (pool : List Certificate)
    (anchors : List TrustAnchor) (limit : Nat) (state : PathCandidates)
    (remaining : List (List Nat)) (needed : Nat) : Prop where
  paired : state.Paired
  samePool : state.pool = pool
  sameAnchors : state.anchors = anchors
  sameLimit : state.maxDepth = limit
  left : Left der target pool anchors limit state remaining needed

theorem Explores.keeps (explores : Explores der state lower top cur next) :
    next.pool = state.pool ∧ next.anchors = state.anchors ∧ next.maxDepth = state.maxDepth ∧
      next.budget = state.budget := by
  cases explores <;> exact ⟨rfl, rfl, rfl, rfl⟩

theorem Explores.popped (explores : Explores der state lower top cur next)
    (deep : state.maxDepth ≤ lower.length) : next = state.pop := by
  cases explores with
  | tooDeep => rfl
  | exhausted within => omega
  | skipped _ _ _ within => omega
  | pushed _ _ _ within => omega

theorem TopLeft.of_unchecked
    (left : TopLeft der target pool anchors limit state lower top remaining needed)
    (unchecked : top.anchorChecked = false) (notYielded : top.anchorYielded = false) :
    ∃ levels indices, Opened der target pool limit lower levels ∧ Grown pool indices levels ∧
      state.path = chainOf target pool indices ∧ indices.length ≤ limit ∧ top = Frame.new ∧
      remaining = pathsFrom der target pool anchors limit indices ++
        pathsLeft der target pool anchors limit levels ∧
      needed = visitsFrom der target pool anchors limit indices +
        visitsLeft der target pool anchors limit levels := by
  cases left with
  | exploring _ _ _ _ _ checked =>
      rw [unchecked] at checked
      cases checked
  | fresh opened grown path within isNew =>
      exact ⟨_, _, opened, grown, path, within, isNew, rfl, rfl⟩
  | yielded _ _ _ flagged =>
      rw [notYielded] at flagged
      cases flagged

theorem lastCert_of_tops (tops : state.Tops lower top below cur)
    (path : state.path = chainOf target pool indices) : lastCert target pool indices = cur :=
  lastCert_of_split (path.symm.trans tops.path)

/-- Below the check of a frame that ends at no anchor. -/
theorem Left.enters (samePool : state.pool = pool) (sameLimit : state.maxDepth = limit)
    (opened : Opened der target pool limit lower levels) (grown : Grown pool indices levels)
    (path : state.path = chainOf target pool indices) (within : indices.length ≤ limit)
    (tops : state.Tops lower Frame.new below cur)
    (notAnchored : endsAtAnchor target pool anchors indices = false)
    (explores : Explores der (state.entered Frame.new) lower
      { Frame.new with anchorChecked := true } cur next) :
    ∃ needed, Left der target pool anchors limit next
        (pathsFrom der target pool anchors limit indices ++
          pathsLeft der target pool anchors limit levels) needed ∧
      visitsFrom der target pool anchors limit indices +
        visitsLeft der target pool anchors limit levels = 1 + needed := by
  have height := opened.grown_length grown
  have sameCert := lastCert_of_tops tops path
  by_cases atLimit : indices.length = limit
  · refine ⟨visitsLeft der target pool anchors limit levels, ?_, ?_⟩
    · unfold pathsFrom
      rw [atLimit, Nat.sub_self, enumerate_zero notAnchored, List.nil_append]
      have deep : (state.entered Frame.new).maxDepth ≤ lower.length := by
        change state.maxDepth ≤ lower.length
        omega
      rw [explores.popped deep]
      exact Left.pop opened grown tops.entered.frames path
    · unfold visitsFrom
      rw [atLimit, Nat.sub_self]
      rfl
  · have inner : indices.length < limit := by omega
    unfold pathsFrom visitsFrom pathsLeft visitsLeft
    rw [enumerate_open notAnchored inner, visits_open notAnchored inner]
    refine ⟨_, ?_, rfl⟩
    have ranked : ranking der (state.entered Frame.new) { Frame.new with anchorChecked := true }
        cur = rankCandidates der (lastCert target pool indices) pool := by
      rw [sameCert, ← samePool]
      rfl
    have keptPool : (state.entered Frame.new).pool = pool := samePool
    exact Left.explore keptPool sameLimit opened grown tops.entered path rfl rfl ranked inner
      explores

theorem Tracks.again (tracks : Tracks der target pool anchors limit state remaining needed)
    (turned : turn der state = .again next) :
    ∃ needed', Tracks der target pool anchors limit next remaining needed' ∧
      state.budget + needed' = next.budget + needed := by
  have turns := turn_turns der tracks.paired
  have nextPaired := paired_again tracks.paired turned
  rw [turned] at turns
  cases turns with
  | retired tops yielded =>
      refine ⟨needed, ⟨nextPaired, tracks.samePool, tracks.sameAnchors, tracks.sameLimit, ?_⟩, rfl⟩
      cases tracks.left.topLeft tops with
      | exploring _ _ _ _ _ _ notYielded =>
          rw [yielded] at notYielded
          cases notYielded
      | fresh _ _ _ _ isNew =>
          rw [isNew] at yielded
          cases yielded
      | yielded opened grown path => exact Left.pop opened grown tops.frames path
  | enters tops notYielded unchecked budgetLeft notAnchored explores =>
      rcases (tracks.left.topLeft tops).of_unchecked unchecked notYielded with
        ⟨levels, indices, opened, grown, path, within, isNew, samePaths, sameNeeded⟩
      subst isNew
      have kept := explores.keeps
      have open_ : endsAtAnchor target pool anchors indices = false := by
        unfold endsAtAnchor
        rw [lastCert_of_tops tops path, ← tracks.sameAnchors]
        exact notAnchored
      rcases Left.enters tracks.samePool tracks.sameLimit opened grown path within tops open_
        explores with ⟨needed', left, counted⟩
      refine ⟨needed', ⟨nextPaired, kept.1.trans tracks.samePool,
        kept.2.1.trans tracks.sameAnchors, kept.2.2.1.trans tracks.sameLimit, ?_⟩, ?_⟩
      · rw [samePaths]
        exact left
      · have charged : next.budget = state.budget - 1 := kept.2.2.2
        omega
  | resumes tops notYielded checked explores =>
      have kept := explores.keeps
      refine ⟨needed, ⟨nextPaired, kept.1.trans tracks.samePool, kept.2.1.trans tracks.sameAnchors,
        kept.2.2.1.trans tracks.sameLimit, ?_⟩, by rw [kept.2.2.2]⟩
      cases tracks.left.topLeft tops with
      | exploring opened grown path within ranked =>
          exact Left.explore tracks.samePool tracks.sameLimit opened grown tops path checked
            notYielded (ranking_stored ranked) within explores
      | fresh _ _ _ _ isNew =>
          rw [isNew] at checked
          cases checked
      | yielded _ _ _ flagged =>
          rw [notYielded] at flagged
          cases flagged

/-- What a call that ends in this turn returns. -/
inductive Answered (der : BuilderCodec) (target : Certificate) (pool : List Certificate)
    (anchors : List TrustAnchor) (limit : Nat) (state : PathCandidates) (next : PathCandidates)
    (needed : Nat) : List (List Nat) → Item → Prop
  | path {indices : List Nat} {rest : List (List Nat)} {needed' : Nat}
      (tracks : Tracks der target pool anchors limit next rest needed')
      (spent : state.budget + needed' = next.budget + needed)
      (busy : next.done = state.done) :
      Answered der target pool anchors limit state next needed (indices :: rest)
        (some (.ok (chainOf target pool indices)))
  | exhausted (closed : next.done = true) (enough : needed ≤ state.budget) :
      Answered der target pool anchors limit state next needed [] none
  | overBudget {remaining : List (List Nat)} (closed : next.done = true)
      (short : state.budget < needed) :
      Answered der target pool anchors limit state next needed remaining
        (some (.error .budgetExceeded))

theorem Tracks.answer {item : Item}
    (tracks : Tracks der target pool anchors limit state remaining needed)
    (turned : turn der state = .answer item next) :
    Answered der target pool anchors limit state next needed remaining item := by
  have turns := turn_turns der tracks.paired
  have nextPaired := paired_answer tracks.paired turned
  rw [turned] at turns
  cases turns with
  | finished empty =>
      cases tracks.left with
      | exploring opened path =>
          rw [empty] at opened
          generalize shape : ([] : List Frame) = frames at opened
          cases opened with
          | nil => exact .exhausted rfl (Nat.zero_le _)
          | cons => simp at shape
      | fresh _ _ _ frames => simp [empty] at frames
      | yielded _ _ _ frames => simp [empty] at frames
  | overBudget tops notYielded unchecked spent =>
      rcases (tracks.left.topLeft tops).of_unchecked unchecked notYielded with
        ⟨levels, indices, _, _, _, _, _, _, sameNeeded⟩
      have some_ : 0 < visitsFrom der target pool anchors limit indices := visits_pos _ _
      refine .overBudget rfl ?_
      rw [sameNeeded, spent]
      omega
  | @yields lower top _ _ tops notYielded unchecked budgetLeft anchored =>
      rcases (tracks.left.topLeft tops).of_unchecked unchecked notYielded with
        ⟨levels, indices, opened, grown, path, within, isNew, samePaths, sameNeeded⟩
      have ends : endsAtAnchor target pool anchors indices = true := by
        unfold endsAtAnchor
        rw [lastCert_of_tops tops path, ← tracks.sameAnchors]
        exact anchored
      unfold pathsFrom at samePaths
      rw [enumerate_ends ends, List.singleton_append] at samePaths
      unfold visitsFrom at sameNeeded
      rw [visits_ends ends] at sameNeeded
      rw [samePaths, path]
      have shape : ((state.entered top).setTop
          { top with anchorChecked := true, anchorYielded := true }).frames =
          lower ++ [{ top with anchorChecked := true, anchorYielded := true }] := by
        simp [setTop, tops.entered.frames]
      refine .path ⟨nextPaired, tracks.samePool, tracks.sameAnchors, tracks.sameLimit,
        .yielded opened grown (by rfl) shape path⟩ ?_ rfl
      change state.budget + visitsLeft der target pool anchors limit levels =
        state.budget - 1 + needed
      omega

end Steps

end PathCandidates

end Pkix.PathBuilder
