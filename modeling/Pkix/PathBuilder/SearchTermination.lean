import Mathlib.Algebra.Order.Ring.Nat
import Pkix.PathBuilder.PathCandidates

/-! The search ends: the stacks of frames and certificates stay paired, so that no turn can
fail, and every turn that goes round again makes a measure smaller. -/

namespace Pkix.PathBuilder

open Pkix.Path

theorem mem_rankCandidates_iff {der : BuilderCodec} {cur : Certificate}
    {pool : List Certificate} {entry : Nat × Nat} :
    entry ∈ rankCandidates der cur pool ↔
      ∃ candidate, pool[entry.2]? = some candidate ∧
        namesMatch candidate.tbsCertificate.subject cur.tbsCertificate.issuer = true ∧
        entry.1 = tierOf der (certAkiKeyId der cur) candidate := by
  unfold rankCandidates
  rw [(List.perm_insertionSort _ _).mem_iff, List.mem_filterMap]
  constructor
  · intro ⟨item, member, kept⟩
    split at kept
    · next matched =>
        cases kept
        exact ⟨item.1, List.mem_zipIdx_iff_getElem?.mp member, matched, rfl⟩
    · cases kept
  · intro ⟨candidate, located, matched, tier⟩
    refine ⟨(candidate, entry.2), List.mem_zipIdx_iff_getElem?.mpr located, ?_⟩
    rw [if_pos matched, ← tier]

theorem rankCandidates_length_le (der : BuilderCodec) (cur : Certificate)
    (pool : List Certificate) : (rankCandidates der cur pool).length ≤ pool.length := by
  unfold rankCandidates
  rw [List.length_insertionSort]
  apply (List.length_filterMap_le _ _).trans
  rw [List.length_zipIdx]

theorem rankCandidates_inRange {der : BuilderCodec} {cur : Certificate}
    {pool : List Certificate} {entry : Nat × Nat} (ranked : entry ∈ rankCandidates der cur pool) :
    entry.2 < pool.length := by
  rcases mem_rankCandidates_iff.mp ranked with ⟨_, located, _⟩
  exact (List.getElem?_eq_some_iff.mp located).1

namespace PathCandidates

/-- The two stacks have the same height, and the rankings name certificates of the pool. -/
structure Paired (state : PathCandidates) : Prop where
  sameHeight : state.frames.length = state.path.length
  inRange : ∀ frame ∈ state.frames, ∀ ranked, frame.ranked = some ranked →
    ∀ entry ∈ ranked, entry.2 < state.pool.length

/-- The tops of the two stacks. -/
structure Tops (state : PathCandidates) (lower : List Frame) (top : Frame)
    (below : List Certificate) (cur : Certificate) : Prop where
  frames : state.frames = lower ++ [top]
  path : state.path = below ++ [cur]

section Shape

variable {der : BuilderCodec} {state : PathCandidates} {lower : List Frame} {top : Frame}
variable {below : List Certificate} {cur : Certificate}

theorem Paired.tops (paired : state.Paired) (busy : state.frames ≠ []) :
    ∃ lower top below cur, state.Tops lower top below cur := by
  have height := paired.sameHeight
  rcases List.eq_nil_or_concat state.frames with none_ | ⟨lower, top, frames⟩
  · exact absurd none_ busy
  · rcases List.eq_nil_or_concat state.path with empty | ⟨below, cur, path⟩
    · rw [frames, empty] at height
      simp at height
    · exact ⟨lower, top, below, cur, by simpa using frames, by simpa using path⟩

/-- The ranking the top frame works through. -/
def ranking (der : BuilderCodec) (state : PathCandidates) (top : Frame) (cur : Certificate) :
    List (Nat × Nat) :=
  top.ranked.getD (rankCandidates der cur state.pool)

theorem topRanking_eq (tops : state.Tops lower top below cur) :
    topRanking der state top = some (ranking der state top cur) := by
  unfold topRanking ranking
  cases top.ranked with
  | some ranked => rfl
  | none => simp [tops.path]

theorem Paired.ranking_inRange (paired : state.Paired) (tops : state.Tops lower top below cur)
    {entry : Nat × Nat} (member : entry ∈ ranking der state top cur) :
    entry.2 < state.pool.length := by
  unfold ranking at member
  cases stored : top.ranked with
  | none =>
      rw [stored] at member
      exact rankCandidates_inRange member
  | some ranked =>
      rw [stored] at member
      have listed : top ∈ state.frames := by simp [tops.frames]
      exact paired.inRange top listed ranked stored entry member

/-- The top frame with its ranking stored and its cursor moved on. -/
def advanced (der : BuilderCodec) (state : PathCandidates) (top : Frame) (cur : Certificate) :
    PathCandidates :=
  state.setTop { top with ranked := some (ranking der state top cur), cursor := top.cursor + 1 }

@[simp] theorem advanced_path (der : BuilderCodec) (state : PathCandidates) (top : Frame)
    (cur : Certificate) : (advanced der state top cur).path = state.path := rfl

/-- A candidate that may be pushed. -/
def fits (der : BuilderCodec) (path : List Certificate) (candidate : Certificate) : Bool :=
  certIsCa der candidate && !spkiAlreadyInPath candidate path

theorem consider_eq (der : BuilderCodec) (state : PathCandidates) (candidate : Certificate) :
    consider der state candidate =
      if fits der state.path candidate = true then state.push candidate else state := by
  unfold consider fits
  cases certIsCa der candidate <;> cases spkiAlreadyInPath candidate state.path <;> rfl

/-- What the part below the anchor check does. -/
inductive Explores (der : BuilderCodec) (state : PathCandidates) (lower : List Frame)
    (top : Frame) (cur : Certificate) : PathCandidates → Prop
  | tooDeep (deep : state.maxDepth ≤ lower.length) :
      Explores der state lower top cur state.pop
  | exhausted (within : lower.length < state.maxDepth)
      (spent : (ranking der state top cur).length ≤ top.cursor) :
      Explores der state lower top cur state.pop
  | skipped (tier idx : Nat) (candidate : Certificate) (within : lower.length < state.maxDepth)
      (located : (ranking der state top cur)[top.cursor]? = some (tier, idx))
      (pooled : state.pool[idx]? = some candidate)
      (unfit : fits der state.path candidate = false) :
      Explores der state lower top cur (advanced der state top cur)
  | pushed (tier idx : Nat) (candidate : Certificate) (within : lower.length < state.maxDepth)
      (located : (ranking der state top cur)[top.cursor]? = some (tier, idx))
      (pooled : state.pool[idx]? = some candidate)
      (fit : fits der state.path candidate = true) :
      Explores der state lower top cur ((advanced der state top cur).push candidate)

theorem explore_explores (der : BuilderCodec) (paired : state.Paired)
    (tops : state.Tops lower top below cur) :
    ∃ next, explore der state = .again next ∧ Explores der state lower top cur next := by
  have height : state.frames.length = lower.length + 1 := by simp [tops.frames]
  unfold explore
  by_cases deep : state.maxDepth < state.frames.length
  · rw [if_pos deep]
    exact ⟨state.pop, rfl, .tooDeep (by omega)⟩
  · rw [if_neg deep]
    have within : lower.length < state.maxDepth := by omega
    have last : state.frames.getLast? = some top := by simp [tops.frames]
    simp only [last, topRanking_eq tops]
    by_cases spent : (ranking der state top cur).length ≤ top.cursor
    · simp only [if_pos spent]
      exact ⟨state.pop, rfl, .exhausted within spent⟩
    · simp only [if_neg spent]
      have bound : top.cursor < (ranking der state top cur).length := by omega
      have located := List.getElem?_eq_getElem bound
      have pooledBound := paired.ranking_inRange tops (List.getElem_mem bound)
      rcases entry : (ranking der state top cur)[top.cursor] with ⟨tier, idx⟩
      rw [entry] at located pooledBound
      have pooled := List.getElem?_eq_getElem pooledBound
      simp only [located, pooled]
      refine ⟨consider der (advanced der state top cur) state.pool[idx], rfl, ?_⟩
      rw [consider_eq, advanced_path]
      by_cases fit : fits der state.path state.pool[idx] = true
      · rw [if_pos fit]
        exact .pushed tier idx _ within located pooled fit
      · rw [if_neg fit]
        exact .skipped tier idx _ within located pooled (Bool.eq_false_iff.mpr fit)

/-- The state after the anchor check of the top frame, its unit of budget spent. -/
def entered (state : PathCandidates) (top : Frame) : PathCandidates :=
  { state with budget := state.budget - 1 }.setTop { top with anchorChecked := true }

theorem Tops.entered (tops : state.Tops lower top below cur) :
    (state.entered top).Tops lower { top with anchorChecked := true } below cur :=
  ⟨by simp [PathCandidates.entered, setTop, tops.frames], tops.path⟩

theorem paired_setTop {frame : Frame} (paired : state.Paired)
    (tops : state.Tops lower top below cur)
    (ranked : ∀ ranked, frame.ranked = some ranked → ∀ entry ∈ ranked,
      entry.2 < state.pool.length) : (state.setTop frame).Paired := by
  constructor
  · have height := paired.sameHeight
    simpa [setTop, tops.frames] using height
  · intro other listed stored isStored entry member
    have cases_ : other ∈ lower ∨ other = frame := by
      simpa [setTop, tops.frames] using listed
    rcases cases_ with inLower | isTop
    · have present : other ∈ state.frames := by simp [tops.frames, inLower]
      exact paired.inRange other present stored isStored entry member
    · subst isTop
      exact ranked stored isStored entry member

theorem Paired.withBudget (paired : state.Paired) (budget : Nat) :
    ({ state with budget } : PathCandidates).Paired :=
  ⟨paired.sameHeight, paired.inRange⟩

theorem Paired.started (paired : state.Paired) :
    ({ state with started := true } : PathCandidates).Paired :=
  ⟨paired.sameHeight, paired.inRange⟩

theorem Paired.entered (paired : state.Paired) (tops : state.Tops lower top below cur) :
    (state.entered top).Paired := by
  have listed : top ∈ state.frames := by simp [tops.frames]
  have sameTops : ({ state with budget := state.budget - 1 } : PathCandidates).Tops lower top
      below cur := ⟨tops.frames, tops.path⟩
  exact paired_setTop (paired.withBudget _) sameTops (paired.inRange top listed)

/-- What one turn does: one case for each way through the loop body. -/
inductive Turns (der : BuilderCodec) (state : PathCandidates) : Turn → Prop
  | finished (empty : state.frames = []) :
      Turns der state (.answer none { state with done := true })
  | retired {lower : List Frame} {top : Frame} {below : List Certificate}
      {cur : Certificate} (tops : state.Tops lower top below cur)
      (yielded : top.anchorYielded = true) : Turns der state (.again state.pop)
  | overBudget {lower : List Frame} {top : Frame} {below : List Certificate}
      {cur : Certificate} (tops : state.Tops lower top below cur)
      (notYielded : top.anchorYielded = false) (unchecked : top.anchorChecked = false)
      (spent : state.budget = 0) :
      Turns der state (.answer (some (.error .budgetExceeded)) { state with done := true })
  | yields {lower : List Frame} {top : Frame} {below : List Certificate}
      {cur : Certificate} (tops : state.Tops lower top below cur)
      (notYielded : top.anchorYielded = false) (unchecked : top.anchorChecked = false)
      (left : 0 < state.budget) (anchored : issuerIsAnchor state.anchors cur = true) :
      Turns der state (.answer (some (.ok state.path))
        ((state.entered top).setTop { top with anchorChecked := true, anchorYielded := true }))
  | enters {lower : List Frame} {top : Frame} {below : List Certificate}
      {cur : Certificate} {next : PathCandidates} (tops : state.Tops lower top below cur)
      (notYielded : top.anchorYielded = false) (unchecked : top.anchorChecked = false)
      (left : 0 < state.budget) (notAnchored : issuerIsAnchor state.anchors cur = false)
      (explores : Explores der (state.entered top) lower { top with anchorChecked := true } cur
        next) : Turns der state (.again next)
  | resumes {lower : List Frame} {top : Frame} {below : List Certificate}
      {cur : Certificate} {next : PathCandidates} (tops : state.Tops lower top below cur)
      (notYielded : top.anchorYielded = false) (checked : top.anchorChecked = true)
      (explores : Explores der state lower top cur next) : Turns der state (.again next)

theorem turn_turns (der : BuilderCodec) (paired : state.Paired) :
    Turns der state (turn der state) := by
  unfold turn
  by_cases empty : state.frames = []
  · rw [if_pos (by simpa using empty)]
    exact .finished empty
  · rw [if_neg (by simpa using empty)]
    rcases paired.tops empty with ⟨lower, top, below, cur, tops⟩
    have last : state.frames.getLast? = some top := by simp [tops.frames]
    simp only [last]
    cases yielded : top.anchorYielded with
    | true => exact .retired tops yielded
    | false =>
        cases checked : top.anchorChecked with
        | true =>
            rcases explore_explores der paired tops with ⟨next, explored, explores⟩
            simp only [Bool.false_eq_true, if_false, if_true, explored]
            exact .resumes tops yielded checked explores
        | false =>
            simp only [Bool.false_eq_true, if_false]
            unfold enter
            by_cases spent : state.budget = 0
            · rw [if_pos spent]
              exact .overBudget tops yielded checked spent
            · rw [if_neg spent]
              have left : 0 < state.budget := Nat.pos_of_ne_zero spent
              have lastCert : state.path.getLast? = some cur := by simp [tops.path]
              simp only [lastCert]
              cases anchored : issuerIsAnchor state.anchors cur with
              | true =>
                  rw [if_pos rfl]
                  have same : Turns der state _ := .yields tops yielded checked left anchored
                  simpa [setTop, entered, tops.frames] using same
              | false =>
                  rw [if_neg Bool.false_ne_true]
                  rcases explore_explores der (paired.entered tops) tops.entered with
                    ⟨next, explored, explores⟩
                  have turned : explore der (state.entered top) = .again next := explored
                  unfold entered at turned
                  rw [turned]
                  exact .enters tops yielded checked left anchored explores

theorem Paired.pop (paired : state.Paired) : state.pop.Paired := by
  constructor
  · have height := paired.sameHeight
    simp [PathCandidates.pop, height]
  · intro frame listed
    exact paired.inRange frame (List.mem_of_mem_dropLast listed)

theorem Paired.push (paired : state.Paired) (candidate : Certificate) :
    (state.push candidate).Paired := by
  constructor
  · have height := paired.sameHeight
    simp [PathCandidates.push, height]
  · intro frame listed ranked stored
    rcases List.mem_append.mp listed with below | fresh
    · exact paired.inRange frame below ranked stored
    · rw [List.mem_singleton.mp fresh] at stored
      cases stored

theorem Paired.advanced (paired : state.Paired) (tops : state.Tops lower top below cur) :
    (advanced der state top cur).Paired := by
  apply paired_setTop paired tops
  intro ranked stored entry member
  cases stored
  exact paired.ranking_inRange tops member

theorem Explores.paired {next : PathCandidates} (paired : state.Paired)
    (tops : state.Tops lower top below cur) (explores : Explores der state lower top cur next) :
    next.Paired := by
  cases explores with
  | tooDeep => exact paired.pop
  | exhausted => exact paired.pop
  | skipped => exact paired.advanced tops
  | pushed => exact (paired.advanced tops).push _

theorem paired_again {next : PathCandidates} (paired : state.Paired)
    (turned : turn der state = .again next) : next.Paired := by
  have turns := turn_turns der paired
  rw [turned] at turns
  cases turns with
  | retired tops => exact paired.pop
  | enters tops _ _ _ _ explores => exact explores.paired (paired.entered tops) tops.entered
  | resumes tops _ _ explores => exact explores.paired paired tops

theorem paired_answer {item : Item} {next : PathCandidates} (paired : state.Paired)
    (turned : turn der state = .answer item next) : next.Paired := by
  have turns := turn_turns der paired
  rw [turned] at turns
  cases turns with
  | finished => exact ⟨paired.sameHeight, paired.inRange⟩
  | overBudget => exact ⟨paired.sameHeight, paired.inRange⟩
  | @yields _ top _ _ tops =>
      have listed : top ∈ state.frames := by simp [tops.frames]
      exact paired_setTop (paired.entered tops) tops.entered (paired.inRange top listed)

theorem turn_ne_panicked (paired : state.Paired) : turn der state ≠ .panicked := by
  intro turned
  have turns := turn_turns der paired
  rw [turned] at turns
  cases turns

/-- The rule for the loop: what a turn that goes round again keeps holds at the turn that
answers. -/
theorem loopWithin_answers {holds : PathCandidates → Prop} {turns : Nat} {item : Item}
    {next : PathCandidates}
    (kept : ∀ state next, state.Paired → holds state → turn der state = .again next → holds next)
    (paired : state.Paired) (start : holds state)
    (returned : loopWithin der turns state = some (.returned item next)) :
    ∃ last, last.Paired ∧ holds last ∧ turn der last = .answer item next := by
  induction turns generalizing state with
  | zero => cases returned
  | succ turns ih =>
      unfold loopWithin at returned
      cases turned : turn der state with
      | panicked => exact absurd turned (turn_ne_panicked paired)
      | again mid =>
          rw [turned] at returned
          exact ih (paired_again paired turned) (kept state mid paired start turned) returned
      | answer answer mid =>
          rw [turned] at returned
          cases returned
          exact ⟨state, paired, start, turned⟩

end Shape

section Measure

variable {der : BuilderCodec} {state : PathCandidates} {lower : List Frame} {top : Frame}
variable {below : List Certificate} {cur : Certificate}

/-- Twice the candidates a frame may still try, and its own removal. -/
def frameWork (pool : List Certificate) (frame : Frame) : Nat :=
  match frame.ranked with
  | some ranked => 1 + 2 * (ranked.length - frame.cursor)
  | none => if frame.anchorChecked then 1 + 2 * (pool.length - frame.cursor) else 1

def turnBound (state : PathCandidates) : Nat :=
  state.budget * (2 * state.pool.length + 2) +
    (state.frames.map (frameWork state.pool)).sum

theorem frameWork_pos (pool : List Certificate) (frame : Frame) : 0 < frameWork pool frame := by
  unfold frameWork
  split
  · omega
  · split <;> omega

theorem turnBound_eq (tops : state.Tops lower top below cur) :
    state.turnBound = state.budget * (2 * state.pool.length + 2) +
      ((lower.map (frameWork state.pool)).sum + frameWork state.pool top) := by
  simp [turnBound, tops.frames]

theorem turnBound_pop (tops : state.Tops lower top below cur) :
    state.pop.turnBound < state.turnBound := by
  have removed := frameWork_pos state.pool top
  have shape : state.pop.turnBound = state.budget * (2 * state.pool.length + 2) +
      (lower.map (frameWork state.pool)).sum := by
    simp [turnBound, pop, tops.frames]
  rw [shape, turnBound_eq tops]
  omega

theorem frameWork_advanced (checked : top.anchorChecked = true)
    (left : top.cursor < (ranking der state top cur).length) :
    frameWork state.pool { top with
        ranked := some (ranking der state top cur), cursor := top.cursor + 1 } + 2 ≤
      frameWork state.pool top := by
  unfold ranking at left
  unfold frameWork ranking
  cases stored : top.ranked with
  | some ranked =>
      rw [stored] at left
      simp only [Option.getD_some] at left ⊢
      omega
  | none =>
      rw [stored] at left
      have fewer := rankCandidates_length_le der cur state.pool
      simp only [Option.getD_none, checked, if_true] at left ⊢
      omega

theorem turnBound_advanced (tops : state.Tops lower top below cur)
    (checked : top.anchorChecked = true)
    (left : top.cursor < (ranking der state top cur).length) :
    (advanced der state top cur).turnBound + 2 ≤ state.turnBound := by
  have less := frameWork_advanced checked left
  have shape : (advanced der state top cur).turnBound =
      state.budget * (2 * state.pool.length + 2) + ((lower.map (frameWork state.pool)).sum +
        frameWork state.pool { top with
          ranked := some (ranking der state top cur), cursor := top.cursor + 1 }) := by
    simp [turnBound, advanced, setTop, tops.frames]
  rw [shape, turnBound_eq tops]
  omega

theorem turnBound_push (candidate : Certificate) :
    (state.push candidate).turnBound = state.turnBound + 1 := by
  simp [turnBound, push, frameWork, Frame.new, Nat.add_assoc]

theorem Explores.turnBound_lt {next : PathCandidates} (tops : state.Tops lower top below cur)
    (checked : top.anchorChecked = true) (explores : Explores der state lower top cur next) :
    next.turnBound < state.turnBound := by
  cases explores with
  | tooDeep => exact turnBound_pop tops
  | exhausted => exact turnBound_pop tops
  | skipped tier idx candidate within located =>
      have less := turnBound_advanced tops checked (List.getElem?_eq_some_iff.mp located).1
      omega
  | pushed tier idx candidate within located =>
      have less := turnBound_advanced tops checked (List.getElem?_eq_some_iff.mp located).1
      rw [turnBound_push]
      omega

/-- The unit of budget pays for every candidate the frame may try. -/
theorem turnBound_entered (tops : state.Tops lower top below cur) (left : 0 < state.budget) :
    (state.entered top).turnBound ≤ state.turnBound := by
  have more : frameWork state.pool { top with anchorChecked := true } ≤
      frameWork state.pool top + 2 * state.pool.length := by
    unfold frameWork
    cases top.ranked with
    | some ranked => simp
    | none =>
        simp only [if_true]
        split <;> omega
  have shape : (state.entered top).turnBound =
      (state.budget - 1) * (2 * state.pool.length + 2) + ((lower.map (frameWork state.pool)).sum +
        frameWork state.pool { top with anchorChecked := true }) := by
    simp [turnBound, PathCandidates.entered, setTop, tops.frames]
  have paid : state.budget * (2 * state.pool.length + 2) =
      (state.budget - 1) * (2 * state.pool.length + 2) + (2 * state.pool.length + 2) := by
    rw [← Nat.succ_mul]
    congr 1
    omega
  rw [shape, turnBound_eq tops, paid]
  omega

theorem turnBound_again {next : PathCandidates} (paired : state.Paired)
    (turned : turn der state = .again next) : next.turnBound < state.turnBound := by
  have turns := turn_turns der paired
  rw [turned] at turns
  cases turns with
  | retired tops => exact turnBound_pop tops
  | enters tops _ _ left _ explores =>
      exact (explores.turnBound_lt tops.entered rfl).trans_le (turnBound_entered tops left)
  | resumes tops _ checked explores => exact explores.turnBound_lt tops checked

theorem loopWithin_ends (turns : Nat) (paired : state.Paired) (enough : state.turnBound < turns) :
    ∃ item next, loopWithin der turns state = some (.returned item next) := by
  induction turns generalizing state with
  | zero => omega
  | succ turns ih =>
      unfold loopWithin
      cases turned : turn der state with
      | again next =>
          have less := turnBound_again paired turned
          exact ih (paired_again paired turned) (by omega)
      | answer item next => exact ⟨item, next, rfl⟩
      | panicked => exact absurd turned (turn_ne_panicked paired)

/-- Every call ends, and without a panic. -/
theorem nextWithin_ends {turns : Nat} (paired : state.Paired)
    (enough : state.turnBound < turns) :
    ∃ item next, nextWithin der turns state = some (.returned item next) := by
  cases busy : state.done with
  | true => exact ⟨none, state, nextWithin_done turns busy⟩
  | false =>
      rw [nextWithin_busy turns busy]
      exact loopWithin_ends turns paired.started enough

end Measure

end PathCandidates

end Pkix.PathBuilder
