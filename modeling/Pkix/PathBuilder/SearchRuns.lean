import Pkix.Path.ConcreteCodec
import Pkix.PathBuilder.SearchTermination

/-! The life of one iterator, turn by turn and call by call. -/

namespace Pkix.PathBuilder.PathCandidates

open Pkix.Path

/-- The turn runs the anchor check of a frame entered for the first time. -/
def entersFrame (state : PathCandidates) : Bool :=
  match state.frames.getLast? with
  | none => false
  | some top => !top.anchorYielded && !top.anchorChecked && state.budget != 0

def pushesFrame (state next : PathCandidates) : Bool :=
  decide (state.frames.length < next.frames.length)

/-- The states an iterator goes through, in the middle of a call as well, with the frames
entered and the frames pushed on the way. -/
inductive Life (der : BuilderCodec) (start : PathCandidates) : (entries pushes : Nat) →
    PathCandidates → Prop
  | start : Life der start 0 0 start
  | called {entries pushes : Nat} {state : PathCandidates}
      (life : Life der start entries pushes state) (busy : state.done = false) :
      Life der start entries pushes { state with started := true }
  | again {entries pushes : Nat} {state next : PathCandidates}
      (life : Life der start entries pushes state) (busy : state.done = false)
      (turned : turn der state = .again next) :
      Life der start (entries + state.entersFrame.toNat)
        (pushes + (state.pushesFrame next).toNat) next
  | answered {entries pushes : Nat} {state next : PathCandidates} {item : Item}
      (life : Life der start entries pushes state) (busy : state.done = false)
      (turned : turn der state = .answer item next) :
      Life der start (entries + state.entersFrame.toNat)
        (pushes + (state.pushesFrame next).toNat) next

/-- A sequence of calls with their answers. -/
inductive Calls (der : BuilderCodec) : PathCandidates → List Item → PathCandidates → Prop
  | none (state : PathCandidates) : Calls der state [] state
  | next {state mid final : PathCandidates} {turns : Nat} {item : Item} {items : List Item}
      (returned : nextWithin der turns state = some (.returned item mid))
      (rest : Calls der mid items final) : Calls der state (item :: items) final

theorem paired_new (target : Certificate) (pool : List Certificate) (anchors : List TrustAnchor)
    (config : PathBuilderConfig) : (new target pool anchors config).Paired := by
  constructor
  · rfl
  · intro frame listed ranked stored
    rw [List.mem_singleton.mp listed] at stored
    cases stored

section Counting

variable {der : BuilderCodec} {state : PathCandidates} {lower : List Frame} {top : Frame}
variable {below : List Certificate} {cur : Certificate}

/-- The frames not entered yet. -/
def waiting (state : PathCandidates) : Nat :=
  state.frames.countP (fun frame => !frame.anchorChecked)

/-- Only the top frame may be waiting, and it has not yielded then. -/
structure Orderly (state : PathCandidates) : Prop extends Paired state where
  lowerChecked : ∀ frame ∈ state.frames.dropLast, frame.anchorChecked = true
  yieldedChecked : ∀ frame ∈ state.frames, frame.anchorYielded = true →
    frame.anchorChecked = true

theorem waiting_eq_zero (allChecked : ∀ frame ∈ state.frames, frame.anchorChecked = true) :
    state.waiting = 0 := by
  unfold waiting
  rw [List.countP_eq_zero]
  intro frame listed
  simp [allChecked frame listed]

theorem Tops.allChecked (tops : state.Tops lower top below cur) (orderly : state.Orderly)
    (checked : top.anchorChecked = true) :
    ∀ frame ∈ state.frames, frame.anchorChecked = true := by
  intro frame listed
  rw [tops.frames] at listed
  rcases List.mem_append.mp listed with inLower | isTop
  · exact orderly.lowerChecked frame (by simpa [tops.frames] using inLower)
  · rw [List.mem_singleton.mp isTop]
    exact checked

theorem Tops.waiting (tops : state.Tops lower top below cur) (orderly : state.Orderly)
    (unchecked : top.anchorChecked = false) : state.waiting = 1 := by
  have lowerNone : lower.countP (fun frame => !frame.anchorChecked) = 0 := by
    rw [List.countP_eq_zero]
    intro frame listed
    simp [orderly.lowerChecked frame (by simpa [tops.frames] using listed)]
  unfold PathCandidates.waiting
  rw [tops.frames, List.countP_append, lowerNone]
  simp [unchecked]

theorem orderly_of_allChecked (paired : state.Paired)
    (allChecked : ∀ frame ∈ state.frames, frame.anchorChecked = true) : state.Orderly :=
  { paired with
    lowerChecked := fun frame listed => allChecked frame (List.mem_of_mem_dropLast listed)
    yieldedChecked := fun frame listed _ => allChecked frame listed }

theorem pushesFrame_of_le {next : PathCandidates}
    (lower : next.frames.length ≤ state.frames.length) : state.pushesFrame next = false := by
  simp [pushesFrame, lower]

/-- Below the anchor check a frame is pushed exactly when one waits afterwards. -/
theorem Explores.counts {next : PathCandidates} (paired : state.Paired)
    (tops : state.Tops lower top below cur)
    (allChecked : ∀ frame ∈ state.frames, frame.anchorChecked = true)
    (explores : Explores der state lower top cur next) :
    next.Orderly ∧ next.budget = state.budget ∧
      (state.pushesFrame next).toNat = next.waiting := by
  have nextPaired := explores.paired paired tops
  have topChecked : top.anchorChecked = true := allChecked top (by simp [tops.frames])
  have popped : ∀ frame ∈ state.pop.frames, frame.anchorChecked = true :=
    fun frame listed => allChecked frame (List.mem_of_mem_dropLast listed)
  have afterPop : (state.pushesFrame state.pop).toNat = state.pop.waiting := by
    rw [waiting_eq_zero popped, pushesFrame_of_le (by simp [pop])]
    rfl
  have moved : ∀ frame ∈ (advanced der state top cur).frames, frame.anchorChecked = true := by
    intro frame listed
    have place : frame ∈ lower ∨ frame = { top with
        ranked := some (ranking der state top cur), cursor := top.cursor + 1 } := by
      simpa [advanced, setTop, tops.frames] using listed
    rcases place with inLower | isTop
    · exact allChecked frame (by simp [tops.frames, inLower])
    · rw [isTop]
      exact topChecked
  cases explores with
  | tooDeep => exact ⟨orderly_of_allChecked nextPaired popped, rfl, afterPop⟩
  | exhausted => exact ⟨orderly_of_allChecked nextPaired popped, rfl, afterPop⟩
  | skipped =>
      refine ⟨orderly_of_allChecked nextPaired moved, rfl, ?_⟩
      rw [waiting_eq_zero moved, pushesFrame_of_le (by simp [advanced, setTop, tops.frames])]
      rfl
  | pushed tier idx candidate =>
      refine ⟨{ nextPaired with lowerChecked := ?_, yieldedChecked := ?_ }, rfl, ?_⟩
      · intro frame listed
        exact moved frame (by simpa [push] using listed)
      · intro frame listed yielded
        rcases List.mem_append.mp listed with below | fresh
        · exact moved frame below
        · rw [List.mem_singleton.mp fresh] at yielded
          cases yielded
      · have none_ : (advanced der state top cur).waiting = 0 := waiting_eq_zero moved
        have one : ((advanced der state top cur).push candidate).waiting = 1 := by
          unfold waiting at none_ ⊢
          simp [push, none_, Frame.new]
        have grows : state.pushesFrame ((advanced der state top cur).push candidate) = true := by
          simp [pushesFrame, push, advanced, setTop, tops.frames]
        rw [one, grows]
        rfl

/-- What is counted along a life. -/
structure Counted (start : PathCandidates) (entries pushes : Nat) (state : PathCandidates) :
    Prop where
  orderly : state.Orderly
  spent : entries + state.budget = start.budget
  entered : pushes + 1 = entries + state.waiting

theorem Orderly.withFrames (orderly : state.Orderly) {next : PathCandidates}
    (sameFrames : next.frames = state.frames) (samePath : next.path = state.path)
    (samePool : next.pool = state.pool) : next.Orderly :=
  { sameHeight := by rw [sameFrames, samePath]; exact orderly.sameHeight
    inRange := by rw [sameFrames, samePool]; exact orderly.inRange
    lowerChecked := by rw [sameFrames]; exact orderly.lowerChecked
    yieldedChecked := by rw [sameFrames]; exact orderly.yieldedChecked }

theorem entersFrame_eq (tops : state.Tops lower top below cur) :
    state.entersFrame = (!top.anchorYielded && !top.anchorChecked && state.budget != 0) := by
  simp [entersFrame, tops.frames]

theorem entered_allChecked (tops : state.Tops lower top below cur) (orderly : state.Orderly) :
    ∀ frame ∈ (state.entered top).frames, frame.anchorChecked = true := by
  intro frame listed
  rw [tops.entered.frames] at listed
  rcases List.mem_append.mp listed with inLower | isTop
  · exact orderly.lowerChecked frame (by simpa [tops.frames] using inLower)
  · rw [List.mem_singleton.mp isTop]

theorem Counted.again {start next : PathCandidates} {entries pushes : Nat}
    (counted : Counted start entries pushes state) (turned : turn der state = .again next) :
    Counted start (entries + state.entersFrame.toNat)
      (pushes + (state.pushesFrame next).toNat) next := by
  have orderly := counted.orderly
  have spent := counted.spent
  have entered := counted.entered
  have turns := turn_turns der orderly.toPaired
  rw [turned] at turns
  cases turns with
  | @retired _ top _ _ tops yielded =>
      have checked := orderly.yieldedChecked top (by simp [tops.frames]) yielded
      have allChecked := tops.allChecked orderly checked
      have notEntered : state.entersFrame = false := by
        simp [entersFrame_eq tops, yielded]
      have popped : ∀ frame ∈ state.pop.frames, frame.anchorChecked = true :=
        fun frame listed => allChecked frame (List.mem_of_mem_dropLast listed)
      rw [notEntered, pushesFrame_of_le (by simp [pop])]
      rw [waiting_eq_zero allChecked] at entered
      exact ⟨orderly_of_allChecked orderly.toPaired.pop popped, spent,
        by rw [waiting_eq_zero popped]; exact entered⟩
  | @enters _ top _ _ _ tops notYielded unchecked left _ explores =>
      have enteredFrame : state.entersFrame = true := by
        simp [entersFrame_eq tops, notYielded, unchecked]
        omega
      have counts := explores.counts (orderly.toPaired.entered tops) tops.entered
        (entered_allChecked tops orderly)
      have samePushes : state.pushesFrame next = (state.entered top).pushesFrame next := by
        simp [pushesFrame, tops.entered.frames, tops.frames]
      have oneWaited := tops.waiting orderly unchecked
      have charged : next.budget = state.budget - 1 := counts.2.1
      rw [enteredFrame, samePushes, counts.2.2, Bool.toNat_true]
      exact ⟨counts.1, by omega, by omega⟩
  | resumes tops _ checked explores =>
      have notEntered : state.entersFrame = false := by
        simp [entersFrame_eq tops, checked]
      have allChecked := tops.allChecked orderly checked
      have counts := explores.counts orderly.toPaired tops allChecked
      rw [waiting_eq_zero allChecked] at entered
      rw [notEntered, counts.2.2, Bool.toNat_false]
      exact ⟨counts.1, by rw [counts.2.1]; exact spent, by omega⟩

theorem Counted.answer {start next : PathCandidates} {entries pushes : Nat} {item : Item}
    (counted : Counted start entries pushes state)
    (turned : turn der state = .answer item next) :
    Counted start (entries + state.entersFrame.toNat)
      (pushes + (state.pushesFrame next).toNat) next := by
  have orderly := counted.orderly
  have spent := counted.spent
  have entered := counted.entered
  have turns := turn_turns der orderly.toPaired
  rw [turned] at turns
  cases turns with
  | finished empty =>
      have notEntered : state.entersFrame = false := by simp [entersFrame, empty]
      rw [notEntered, pushesFrame_of_le (by simp)]
      exact ⟨orderly.withFrames rfl rfl rfl, spent, entered⟩
  | overBudget tops _ _ noBudget =>
      have notEntered : state.entersFrame = false := by
        simp [entersFrame_eq tops, noBudget]
      rw [notEntered, pushesFrame_of_le (by simp)]
      exact ⟨orderly.withFrames rfl rfl rfl, spent, entered⟩
  | @yields lower top _ _ tops notYielded unchecked left =>
      have enteredFrame : state.entersFrame = true := by
        simp [entersFrame_eq tops, notYielded, unchecked]
        omega
      have shape : ((state.entered top).setTop
          { top with anchorChecked := true, anchorYielded := true }).frames =
          lower ++ [{ top with anchorChecked := true, anchorYielded := true }] := by
        simp [setTop, tops.entered.frames]
      have allChecked : ∀ frame ∈ ((state.entered top).setTop
          { top with anchorChecked := true, anchorYielded := true }).frames,
          frame.anchorChecked = true := by
        intro frame listed
        rw [shape] at listed
        rcases List.mem_append.mp listed with inLower | isTop
        · exact orderly.lowerChecked frame (by simpa [tops.frames] using inLower)
        · rw [List.mem_singleton.mp isTop]
      have oneWaited := tops.waiting orderly unchecked
      rw [enteredFrame, pushesFrame_of_le (by rw [shape, tops.frames]; simp), Bool.toNat_true,
        Bool.toNat_false]
      refine ⟨orderly_of_allChecked (paired_answer orderly.toPaired turned) allChecked, ?_, ?_⟩
      · change entries + 1 + (state.budget - 1) = start.budget
        omega
      · rw [waiting_eq_zero allChecked]
        omega

theorem counted_new (target : Certificate) (pool : List Certificate)
    (anchors : List TrustAnchor) (config : PathBuilderConfig) :
    Counted (new target pool anchors config) 0 0 (new target pool anchors config) where
  orderly :=
    { paired_new target pool anchors config with
      lowerChecked := fun frame listed => by simp [new] at listed
      yieldedChecked := fun frame listed yielded => by
        rw [List.mem_singleton.mp listed] at yielded
        cases yielded }
  spent := Nat.zero_add _
  entered := rfl

theorem Life.counted {target : Certificate} {pool : List Certificate}
    {anchors : List TrustAnchor} {config : PathBuilderConfig} {entries pushes : Nat}
    (life : Life der (new target pool anchors config) entries pushes state) :
    Counted (new target pool anchors config) entries pushes state := by
  induction life with
  | start => exact counted_new target pool anchors config
  | called life _ ih => exact ⟨ih.orderly.withFrames rfl rfl rfl, ih.spent, ih.entered⟩
  | again life _ turned ih => exact ih.again turned
  | answered life _ turned ih => exact ih.answer turned

end Counting

section Calls

variable {der : BuilderCodec}

theorem calls_done {state final : PathCandidates} {items : List Item}
    (calls : Calls der state items final) (done : state.done = true) :
    ∀ item ∈ items, item = none := by
  induction calls with
  | none => simp
  | next returned rest ih =>
      rw [nextWithin_done _ done] at returned
      cases returned
      intro item listed
      rcases List.mem_cons.mp listed with first | later
      · exact first
      · exact ih done item later

/-- An answer other than a chain closes the iterator. -/
theorem loopWithin_closes {turns : Nat} {state next : PathCandidates} {item : Item}
    (paired : state.Paired) (returned : loopWithin der turns state = some (.returned item next))
    (noChain : ∀ chain, item ≠ some (.ok chain)) : next.done = true := by
  rcases @loopWithin_answers der state (fun _ => True) turns item next
    (fun _ _ _ _ _ => trivial) paired trivial returned with ⟨last, lastPaired, _, turned⟩
  have turns := turn_turns der lastPaired
  rw [turned] at turns
  cases turns with
  | finished => rfl
  | overBudget => rfl
  | yields => exact absurd rfl (noChain _)

theorem nextWithin_closes {turns : Nat} {state next : PathCandidates} {item : Item}
    (paired : state.Paired) (returned : nextWithin der turns state = some (.returned item next))
    (noChain : ∀ chain, item ≠ some (.ok chain)) : next.done = true := by
  cases busy : state.done with
  | true =>
      rw [nextWithin_done turns busy] at returned
      cases returned
      exact busy
  | false =>
      rw [nextWithin_busy turns busy] at returned
      exact loopWithin_closes paired.started returned noChain

end Calls

section Reached

variable {der : BuilderCodec}

theorem done_again {state next : PathCandidates} (paired : state.Paired)
    (turned : turn der state = .again next) : next.done = state.done := by
  have turns := turn_turns der paired
  rw [turned] at turns
  cases turns with
  | retired => rfl
  | enters _ _ _ _ _ explores => cases explores <;> rfl
  | resumes _ _ _ explores => cases explores <;> rfl

theorem Life.loop {start : PathCandidates} {entries pushes turns : Nat}
    {state next : PathCandidates} {item : Item} (paired : state.Paired)
    (life : Life der start entries pushes state) (busy : state.done = false)
    (returned : loopWithin der turns state = some (.returned item next)) :
    ∃ entries pushes, Life der start entries pushes next := by
  have kept : ∀ state next, state.Paired →
      (state.done = false ∧ ∃ entries pushes, Life der start entries pushes state) →
      turn der state = .again next →
      next.done = false ∧ ∃ entries pushes, Life der start entries pushes next := by
    intro state next midPaired midLife turned
    rcases midLife with ⟨midBusy, _, _, here⟩
    exact ⟨(done_again midPaired turned).trans midBusy, _, _, here.again midBusy turned⟩
  rcases loopWithin_answers kept paired ⟨busy, _, _, life⟩ returned with
    ⟨last, _, ⟨lastBusy, _, _, lastLife⟩, turned⟩
  exact ⟨_, _, lastLife.answered lastBusy turned⟩

/-- The states between the calls are among those of the life. -/
theorem Life.calls {target : Certificate} {pool : List Certificate} {anchors : List TrustAnchor}
    {config : PathBuilderConfig} {entries pushes : Nat} {state final : PathCandidates}
    {items : List Item} (life : Life der (new target pool anchors config) entries pushes state)
    (calls : Calls der state items final) :
    ∃ entries pushes, Life der (new target pool anchors config) entries pushes final := by
  induction calls generalizing entries pushes with
  | none => exact ⟨entries, pushes, life⟩
  | @next state mid _ turns item _ returned rest ih =>
      cases busy : state.done with
      | true =>
          rw [nextWithin_done turns busy] at returned
          cases returned
          exact ih life
      | false =>
          rw [nextWithin_busy turns busy] at returned
          rcases (life.called busy).loop life.counted.orderly.toPaired.started busy returned with
            ⟨_, _, reached⟩
          exact ih reached

end Reached

/-- In whatever state an iterator is, it has entered and pushed no more frames than its
budget, the stacks are paired and no turn fails; a call made then ends, calls lead to such
states again, and one that does not return a chain makes every later call return nothing. -/
theorem search_ends {der : BuilderCodec} {target : Certificate} {pool : List Certificate}
    {anchors : List TrustAnchor} {config : PathBuilderConfig} {entries pushes : Nat}
    {state : PathCandidates}
    (life : Life der (new target pool anchors config) entries pushes state) :
    entries ≤ config.dfsBudget ∧ pushes ≤ config.dfsBudget ∧
      state.frames.length = state.path.length ∧ turn der state ≠ .panicked ∧
      (∀ turns, state.turnBound < turns →
        ∃ item next, nextWithin der turns state = some (.returned item next)) ∧
      (∀ items final, Calls der state items final →
        ∃ entries pushes, Life der (new target pool anchors config) entries pushes final) ∧
      (∀ turns item next, nextWithin der turns state = some (.returned item next) →
        (∀ chain, item ≠ some (.ok chain)) →
        ∀ items final, Calls der next items final → ∀ later ∈ items, later = none) := by
  have counted := life.counted
  have paired := counted.orderly.toPaired
  have spent : entries + state.budget = config.dfsBudget := counted.spent
  have entered := counted.entered
  have waitingOne : state.waiting ≤ 1 := by
    by_cases busy : state.frames = []
    · simp [waiting, busy]
    · rcases paired.tops busy with ⟨lower, top, below, cur, tops⟩
      cases checked : top.anchorChecked with
      | true =>
          rw [waiting_eq_zero (tops.allChecked counted.orderly checked)]
          omega
      | false => rw [tops.waiting counted.orderly checked]
  refine ⟨by omega, by omega, paired.sameHeight, turn_ne_panicked paired, ?_, ?_, ?_⟩
  · intro turns enough
    exact nextWithin_ends paired enough
  · intro items final calls
    exact life.calls calls
  · intro turns item next returned noChain items final calls
    exact calls_done calls (nextWithin_closes paired returned noChain)

end Pkix.PathBuilder.PathCandidates

namespace Pkix.PathBuilder.Concrete

open Pkix.Path Pkix.Path.Concrete PathCandidates

/-- No certificate names a key identifier. -/
def builderCodec (tables : ContentTables) : BuilderCodec :=
  { tableCodec tables with
    authorityKeyIdentifier := fun _ => none
    subjectKeyIdentifier := fun _ => none }

def caCodec : BuilderCodec := builderCodec { basicConstraints := caTable }

def rootAnchors : List TrustAnchor := [anchorNamed (commonName [65]) [1] none]

def leafCert : Certificate := issue 2 (commonName [66]) (commonName [67]) [4] [8] []

/-- The issuer of the leaf, its own issuer, and a certificate back down under the same name
as the latter. -/
def crossedPool : List Certificate :=
  [issue 3 (commonName [68]) (commonName [66]) [5] [4] [caExtension],
   issue 4 (commonName [65]) (commonName [68]) [1] [5] [caExtension],
   issue 5 (commonName [66]) (commonName [68]) [4] [6] [caExtension]]

def crossedSearch : PathCandidates := .new leafCert crossedPool rootAnchors .new

theorem crossedSearch_ends :
    ∃ item next, nextWithin caCodec 1000000 crossedSearch = some (.returned item next) :=
  (search_ends (Life.start : Life caCodec crossedSearch 0 0 crossedSearch)).2.2.2.2.1 1000000 (by decide +kernel)

end Pkix.PathBuilder.Concrete
