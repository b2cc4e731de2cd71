import Mathlib.Data.List.Forall2
import Mathlib.Logic.Equiv.Basic
import Mathlib.Tactic.Common

/-! Fallible walks over a list of items, front first. A step sees the item, the
items still pending below it and the state; the first error stops the walk. -/

namespace Pkix.Walk

variable {α β σ ε : Type}

theorem bind_ok {first : Except ε α} {next : α → Except ε β} {result : β} :
    (first >>= next) = .ok result ↔ ∃ value, first = .ok value ∧ next value = .ok result := by
  cases first with
  | error e => simp [bind, Except.bind]
  | ok value => simp [bind, Except.bind]

theorem bind_error {first : Except ε α} {next : α → Except ε β} {failure : ε} :
    (first >>= next) = .error failure ↔
      first = .error failure ∨ ∃ value, first = .ok value ∧ next value = .error failure := by
  cases first with
  | error e => simp [bind, Except.bind]
  | ok value => simp [bind, Except.bind]

theorem then_ok {check : Except ε Unit} {next : Unit → Except ε β} {result : β} :
    (check >>= next) = .ok result ↔ check = .ok () ∧ next () = .ok result := by
  cases check with
  | error e => simp [bind, Except.bind]
  | ok value => simp [bind, Except.bind]

theorem pure_ok {value result : β} : (pure value : Except ε β) = .ok result ↔ value = result := by
  simp [pure, Except.pure]

theorem mapM_ok_iff {check : α → Except ε β} {items : List α} {results : List β} :
    items.mapM check = .ok results ↔
      List.Forall₂ (fun item result => check item = .ok result) items results := by
  induction items generalizing results with
  | nil =>
      rw [List.mapM_nil, pure_ok, List.forall₂_nil_left_iff]
      exact eq_comm
  | cons item rest ih =>
      rw [List.mapM_cons, bind_ok, List.forall₂_cons_left_iff]
      constructor
      · intro done
        obtain ⟨result, first, done⟩ := done
        obtain ⟨others, later, done⟩ := bind_ok.mp done
        exact ⟨result, others, first, ih.mp later, (pure_ok.mp done).symm⟩
      · intro each
        obtain ⟨result, others, first, later, split⟩ := each
        exact ⟨result, first, bind_ok.mpr ⟨others, ih.mpr later, pure_ok.mpr split.symm⟩⟩

theorem exists_result {relates : α → β → Prop} {items : List α} {results : List β}
    (each : List.Forall₂ relates items results) :
    ∀ item ∈ items, ∃ result ∈ results, relates item result := by
  induction each with
  | nil => exact List.forall_mem_nil _
  | cons first _ ih =>
      rw [List.forall_mem_cons]
      refine ⟨⟨_, List.mem_cons_self, first⟩, ?_⟩
      intro item later
      obtain ⟨result, member, related⟩ := ih item later
      exact ⟨result, List.mem_cons_of_mem _ member, related⟩

def walk (step : α → List α → σ → Except ε σ) : List α → σ → Except ε σ
  | [], state => .ok state
  | item :: below, state => step item below state >>= walk step below

variable {step : α → List α → σ → Except ε σ}

theorem walk_cons {item : α} {below : List α} {state final : σ}
    (finished : walk step (item :: below) state = .ok final) :
    ∃ next, step item below state = .ok next ∧ walk step below next = .ok final :=
  bind_ok.mp finished

/-- The visit rule. An invariant over the items done, the items pending and the
state, kept by every step, holds at each visited item and at the end. -/
theorem walk_visits (holds : List α → List α → σ → Prop)
    (preserved : ∀ above item below state next, holds above (item :: below) state →
      step item below state = .ok next → holds (above ++ [item]) below next)
    (pending : List α) (start final : σ) (initial : holds [] pending start)
    (finished : walk step pending start = .ok final) :
    holds pending [] final ∧
      ∀ above item below, pending = above ++ item :: below →
        ∃ state next, holds above (item :: below) state ∧
          step item below state = .ok next ∧ holds (above ++ [item]) below next := by
  suffices general : ∀ pending done start, holds done pending start →
      walk step pending start = .ok final →
      holds (done ++ pending) [] final ∧
        ∀ above item below, pending = above ++ item :: below →
          ∃ state next, holds (done ++ above) (item :: below) state ∧
            step item below state = .ok next ∧ holds (done ++ above ++ [item]) below next by
    simpa using general pending [] start initial finished
  intro pending
  induction pending with
  | nil =>
      intro done start current finished
      cases finished
      refine ⟨by simpa using current, ?_⟩
      intro above item below split
      simp at split
  | cons head tail ih =>
      intro done start current finished
      obtain ⟨next, stepped, rest⟩ := walk_cons finished
      have advanced := preserved done head tail start next current stepped
      have later := ih (done ++ [head]) next advanced rest
      refine ⟨by simpa using later.1, ?_⟩
      intro above item below split
      cases above with
      | nil =>
          simp only [List.nil_append, List.cons.injEq] at split
          obtain ⟨rfl, rfl⟩ := split
          exact ⟨start, next, by simpa using current, stepped, by simpa using advanced⟩
      | cons first others =>
          simp only [List.cons_append, List.cons.injEq] at split
          obtain ⟨rfl, split⟩ := split
          simpa using later.2 others item below split

/-- The state after a run of advances, the items done listed latest first. -/
def runs (advance : List α → α → σ → σ) (start : σ) : List α → σ
  | [] => start
  | item :: above => advance above item (runs advance start above)

/-- The success rule. When every step but the last is a guarded advance, a walk
succeeds exactly when each guard holds in the advanced state and the last step does. -/
theorem walk_snoc_ok_iff (advance : List α → α → σ → σ) (allowed : α → List α → σ → Prop)
    (items : List α) (last : α) (start final : σ)
    (steps : ∀ above item below state next, items = above ++ item :: below →
      (step item (below ++ [last]) state = .ok next ↔
        allowed item (below ++ [last]) state ∧ next = advance above.reverse item state)) :
    walk step (items ++ [last]) start = .ok final ↔
      (∀ above item below, items = above ++ item :: below →
        allowed item (below ++ [last]) (runs advance start above.reverse)) ∧
      step last [] (runs advance start items.reverse) = .ok final := by
  suffices general : ∀ pending done, items = done ++ pending →
      (walk step (pending ++ [last]) (runs advance start done.reverse) = .ok final ↔
        (∀ above item below, pending = above ++ item :: below →
          allowed item (below ++ [last]) (runs advance start (done ++ above).reverse)) ∧
        step last [] (runs advance start items.reverse) = .ok final) by
    simpa [runs] using general items [] rfl
  intro pending
  induction pending with
  | nil =>
      intro done split
      rw [List.append_nil] at split
      subst split
      simp [walk, bind_ok]
  | cons head tail ih =>
      intro done split
      have advanced : runs advance start (done ++ [head]).reverse =
          advance done.reverse head (runs advance start done.reverse) := by
        rw [List.reverse_append, List.reverse_singleton, List.singleton_append, runs]
      have later := ih (done ++ [head]) (by rw [split, List.append_assoc]; rfl)
      rw [advanced] at later
      rw [List.cons_append, walk, bind_ok]
      constructor
      · rintro ⟨next, stepped, rest⟩
        obtain ⟨guarded, rfl⟩ := (steps done head tail _ next split).mp stepped
        obtain ⟨everywhere, ended⟩ := later.mp rest
        refine ⟨?_, ended⟩
        intro above item below inside
        cases above with
        | nil =>
            simp only [List.nil_append, List.cons.injEq] at inside
            obtain ⟨rfl, rfl⟩ := inside
            simpa using guarded
        | cons first others =>
            simp only [List.cons_append, List.cons.injEq] at inside
            obtain ⟨rfl, inside⟩ := inside
            simpa using everywhere others item below inside
      · rintro ⟨everywhere, ended⟩
        have guarded := everywhere [] head tail rfl
        rw [List.append_nil] at guarded
        refine ⟨_, (steps done head tail _ _ split).mpr ⟨guarded, rfl⟩, later.mpr ⟨?_, ended⟩⟩
        intro above item below inside
        simpa using everywhere (head :: above) item below (by rw [inside, List.cons_append])

/-- The states of a walk, with the items done and the items still pending. -/
inductive Reached (step : α → List α → σ → Except ε σ) (items : List α) (start : σ) :
    List α → List α → σ → Prop
  | start : Reached step items start [] items start
  | step {above : List α} {item : α} {below : List α} {state next : σ}
      (earlier : Reached step items start above (item :: below) state)
      (taken : step item below state = .ok next) :
      Reached step items start (above ++ [item]) below next

theorem Reached.split {items above below : List α} {start state : σ}
    (reached : Reached step items start above below state) : items = above ++ below := by
  induction reached with
  | start => rfl
  | step _ _ ih => rw [ih, List.append_assoc, List.singleton_append]

/-- A finished walk has reached its final state. -/
theorem reached_of_walk {items : List α} {start final : σ}
    (finished : walk step items start = .ok final) : Reached step items start items [] final := by
  have visits := (walk_visits (Reached step items start)
    (fun _ _ _ _ _ earlier taken => earlier.step taken) items start final .start finished).1
  exact visits

/-- What the last step of a reached state started from. -/
theorem Reached.last {items above below : List α} {item : α} {start state : σ}
    (reached : Reached step items start (above ++ [item]) below state) :
    ∃ earlier, Reached step items start above (item :: below) earlier ∧
      step item below earlier = .ok state := by
  generalize visited : above ++ [item] = done at reached
  cases reached with
  | start => simp at visited
  | step earlier taken =>
      rcases List.append_inj' visited rfl with ⟨same, last⟩
      cases same
      cases last
      exact ⟨_, earlier, taken⟩

section Avoids

variable {bad : ε → Prop}

/-- No failure of the outcome is a bad one. -/
def Avoids (bad : ε → Prop) (outcome : Except ε α) : Prop :=
  ∀ failure, outcome = .error failure → ¬bad failure

theorem avoids_ok (value : α) : Avoids bad (.ok value : Except ε α) := by
  intro failure failed
  cases failed

theorem avoids_error {failure : ε} (harmless : ¬bad failure) :
    Avoids bad (.error failure : Except ε α) := by
  intro other failed
  cases failed
  exact harmless

theorem Avoids.bind {first : Except ε α} {next : α → Except ε β} (here : Avoids bad first)
    (later : ∀ value, first = .ok value → Avoids bad (next value)) :
    Avoids bad (first >>= next) := by
  intro failure failed
  rcases bind_error.mp failed with stopped | ⟨value, passed, stopped⟩
  · exact here failure stopped
  · exact later value passed failure stopped

/-- The failure rule. A walk avoids bad failures when every step it can reach does. -/
theorem walk_avoids {items : List α} {start : σ}
    (steps : ∀ above item below state, Reached step items start above (item :: below) state →
      Avoids bad (step item below state)) :
    Avoids bad (walk step items start) := by
  suffices general : ∀ pending done state, Reached step items start done pending state →
      Avoids bad (walk step pending state) from general items [] start .start
  intro pending
  induction pending with
  | nil =>
      intro done state _
      exact avoids_ok state
  | cons item below ih =>
      intro done state reached
      apply Avoids.bind (steps done item below state reached)
      intro next taken
      exact ih (done ++ [item]) next (reached.step taken)

end Avoids

section Tracks

variable {σ₁ σ₂ : Type}
variable {left : α → List α → σ₁ → Except ε σ₁} {right : α → List α → σ₂ → Except ε σ₂}

/-- The track rule. When every step of a walk is two steps on two independent
parts of the state, the walk is two walks. -/
theorem walk_tracks (track : σ ≃ σ₁ × σ₂) (left : α → List α → σ₁ → Except ε σ₁)
    (right : α → List α → σ₂ → Except ε σ₂)
    (splits : ∀ item below state next, step item below state = .ok next ↔
      left item below (track state).1 = .ok (track next).1 ∧
      right item below (track state).2 = .ok (track next).2)
    {items : List α} {state final : σ} :
    walk step items state = .ok final ↔
      walk left items (track state).1 = .ok (track final).1 ∧
      walk right items (track state).2 = .ok (track final).2 := by
  induction items generalizing state with
  | nil =>
      simp only [walk, Except.ok.injEq]
      rw [← Prod.ext_iff, track.apply_eq_iff_eq]
  | cons item below ih =>
      simp only [walk, bind_ok, splits, ih]
      constructor
      · rintro ⟨next, ⟨first, second⟩, restFirst, restSecond⟩
        exact ⟨⟨_, first, restFirst⟩, ⟨_, second, restSecond⟩⟩
      · rintro ⟨⟨a, first, restFirst⟩, ⟨b, second, restSecond⟩⟩
        refine ⟨track.symm (a, b), ?_⟩
        simp only [Equiv.apply_symm_apply]
        exact ⟨⟨first, second⟩, restFirst, restSecond⟩

def both (left : α → List α → σ₁ → Except ε σ₁) (right : α → List α → σ₂ → Except ε σ₂)
    (item : α) (below : List α) (state : σ₁ × σ₂) : Except ε (σ₁ × σ₂) := do
  let first ← left item below state.1
  let second ← right item below state.2
  pure (first, second)

theorem both_ok_iff {item : α} {below : List α} {state next : σ₁ × σ₂} :
    both left right item below state = .ok next ↔
      left item below state.1 = .ok next.1 ∧ right item below state.2 = .ok next.2 := by
  simp only [both, bind_ok, pure_ok]
  constructor
  · rintro ⟨first, stepped, second, followed, rfl⟩
    exact ⟨stepped, followed⟩
  · intro stepped
    exact ⟨next.1, stepped.1, next.2, stepped.2, rfl⟩

theorem walk_both {items : List α} {state final : σ₁ × σ₂} :
    walk (both left right) items state = .ok final ↔
      walk left items state.1 = .ok final.1 ∧ walk right items state.2 = .ok final.2 :=
  walk_tracks (Equiv.refl _) left right (fun _ _ _ _ => both_ok_iff)

end Tracks

end Pkix.Walk
