import Mathlib.Data.Set.Basic

/-! A set that grows round by round, each round by what the set so far offers. -/

namespace Growth

variable {α : Type*} {offers : Set α → Set α} {start : Set α} {round later : Nat}

def grown (offers : Set α → Set α) (start : Set α) : Nat → Set α
  | 0 => start
  | round + 1 => grown offers start round ∪ offers (grown offers start round)

theorem grown_subset (after : round ≤ later) :
    grown offers start round ⊆ grown offers start later := by
  induction later, after using Nat.le_induction with
  | base => exact subset_rfl
  | succ later _ ih => exact ih.trans Set.subset_union_left

/-- A round that adds nothing is followed by none that does. -/
theorem grown_stable (closed : offers (grown offers start round) ⊆ grown offers start round)
    (after : round ≤ later) : grown offers start later = grown offers start round := by
  induction later, after using Nat.le_induction with
  | base => rfl
  | succ later _ ih =>
      calc grown offers start (later + 1)
          = grown offers start round ∪ offers (grown offers start round) := by rw [grown, ih]
        _ = grown offers start round := Set.union_eq_self_of_subset_right closed

end Growth
