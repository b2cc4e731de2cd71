import Pkix.Lib.Walk

/-! A walk whose steps carry a guard of their own, and what the guard asks of every item. -/

namespace Pkix.Walk

variable {α σ ε : Type}

/-- Every item of the list passes, given the items pending below it. -/
def Along (passes : α → List α → Prop) : List α → Prop
  | [] => True
  | item :: below => passes item below ∧ Along passes below

theorem along_iff {passes : α → List α → Prop} {items : List α} :
    Along passes items ↔
      ∀ above item below, items = above ++ item :: below → passes item below := by
  induction items with
  | nil => simp [Along]
  | cons head tail ih =>
      rw [Along, ih]
      constructor
      · intro each above item below split
        cases above with
        | nil =>
            rw [List.nil_append, List.cons.injEq] at split
            rcases split with ⟨rfl, rfl⟩
            exact each.1
        | cons first others =>
            rw [List.cons_append, List.cons.injEq] at split
            exact each.2 others item below split.2
      · intro each
        refine ⟨each [] head tail rfl, ?_⟩
        intro above item below split
        exact each (head :: above) item below (by rw [split, List.cons_append])

/-- The guard rule. A step that is another step and a guard that does not read the state
makes a walk that is the other walk and the guard at every item. -/
theorem walk_guarded_iff {step base : α → List α → σ → Except ε σ}
    {passes : α → List α → Prop}
    (splits : ∀ item below state next, step item below state = .ok next ↔
      base item below state = .ok next ∧ passes item below)
    {items : List α} {state final : σ} :
    walk step items state = .ok final ↔
      walk base items state = .ok final ∧ Along passes items := by
  induction items generalizing state with
  | nil => simp [walk, Along]
  | cons item below ih =>
      simp only [walk, bind_ok, splits, ih, Along]
      constructor
      · rintro ⟨next, ⟨stepped, passed⟩, walked, rest⟩
        exact ⟨⟨next, stepped, walked⟩, passed, rest⟩
      · rintro ⟨⟨next, stepped, walked⟩, passed, rest⟩
        exact ⟨next, ⟨stepped, passed⟩, walked, rest⟩

end Pkix.Walk
