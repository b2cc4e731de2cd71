import Mathlib.Data.List.Nodup
import Mathlib.Data.Nat.Find

/-! Repeated steps of a partial function, and the search along them for an item that passes
a test. When every step leads into a list, as many steps as the list is long are enough. -/

namespace Pkix.Iteration

variable {α : Type} {next : α → Option α} {test : α → Bool}

def after (next : α → Option α) : (steps : Nat) → α → Option α
  | 0, item => some item
  | steps + 1, item => (next item).bind (after next steps)

/-- The item after these steps passes the test. -/
def Meets (next : α → Option α) (test : α → Bool) (steps : Nat) (item : α) : Prop :=
  ∃ met, after next steps item = some met ∧ test met = true

/-- The search that may still take so many steps. -/
def meetsWithin (next : α → Option α) (test : α → Bool) : (steps : Nat) → α → Bool
  | 0, item => test item
  | steps + 1, item => test item || (next item).any (meetsWithin next test steps)

@[simp] theorem after_zero (item : α) : after next 0 item = some item := rfl

theorem after_succ (steps : Nat) (item : α) :
    after next (steps + 1) item = (next item).bind (after next steps) := rfl

theorem after_add (early late : Nat) (item : α) :
    after next (early + late) item = (after next early item).bind (after next late) := by
  induction early generalizing item with
  | zero => simp
  | succ early ih =>
      rw [Nat.succ_add, after_succ, after_succ, Option.bind_assoc]
      congr 1
      funext other
      exact ih other

@[simp] theorem meets_zero_iff {item : α} : Meets next test 0 item ↔ test item = true := by
  simp [Meets]

theorem meets_succ_iff {steps : Nat} {item : α} :
    Meets next test (steps + 1) item ↔
      ∃ other, next item = some other ∧ Meets next test steps other := by
  simp only [Meets, after_succ, Option.bind_eq_some_iff]
  constructor
  · rintro ⟨met, ⟨other, step, reached⟩, passes⟩
    exact ⟨other, step, met, reached, passes⟩
  · rintro ⟨other, step, met, reached, passes⟩
    exact ⟨met, ⟨other, step, reached⟩, passes⟩

theorem meetsWithin_iff {steps : Nat} {item : α} :
    meetsWithin next test steps item = true ↔ ∃ fewer ≤ steps, Meets next test fewer item := by
  induction steps generalizing item with
  | zero => simp [meetsWithin]
  | succ steps ih =>
      rw [meetsWithin, Bool.or_eq_true, Option.any_eq_true]
      constructor
      · rintro (passes | ⟨other, step, found⟩)
        · exact ⟨0, Nat.zero_le _, meets_zero_iff.mpr passes⟩
        · obtain ⟨fewer, within, meets⟩ := ih.mp found
          exact ⟨fewer + 1, Nat.succ_le_succ within, meets_succ_iff.mpr ⟨other, step, meets⟩⟩
      · rintro ⟨fewer, within, meets⟩
        cases fewer with
        | zero => exact .inl (meets_zero_iff.mp meets)
        | succ fewer =>
            obtain ⟨other, step, further⟩ := meets_succ_iff.mp meets
            exact .inr ⟨other, step, ih.mpr ⟨fewer, Nat.le_of_succ_le_succ within, further⟩⟩

/-- Every item on the way is there. -/
theorem exists_after {steps early : Nat} {item : α} (meets : Meets next test steps item)
    (before : early ≤ steps) : ∃ other, after next early item = some other := by
  obtain ⟨met, reached, _⟩ := meets
  rw [← Nat.add_sub_cancel' before, after_add] at reached
  obtain ⟨other, there, _⟩ := Option.bind_eq_some_iff.mp reached
  exact ⟨other, there⟩

/-- A way that comes back to an item can leave out the circle. -/
theorem Meets.leaveOut {steps early late : Nat} {item : α} (meets : Meets next test steps item)
    (same : after next early item = after next late item) (within : late ≤ steps) :
    Meets next test (early + (steps - late)) item := by
  obtain ⟨met, reached, passes⟩ := meets
  have shorter : after next (early + (steps - late)) item = some met := by
    calc after next (early + (steps - late)) item
        = (after next early item).bind (after next (steps - late)) := after_add ..
      _ = (after next late item).bind (after next (steps - late)) := by rw [same]
      _ = after next (late + (steps - late)) item := (after_add ..).symm
      _ = some met := by rw [Nat.add_sub_cancel' within, reached]
  exact ⟨met, shorter, passes⟩

section Bound

variable {items : List α} {item : α}

theorem after_mem (inside : ∀ item other, next item = some other → other ∈ items) {steps : Nat}
    {other : α} (reached : after next (steps + 1) item = some other) : other ∈ items := by
  rw [after_add] at reached
  obtain ⟨last, _, step⟩ := Option.bind_eq_some_iff.mp reached
  rw [after_succ] at step
  obtain ⟨_, step, same⟩ := Option.bind_eq_some_iff.mp step
  cases same
  exact inside last other step

/-- What the steps lead to, one place after the other. -/
def places (next : α → Option α) (steps : Nat) (item : α) : List (Option α) :=
  (List.range steps).map fun place => after next (place + 1) item

@[simp] theorem length_places (steps : Nat) : (places next steps item).length = steps := by
  simp [places]

theorem places_subset (inside : ∀ item other, next item = some other → other ∈ items) {steps : Nat}
    (meets : Meets next test steps item) : places next steps item ⊆ items.map some := by
  intro reached member
  obtain ⟨place, within, rfl⟩ := List.mem_map.mp member
  obtain ⟨other, there⟩ := exists_after meets (List.mem_range.mp within)
  rw [there]
  exact List.mem_map_of_mem (after_mem inside there)

/-- No item comes twice on a shortest way. -/
theorem nodup_places {steps : Nat} (meets : Meets next test steps item)
    (shortest : ∀ fewer, Meets next test fewer item → steps ≤ fewer) :
    (places next steps item).Nodup := by
  have apart : ∀ early late, early < late → late ≤ steps →
      after next early item ≠ after next late item := by
    intro early late earlier within same
    have shorter := shortest _ (meets.leaveOut same within)
    omega
  refine List.Nodup.map_on ?_ List.nodup_range
  intro early earlyIn late lateIn same
  have earlyWithin := List.mem_range.mp earlyIn
  have lateWithin := List.mem_range.mp lateIn
  rcases Nat.lt_trichotomy early late with earlier | equal | later
  · exact absurd same (apart _ _ (Nat.succ_lt_succ earlier) lateWithin)
  · exact equal
  · exact absurd same.symm (apart _ _ (Nat.succ_lt_succ later) earlyWithin)

/-- Different places of a list are no more than the list is long. -/
theorem exists_meets_le (inside : ∀ item other, next item = some other → other ∈ items)
    (met : ∃ steps, Meets next test steps item) :
    ∃ steps ≤ items.length, Meets next test steps item := by
  classical
  have least : Meets next test (Nat.find met) item := Nat.find_spec met
  have distinct : (places next (Nat.find met) item).Nodup :=
    nodup_places least fun fewer meets => Nat.find_min' met meets
  have short := distinct.length_le_of_subset (places_subset inside least)
  rw [length_places, List.length_map] at short
  exact ⟨Nat.find met, short, least⟩

end Bound

end Pkix.Iteration
