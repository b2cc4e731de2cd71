import Mathlib.Data.List.Sort
import Mathlib.Logic.Relation
import Mathlib.Order.Extension.Linear
import Mathlib.Tactic.Common

/-! The first item of a list that passes a test, for several tests at once: some order of
the list makes a set of such choices exactly when no circle of items has to precede one
another. -/

namespace Pkix.Choices

variable {α : Type}

structure Choice (α : Type) where
  test : α → Bool
  chosen : α

def Makes (items : List α) (choices : List (Choice α)) : Prop :=
  ∀ choice ∈ choices, items.find? choice.test = some choice.chosen

/-- One of the choices is `first` although `second` passes its test as well. -/
def Precedes (items : List α) (choices : List (Choice α)) (first second : α) : Prop :=
  ∃ choice ∈ choices, choice.chosen = first ∧ second ∈ items ∧ choice.test second = true ∧
    second ≠ first

structure Consistent (items : List α) (choices : List (Choice α)) : Prop where
  member : ∀ choice ∈ choices, choice.chosen ∈ items
  passes : ∀ choice ∈ choices, choice.test choice.chosen = true
  acyclic : ∀ item, ¬Relation.TransGen (Precedes items choices) item item

theorem makes_nil (items : List α) : Makes items [] := by
  intro choice member
  cases member

theorem makes_cons_iff {items : List α} {choice : Choice α} {choices : List (Choice α)} :
    Makes items (choice :: choices) ↔
      items.find? choice.test = some choice.chosen ∧ Makes items choices := by
  simp [Makes]

theorem Precedes.perm {items ordered : List α} {choices : List (Choice α)} {first second : α}
    (order : ordered.Perm items) (precedes : Precedes items choices first second) :
    Precedes ordered choices first second := by
  rcases precedes with ⟨choice, listed, isChosen, member, passes, other⟩
  exact ⟨choice, listed, isChosen, order.mem_iff.mpr member, passes, other⟩

section Order

open Classical in
/-- What has to precede stands before. -/
theorem idxOf_lt_of_precedes {items : List α} {choices : List (Choice α)} {first second : α}
    (makes : Makes items choices) (precedes : Precedes items choices first second) :
    items.idxOf first < items.idxOf second := by
  rcases precedes with ⟨choice, listed, isChosen, member, passes, other⟩
  rcases List.find?_eq_some_iff_append.mp (makes choice listed) with
    ⟨chosenPasses, before, after, split, fail⟩
  rw [isChosen] at chosenPasses split
  have notBefore : ∀ item, choice.test item = true → item ∉ before := by
    intro item itemPasses inBefore
    have failed := fail item inBefore
    rw [itemPasses] at failed
    cases failed
  rw [split, List.idxOf_append_of_notMem (notBefore first chosenPasses),
    List.idxOf_append_of_notMem (notBefore second passes), List.idxOf_cons_self,
    List.idxOf_cons_ne _ other.symm]
  omega

open Classical in
theorem acyclic_of_makes {items : List α} {choices : List (Choice α)}
    (makes : Makes items choices) (item : α) :
    ¬Relation.TransGen (Precedes items choices) item item := by
  intro circle
  have ahead : ∀ {first second : α}, Relation.TransGen (Precedes items choices) first second →
      items.idxOf first < items.idxOf second := by
    intro first second chain
    induction chain with
    | single precedes => exact idxOf_lt_of_precedes makes precedes
    | tail _ precedes ih => exact ih.trans (idxOf_lt_of_precedes makes precedes)
  exact absurd (ahead circle) (Nat.lt_irrefl _)

theorem consistent_of_makes {items ordered : List α} {choices : List (Choice α)}
    (order : ordered.Perm items) (makes : Makes ordered choices) : Consistent items choices := by
  have found : ∀ choice ∈ choices, ordered.find? choice.test = some choice.chosen := makes
  refine ⟨?_, ?_, ?_⟩
  · intro choice listed
    exact order.mem_iff.mp (List.mem_of_find?_eq_some (found choice listed))
  · intro choice listed
    exact List.find?_some (found choice listed)
  · intro item circle
    have moved : Relation.TransGen (Precedes ordered choices) item item :=
      circle.lift id (fun _ _ precedes => Precedes.perm order precedes)
    exact acyclic_of_makes makes item moved

/-- The order that items are put in by what has to precede what. -/
theorem precedence_isPartialOrder {items : List α} {choices : List (Choice α)}
    (acyclic : ∀ item, ¬Relation.TransGen (Precedes items choices) item item) :
    IsPartialOrder α (Relation.ReflTransGen (Precedes items choices)) :=
  { refl := fun _ => Relation.ReflTransGen.refl
    trans := fun _ _ _ first second => first.trans second
    antisymm := by
      intro first second ahead back
      rcases Relation.reflTransGen_iff_eq_or_transGen.mp ahead with same | chain
      · exact same.symm
      · exact absurd (chain.trans_left back) (acyclic first) }

/-- In a list sorted so that nothing precedes what has to precede it, every choice is
made. -/
theorem find?_of_sorted {items : List α} {before : α → α → Prop} {choice : Choice α}
    (sorted : items.Pairwise before) (member : choice.chosen ∈ items)
    (passes : choice.test choice.chosen = true)
    (least : ∀ item ∈ items, choice.test item = true → before item choice.chosen →
      item = choice.chosen) :
    items.find? choice.test = some choice.chosen := by
  induction items with
  | nil => cases member
  | cons head rest ih =>
      rcases List.pairwise_cons.mp sorted with ⟨headFirst, restSorted⟩
      by_cases headPasses : choice.test head = true
      · rw [List.find?_cons_of_pos headPasses]
        rcases List.mem_cons.mp member with isHead | inRest
        · rw [isHead]
        · rw [least head List.mem_cons_self headPasses (headFirst _ inRest)]
      · rw [List.find?_cons_of_neg headPasses]
        rcases List.mem_cons.mp member with isHead | inRest
        · rw [isHead] at passes
          exact absurd passes headPasses
        · apply ih restSorted inRest
          intro item inList itemPasses itemFirst
          exact least item (List.mem_cons_of_mem head inList) itemPasses itemFirst

open Classical in
theorem exists_perm_makes {items : List α} {choices : List (Choice α)}
    (consistent : Consistent items choices) :
    ∃ ordered : List α, ordered.Perm items ∧ Makes ordered choices := by
  have partialOrder := precedence_isPartialOrder consistent.acyclic
  rcases extend_partialOrder (Relation.ReflTransGen (Precedes items choices)) with
    ⟨before, linear, extends_⟩
  have order : (items.insertionSort before).Perm items := List.perm_insertionSort before items
  refine ⟨items.insertionSort before, order, ?_⟩
  intro choice listed
  apply find?_of_sorted (List.pairwise_insertionSort before items)
    (order.mem_iff.mpr (consistent.member choice listed)) (consistent.passes choice listed)
  intro item member passes itemFirst
  by_contra other
  have precedes : Precedes items choices choice.chosen item :=
    ⟨choice, listed, rfl, order.mem_iff.mp member, passes, other⟩
  have chosenFirst := extends_ _ _ (Relation.ReflTransGen.single precedes)
  exact other (linear.antisymm _ _ itemFirst chosenFirst)

/-- Some order of the items makes the choices exactly when they are consistent. -/
theorem exists_perm_makes_iff {items : List α} {choices : List (Choice α)} :
    (∃ ordered : List α, ordered.Perm items ∧ Makes ordered choices) ↔
      Consistent items choices := by
  constructor
  · intro made
    rcases made with ⟨ordered, order, makes⟩
    exact consistent_of_makes order makes
  · intro consistent
    exact exists_perm_makes consistent

end Order

end Pkix.Choices
