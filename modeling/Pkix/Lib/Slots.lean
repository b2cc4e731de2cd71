import Mathlib.Data.List.Basic
import Mathlib.Tactic.Common

/-! Slots of fixed positions that are filled one after the other, each at most once. -/

namespace Pkix.Slots

variable {α : Type}

/-- Nothing is written where there is no slot. -/
def fill (slots : List (Option α)) (index : Nat) (value : α) : Option (List (Option α)) :=
  if index < slots.length then some (slots.set index (some value)) else none

def fillAll (slots : List (Option α)) (entries : List (Nat × α)) : Option (List (Option α)) :=
  entries.foldlM (fun filled entry => fill filled entry.1 entry.2) slots

/-- Every position that is not pending holds a value. -/
structure Filling (count : Nat) (pending : List Nat) (slots : List (Option α)) : Prop where
  length : slots.length = count
  within : ∀ index ∈ pending, index < count
  distinct : pending.Nodup
  filled : ∀ index < count, index ∉ pending → ∃ value, slots[index]? = some (some value)

variable {slots filled : List (Option α)} {index count : Nat} {value : α} {pending : List Nat}

theorem fill_some (within : index < slots.length) :
    fill slots index value = some (slots.set index (some value)) :=
  if_pos within

theorem fill_slot (done : fill slots index value = some filled) :
    filled.length = slots.length ∧ filled[index]? = some (some value) ∧
      ∀ other, other ≠ index → filled[other]? = slots[other]? := by
  unfold fill at done
  split at done
  · rename_i within
    rw [← Option.some.inj done]
    refine ⟨List.length_set, List.getElem?_set_self within, ?_⟩
    intro other different
    exact List.getElem?_set_ne different.symm
  · cases done

theorem fillAll_cons (entry : Nat × α) (entries : List (Nat × α)) :
    fillAll slots (entry :: entries) =
      (fill slots entry.1 entry.2).bind fun next => fillAll next entries :=
  rfl

/-- Entries for different slots are all written, and nothing else is. -/
theorem exists_fillAll {entries : List (Nat × α)} (within : ∀ entry ∈ entries, entry.1 < slots.length)
    (distinct : (entries.map Prod.fst).Nodup) : ∃ filled, fillAll slots entries = some filled ∧
      filled.length = slots.length ∧
      (∀ entry ∈ entries, filled[entry.1]? = some (some entry.2)) ∧
      ∀ index, index ∉ entries.map Prod.fst → filled[index]? = slots[index]? := by
  induction entries generalizing slots with
  | nil => exact ⟨slots, rfl, rfl, List.forall_mem_nil _, fun _ _ => rfl⟩
  | cons entry rest ih =>
      rw [List.forall_mem_cons] at within
      rw [List.map_cons, List.nodup_cons] at distinct
      have first := @fill_some _ slots entry.1 entry.2 within.1
      obtain ⟨length, here, elsewhere⟩ := fill_slot first
      have later : ∀ other ∈ rest, other.1 < (slots.set entry.1 (some entry.2)).length := by
        rw [length]
        exact within.2
      obtain ⟨filled, done, sameLength, written, unwritten⟩ := ih later distinct.2
      refine ⟨filled, ?_, sameLength.trans length, ?_, ?_⟩
      · rw [fillAll_cons, first, Option.bind_some, done]
      · rw [List.forall_mem_cons]
        exact ⟨(unwritten entry.1 distinct.1).trans here, written⟩
      · intro index absent
        rw [List.map_cons, List.mem_cons, not_or] at absent
        exact (unwritten index absent.2).trans (elsewhere index absent.1)

/-- Filling the slots at the front of the pending ones leaves those behind them. -/
theorem Filling.advance {front rest : List Nat} (filling : Filling count (front ++ rest) slots)
    (length : filled.length = slots.length)
    (written : ∀ index ∈ front, ∃ value, filled[index]? = some (some value))
    (kept : ∀ index, index ∉ front → filled[index]? = slots[index]?) :
    Filling count rest filled where
  length := length.trans filling.length
  within := fun index member => filling.within index (List.mem_append_right _ member)
  distinct := (List.nodup_append.mp filling.distinct).2.1
  filled := by
    intro index small absent
    by_cases here : index ∈ front
    · exact written index here
    · rw [kept index here]
      exact filling.filled index small (List.not_mem_append here absent)

/-- With nothing pending every slot can be read out. -/
theorem Filling.all (filling : Filling count [] slots) :
    ∃ values : List α, slots = values.map some := by
  have each : ∀ slot ∈ slots, ∃ value, slot = some value := by
    intro slot member
    obtain ⟨index, here⟩ := List.mem_iff_getElem?.mp member
    obtain ⟨small, _⟩ := List.getElem?_eq_some_iff.mp here
    rw [filling.length] at small
    obtain ⟨value, held⟩ := filling.filled index small List.not_mem_nil
    rw [here] at held
    exact ⟨value, Option.some.inj held⟩
  clear filling
  induction slots with
  | nil => exact ⟨[], rfl⟩
  | cons slot rest ih =>
      rw [List.forall_mem_cons] at each
      obtain ⟨value, same⟩ := each.1
      obtain ⟨values, later⟩ := ih each.2
      exact ⟨value :: values, by rw [same, later, List.map_cons]⟩

end Pkix.Slots
