import Mathlib.Data.List.Basic
import Mathlib.Order.Lattice
import Mathlib.Tactic.Common

/-! Choosing the first or the last item of highest rank in one pass, and dividing a list by what
happens to each item. -/

namespace Pkix.Selection

section Best

variable {α κ : Type} [LinearOrder κ] (rank : α → κ) (fits : α → Bool)

/-- One pass with the best item so far; an equal rank does not replace it. -/
def scanBest : Option α → List α → Option α
  | best, [] => best
  | best, item :: rest =>
      if fits item then
        match best with
        | none => scanBest (some item) rest
        | some previous =>
            if rank previous < rank item then scanBest (some item) rest else scanBest best rest
      else scanBest best rest

/-- The first of the fitting items that no other outranks. -/
structure FirstBest (items : List α) (best : α) : Prop where
  fitting : fits best = true
  placed : ∃ above below, items = above ++ best :: below ∧
    (∀ other ∈ above, fits other = true → rank other < rank best) ∧
    ∀ other ∈ below, fits other = true → rank other ≤ rank best

variable {rank fits}

theorem scanBest_cons_skip {item : α} (unfit : fits item = false) (best : Option α)
    (rest : List α) : scanBest rank fits best (item :: rest) = scanBest rank fits best rest := by
  simp [scanBest, unfit]

theorem FirstBest.head {item : α} {rest : List α} (fitting : fits item = true)
    (atMost : ∀ other ∈ rest, fits other = true → rank other ≤ rank item) :
    FirstBest rank fits (item :: rest) item :=
  ⟨fitting, [], rest, rfl, by simp, atMost⟩

theorem FirstBest.cons {item best : α} {rest : List α} (later : FirstBest rank fits rest best)
    (lower : fits item = true → rank item < rank best) :
    FirstBest rank fits (item :: rest) best := by
  obtain ⟨fitting, above, below, split, before, after⟩ := later
  exact ⟨fitting, item :: above, below, by rw [split, List.cons_append],
    List.forall_mem_cons.mpr ⟨lower, before⟩, after⟩

theorem scanBest_some (best : α) (rest : List α) :
    ∃ final, scanBest rank fits (some best) rest = some final ∧
      (final = best ∧ (∀ other ∈ rest, fits other = true → rank other ≤ rank best) ∨
        rank best < rank final ∧ FirstBest rank fits rest final) := by
  induction rest generalizing best with
  | nil => exact ⟨best, rfl, .inl ⟨rfl, by simp⟩⟩
  | cons item rest ih =>
      by_cases fitting : fits item = true
      · by_cases higher : rank best < rank item
        · have next : scanBest rank fits (some best) (item :: rest) =
              scanBest rank fits (some item) rest := by simp [scanBest, fitting, higher]
          obtain ⟨final, reached, verdict⟩ := ih item
          refine ⟨final, next.trans reached, .inr ?_⟩
          rcases verdict with ⟨same, atMost⟩ | ⟨above, later⟩
          · subst same
            exact ⟨higher, .head fitting atMost⟩
          · exact ⟨lt_trans higher above, later.cons fun _ => above⟩
        · have next : scanBest rank fits (some best) (item :: rest) =
              scanBest rank fits (some best) rest := by simp [scanBest, fitting, higher]
          obtain ⟨final, reached, verdict⟩ := ih best
          refine ⟨final, next.trans reached, ?_⟩
          rcases verdict with ⟨same, atMost⟩ | ⟨above, later⟩
          · exact .inl ⟨same, List.forall_mem_cons.mpr ⟨fun _ => not_lt.mp higher, atMost⟩⟩
          · exact .inr ⟨above, later.cons fun _ => lt_of_le_of_lt (not_lt.mp higher) above⟩
      · obtain ⟨final, reached, verdict⟩ := ih best
        have unfit : fits item = false := Bool.eq_false_iff.mpr fitting
        refine ⟨final, (scanBest_cons_skip unfit ..).trans reached, ?_⟩
        rcases verdict with ⟨same, atMost⟩ | ⟨above, later⟩
        · exact .inl ⟨same, List.forall_mem_cons.mpr ⟨fun fit => absurd fit fitting, atMost⟩⟩
        · exact .inr ⟨above, later.cons fun fit => absurd fit fitting⟩

/-- The scan finds the first best item, and nothing only where nothing fits. -/
theorem scanBest_none (items : List α) :
    (scanBest rank fits none items = none ∧ ∀ item ∈ items, fits item = false) ∨
      ∃ best, scanBest rank fits none items = some best ∧ FirstBest rank fits items best := by
  induction items with
  | nil => exact .inl ⟨rfl, by simp⟩
  | cons item rest ih =>
      by_cases fitting : fits item = true
      · have next : scanBest rank fits none (item :: rest) =
            scanBest rank fits (some item) rest := by simp [scanBest, fitting]
        obtain ⟨final, reached, verdict⟩ := @scanBest_some _ _ _ rank fits item rest
        refine .inr ⟨final, next.trans reached, ?_⟩
        rcases verdict with ⟨same, atMost⟩ | ⟨above, later⟩
        · subst same
          exact .head fitting atMost
        · exact later.cons fun _ => above
      · have unfit : fits item = false := Bool.eq_false_iff.mpr fitting
        rw [scanBest_cons_skip unfit]
        rcases ih with ⟨empty, none⟩ | ⟨best, found, later⟩
        · exact .inl ⟨empty, List.forall_mem_cons.mpr ⟨unfit, none⟩⟩
        · exact .inr ⟨best, found, later.cons fun fit => absurd fit fitting⟩

end Best

section Greatest

variable {α : Type} {key : α → Nat} {items : List α} {best : α}

/-- Of the items with the greatest key, the last one. -/
def maxByKey (key : α → Nat) : List α → Option α
  | [] => none
  | item :: rest =>
      some (rest.foldl (fun best next => if key next < key best then best else next) item)

theorem foldl_max (start : α) (rest : List α) :
    let best := rest.foldl (fun best next => if key next < key best then best else next) start
    best ∈ start :: rest ∧ ∀ item ∈ start :: rest, key item ≤ key best := by
  induction rest generalizing start with
  | nil =>
      refine ⟨List.mem_singleton_self start, ?_⟩
      intro item only
      rw [List.mem_singleton.mp only]
      exact Nat.le_refl _
  | cons next rest ih =>
      dsimp only [List.foldl_cons]
      split
      · rename_i lower
        obtain ⟨member, greatest⟩ := ih start
        refine ⟨?_, ?_⟩
        · rcases List.mem_cons.mp member with same | later
          · rw [same]
            exact List.mem_cons_self
          · exact List.mem_cons_of_mem _ (List.mem_cons_of_mem _ later)
        · rw [List.forall_mem_cons] at greatest
          exact List.forall_mem_cons.mpr ⟨greatest.1, List.forall_mem_cons.mpr
            ⟨Nat.le_trans (Nat.le_of_lt lower) greatest.1, greatest.2⟩⟩
      · rename_i atLeast
        obtain ⟨member, greatest⟩ := ih next
        refine ⟨List.mem_cons_of_mem _ member, ?_⟩
        rw [List.forall_mem_cons] at greatest
        exact List.forall_mem_cons.mpr ⟨Nat.le_trans (Nat.not_lt.mp atLeast) greatest.1,
          List.forall_mem_cons.mpr greatest⟩

theorem maxByKey_some (found : maxByKey key items = some best) :
    best ∈ items ∧ ∀ item ∈ items, key item ≤ key best := by
  cases items with
  | nil => cases found
  | cons item rest =>
      cases found
      exact foldl_max item rest

theorem maxByKey_eq_none : maxByKey key items = none ↔ items = [] := by
  cases items with
  | nil => exact ⟨fun _ => rfl, fun _ => rfl⟩
  | cons item rest => simp [maxByKey]

end Greatest

section FirstOccurrences

variable {α : Type} [DecidableEq α]

/-- An item already there is not added again. -/
def pushNew (items : List α) (item : α) : List α := if item ∈ items then items else items ++ [item]

theorem foldl_pushNew (start items : List α) : items.foldl pushNew start =
    start ++ (items.filter fun item => decide (item ∉ start)).eraseDups := by
  induction items generalizing start with
  | nil => exact (List.append_nil start).symm
  | cons item rest ih =>
      rw [List.foldl_cons, pushNew]
      split
      · rename_i present
        rw [ih, List.filter_cons_of_neg (by simpa using present)]
      · rename_i absent
        have remaining : ∀ other ∈ rest, (decide (other ∉ start ++ [item]) =
            (decide (other ∉ start) && !other == item)) := by
          intro other _
          simp only [List.mem_append, List.mem_singleton, not_or, Bool.decide_and, decide_not,
            beq_eq_decide]
        rw [ih, List.filter_cons_of_pos (by simpa using absent), List.eraseDups_cons,
          List.filter_filter, List.append_assoc, List.singleton_append,
          List.filter_congr remaining]
        simp only [Bool.and_comm]

theorem foldl_pushNew_nil (items : List α) : items.foldl pushNew [] = items.eraseDups := by
  have all : (items.filter fun item => decide (item ∉ ([] : List α))) = items :=
    List.filter_eq_self.mpr (fun item _ => decide_eq_true (List.not_mem_nil))
  rw [foldl_pushNew, all, List.nil_append]

theorem nodup_foldl_pushNew {start : List α} (distinct : start.Nodup) (items : List α) :
    (items.foldl pushNew start).Nodup := by
  induction items generalizing start with
  | nil => exact distinct
  | cons item rest ih =>
      rw [List.foldl_cons, pushNew]
      split
      · exact ih distinct
      · rename_i absent
        refine ih (List.nodup_append.mpr ⟨distinct, List.pairwise_singleton _ item, ?_⟩)
        intro other member new only same
        rw [List.mem_singleton] at only
        exact absent (only ▸ same ▸ member)

end FirstOccurrences

section Naming

variable {α β : Type}

/-- Images that tell the positions of a list apart are different. -/
theorem nodup_enumerated {items : List α} {image : α × Nat → β}
    (apart : ∀ entry ∈ items.zipIdx, ∀ other ∈ items.zipIdx, image entry = image other →
      entry.2 = other.2) : (items.zipIdx.map image).Nodup := by
  have positions : (items.zipIdx.map Prod.snd).Nodup := by
    rw [List.zipIdx_map_snd]
    exact List.nodup_range'
  have different := List.pairwise_map.mp positions
  refine List.pairwise_map.mpr (different.imp_of_mem ?_)
  intro entry other member member' unequal same
  exact unequal (apart entry member other member' same)

/-- Among items with different names just one bears the name of an item. -/
theorem filter_eq_singleton [DecidableEq β] {items : List α} {name : α → β} {item : α}
    (distinct : (items.map name).Nodup) (member : item ∈ items) :
    (items.filter fun candidate => name candidate = name item) = [item] := by
  induction items with
  | nil => exact absurd member List.not_mem_nil
  | cons first rest ih =>
      rw [List.map_cons, List.nodup_cons] at distinct
      rcases List.mem_cons.mp member with here | later
      · subst here
        have none : ∀ candidate ∈ rest, ¬ decide (name candidate = name item) = true := by
          intro candidate present same
          exact distinct.1 (of_decide_eq_true same ▸ List.mem_map_of_mem present)
        rw [List.filter_cons, if_pos (decide_eq_true rfl), List.filter_eq_nil_iff.mpr none]
      · have different : ¬ decide (name first = name item) = true := by
          intro same
          exact distinct.1 (of_decide_eq_true same ▸ List.mem_map_of_mem later)
        rw [List.filter_cons, if_neg different, ih distinct.2 later]

end Naming

section Division

variable {α β : Type}

/-- `raw` is `kept` and the items turned into `moved`, in their own orders. -/
inductive Divided (keep : α → Prop) (move : α → β → Prop) : (raw kept : List α) → List β → Prop
  | nil : Divided keep move [] [] []
  | keep {item raw kept moved} (stays : keep item) (rest : Divided keep move raw kept moved) :
      Divided keep move (item :: raw) (item :: kept) moved
  | move {item record raw kept moved} (goes : move item record)
      (rest : Divided keep move raw kept moved) :
      Divided keep move (item :: raw) kept (record :: moved)

variable {keep : α → Prop} {move : α → β → Prop}

theorem Divided.append {raw kept raw' kept' : List α} {moved moved' : List β}
    (first : Divided keep move raw kept moved) (second : Divided keep move raw' kept' moved') :
    Divided keep move (raw ++ raw') (kept ++ kept') (moved ++ moved') := by
  induction first with
  | nil => exact second
  | keep stays _ ih => exact .keep stays ih
  | move goes _ ih => exact .move goes ih

theorem Divided.mono {keep' : α → Prop} {move' : α → β → Prop} {raw kept : List α}
    {moved : List β} (divided : Divided keep move raw kept moved)
    (keeps : ∀ item ∈ raw, keep item → keep' item)
    (moves : ∀ item ∈ raw, ∀ record, move item record → move' item record) :
    Divided keep' move' raw kept moved := by
  induction divided with
  | nil => exact .nil
  | keep stays _ ih =>
      rw [List.forall_mem_cons] at keeps moves
      exact .keep (keeps.1 stays) (ih keeps.2 moves.2)
  | move goes _ ih =>
      rw [List.forall_mem_cons] at keeps moves
      exact .move (moves.1 _ goes) (ih keeps.2 moves.2)

end Division

end Pkix.Selection
