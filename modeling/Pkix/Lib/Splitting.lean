import Mathlib.Data.List.Basic
import Mathlib.Tactic.Common

/-! Texts cut at a separator: at its last occurrence, and into labels. -/

namespace Pkix.Splitting

variable {α : Type}

section Last

variable [DecidableEq α]

/-- The text before and after the last separator. -/
def splitLast (mark : α) : List α → Option (List α × List α)
  | [] => none
  | item :: rest =>
      match splitLast mark rest with
      | some (front, back) => some (item :: front, back)
      | none => if item = mark then some ([], rest) else none

theorem splitLast_none_iff (mark : α) (text : List α) :
    splitLast mark text = none ↔ mark ∉ text := by
  induction text with
  | nil => simp [splitLast]
  | cons item rest ih =>
      rw [splitLast]
      cases found : splitLast mark rest with
      | none =>
          have absent := ih.mp found
          by_cases here : item = mark
          · simp [here]
          · simp [here, absent, Ne.symm here]
      | some parts =>
          have present : mark ∈ rest := by
            by_contra absent
            rw [ih.mpr absent] at found
            cases found
          simp [present]

theorem splitLast_some_iff (mark : α) (text front back : List α) :
    splitLast mark text = some (front, back) ↔ text = front ++ mark :: back ∧ mark ∉ back := by
  induction text generalizing front with
  | nil => simp [splitLast]
  | cons item rest ih =>
      rw [splitLast]
      cases found : splitLast mark rest with
      | none =>
          have absent := (splitLast_none_iff mark rest).mp found
          constructor
          · intro cut
            by_cases here : item = mark
            · simp only [here, if_true, Option.some.injEq, Prod.mk.injEq] at cut
              rw [← cut.1, ← cut.2, here]
              exact ⟨rfl, absent⟩
            · simp [here] at cut
          · intro cut
            obtain ⟨joined, last⟩ := cut
            cases front with
            | nil =>
                obtain ⟨here, tail⟩ := List.cons.inj joined
                simp [here, tail]
            | cons first front =>
                obtain ⟨_, tail⟩ := List.cons.inj joined
                rw [tail] at absent
                simp at absent
      | some parts =>
          obtain ⟨front', back'⟩ := parts
          constructor
          · intro cut
            cases cut
            obtain ⟨joined, last⟩ := (ih front').mp found
            exact ⟨by rw [joined]; rfl, last⟩
          · intro cut
            obtain ⟨joined, last⟩ := cut
            cases front with
            | nil =>
                obtain ⟨_, tail⟩ := List.cons.inj joined
                have absent : mark ∉ rest := by rw [tail]; exact last
                rw [(splitLast_none_iff mark rest).mpr absent] at found
                cases found
            | cons first front =>
                obtain ⟨here, tail⟩ := List.cons.inj joined
                have again := (ih front).mpr ⟨tail, last⟩
                rw [found] at again
                cases again
                rw [here]

end Last

section First

variable [DecidableEq α]

/-- The text before and after the first separator. -/
def splitFirst (mark : α) : List α → Option (List α × List α)
  | [] => none
  | item :: rest =>
      if item = mark then some ([], rest)
      else (splitFirst mark rest).map (fun parts => (item :: parts.1, parts.2))

theorem splitFirst_some_iff (mark : α) (text front back : List α) :
    splitFirst mark text = some (front, back) ↔ text = front ++ mark :: back ∧ mark ∉ front := by
  induction text generalizing front with
  | nil => simp [splitFirst]
  | cons item rest ih =>
      rw [splitFirst]
      by_cases here : item = mark
      · rw [if_pos here]
        constructor
        · intro cut
          cases cut
          exact ⟨by rw [here, List.nil_append], List.not_mem_nil⟩
        · intro ⟨joined, plain⟩
          cases front with
          | nil => rw [(List.cons.inj joined).2]
          | cons first front =>
              rw [here, List.cons_append] at joined
              exact absurd (List.cons.inj joined).1 (List.ne_of_not_mem_cons plain)
      · rw [if_neg here, Option.map_eq_some_iff]
        constructor
        · intro ⟨parts, cut, same⟩
          cases same
          rcases (ih parts.1).mp cut with ⟨joined, plain⟩
          refine ⟨by rw [joined, List.cons_append], ?_⟩
          rw [List.mem_cons, not_or]
          exact ⟨Ne.symm here, plain⟩
        · intro ⟨joined, plain⟩
          cases front with
          | nil => exact absurd (List.cons.inj joined).1 here
          | cons first front =>
              rw [List.cons_append] at joined
              rcases List.cons.inj joined with ⟨same, tail⟩
              have rest_ := (ih front).mpr ⟨tail, List.not_mem_of_not_mem_cons plain⟩
              exact ⟨(front, back), rest_, by rw [same]⟩

/-- Whatever stands in a text is the separator or stands in a part. -/
theorem mem_splitOn_of_mem {mark item : α} {text : List α} (present : item ∈ text) :
    item = mark ∨ ∃ part ∈ text.splitOn mark, item ∈ part := by
  induction text with
  | nil => cases present
  | cons first rest ih =>
      rw [List.splitOn_cons_eq_if_modifyHead]
      split
      · rename_i isMark
        rcases List.mem_cons.mp present with same | later
        · exact .inl (same.trans (beq_iff_eq.mp isMark))
        · rcases ih later with same | ⟨part, listed, inside⟩
          · exact .inl same
          · exact .inr ⟨part, List.mem_cons_of_mem _ listed, inside⟩
      · cases shape : rest.splitOn mark with
        | nil => exact absurd shape (List.splitOn_ne_nil mark rest)
        | cons head parts =>
            rw [shape] at ih
            rw [List.modifyHead_cons]
            rcases List.mem_cons.mp present with same | later
            · exact .inr ⟨first :: head, List.mem_cons_self, same ▸ List.mem_cons_self⟩
            · rcases ih later with same | ⟨part, listed, inside⟩
              · exact .inl same
              · rcases List.mem_cons.mp listed with isHead | isLater
                · rw [isHead] at inside
                  exact .inr ⟨first :: head, List.mem_cons_self, List.mem_cons_of_mem _ inside⟩
                · exact .inr ⟨part, List.mem_cons_of_mem _ isLater, inside⟩

/-- A map that moves nothing onto the separator or off it maps the parts. -/
theorem splitOn_map {mark : α} {f : α → α} (fixes : ∀ item, f item = mark ↔ item = mark)
    (text : List α) : (text.map f).splitOn mark = (text.splitOn mark).map (List.map f) := by
  induction text with
  | nil => rfl
  | cons item rest ih =>
      rw [List.map_cons, List.splitOn_cons_eq_if_modifyHead, List.splitOn_cons_eq_if_modifyHead, ih]
      by_cases here : item = mark
      · rw [if_pos (beq_iff_eq.mpr ((fixes item).mpr here)), if_pos (beq_iff_eq.mpr here)]
        rfl
      · have moved : ¬ (f item == mark) = true := fun same => here ((fixes item).mp (beq_iff_eq.mp same))
        have apart : ¬ (item == mark) = true := fun same => here (beq_iff_eq.mp same)
        rw [if_neg moved, if_neg apart]
        cases rest.splitOn mark with
        | nil => rfl
        | cons head parts => rfl

end First

section Parts

/-- A cut of a text that starts with a part free of the separator is the cut behind the part
or one further on. -/
theorem cut_after_part {mark : α} {part rest front back : List α} (plain : mark ∉ part)
    (cut : part ++ mark :: rest = front ++ mark :: back) :
    (front = part ∧ back = rest) ∨
      ∃ later, front = part ++ mark :: later ∧ rest = later ++ mark :: back := by
  rcases List.append_eq_append_iff.mp cut with ⟨middle, joined, tail⟩ | ⟨middle, joined, tail⟩
  · cases middle with
    | nil =>
        rw [List.append_nil] at joined
        exact .inl ⟨joined, (List.cons.inj tail).2.symm⟩
    | cons first later =>
        obtain ⟨same, tail⟩ := List.cons.inj tail
        exact .inr ⟨later, by rw [joined, same], tail⟩
  · cases middle with
    | nil =>
        rw [List.append_nil] at joined
        exact .inl ⟨joined.symm, (List.cons.inj tail).2⟩
    | cons first later =>
        rw [joined, ← (List.cons.inj tail).1] at plain
        simp at plain

/-- The parts, each followed by the separator, in front of a text. -/
def addParts (mark : α) : List (List α) → List α → List α
  | [], text => text
  | part :: parts, text => part ++ mark :: addParts mark parts text

theorem addParts_append (mark : α) (front back : List (List α)) (text : List α) :
    addParts mark (front ++ back) text = addParts mark front (addParts mark back text) := by
  induction front with
  | nil => rfl
  | cons part front ih => rw [List.cons_append, addParts, addParts, ih]

theorem length_addParts (mark : α) (part : List α) (parts : List (List α)) (text : List α) :
    part.length + text.length < (addParts mark (part :: parts) text).length := by
  induction parts generalizing part with
  | nil =>
      rw [addParts, addParts, List.length_append, List.length_cons]
      omega
  | cons next parts ih =>
      have inner := ih next
      rw [addParts, List.length_append, List.length_cons]
      omega

theorem addParts_suffix (mark : α) (part : List α) (parts : List (List α)) (text : List α) :
    mark :: text <:+ addParts mark (part :: parts) text := by
  induction parts generalizing part with
  | nil => exact ⟨part, rfl⟩
  | cons next parts ih =>
      apply (ih next).trans
      exact ⟨part ++ [mark], by simp [addParts]⟩

/-- A separator of the joined text stands behind one of the parts, or in the text at the end. -/
theorem addParts_cut {mark : α} {parts : List (List α)} {text front back : List α}
    (plain : ∀ part ∈ parts, mark ∉ part)
    (cut : addParts mark parts text = front ++ mark :: back) :
    (∃ added kept, parts = added ++ kept ∧ added ≠ [] ∧ back = addParts mark kept text) ∨
      ∃ later, text = later ++ mark :: back := by
  induction parts generalizing front with
  | nil => exact .inr ⟨front, cut⟩
  | cons part parts ih =>
      rw [List.forall_mem_cons] at plain
      rcases cut_after_part plain.1 cut with ⟨_, behind⟩ | ⟨later, _, further⟩
      · exact .inl ⟨[part], parts, rfl, List.cons_ne_nil _ _, behind⟩
      · rcases ih plain.2 further with ⟨added, kept, shape, _, behind⟩ | inText
        · exact .inl ⟨part :: added, kept, by rw [shape, List.cons_append],
            List.cons_ne_nil _ _, behind⟩
        · exact .inr inText

end Parts

end Pkix.Splitting
