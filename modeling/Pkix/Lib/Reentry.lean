import Mathlib.Logic.Relation
import Mathlib.Tactic.Common

/-! Walks into documents by keys, with the keys of the documents that are still open. -/

namespace Pkix.Reentry

variable {κ δ : Type} {enters : δ → κ → δ → Prop} {root doc : δ} {stack : List κ}

/-- The keys that were followed from the root, the last one first. -/
inductive OpenAt (enters : δ → κ → δ → Prop) (root : δ) : List κ → δ → Prop
  | root : OpenAt enters root [] root
  | enter {stack : List κ} {doc source : δ} {key : κ} (opened : OpenAt enters root stack doc)
      (entered : enters doc key source) : OpenAt enters root (key :: stack) source

/-- Some way leads back to a key that is still open. -/
def Reenters (enters : δ → κ → δ → Prop) (root : δ) : Prop :=
  ∃ stack doc key source, OpenAt enters root stack doc ∧ enters doc key source ∧ key ∈ stack

def Inside (enters : δ → κ → δ → Prop) (source doc : δ) : Prop := ∃ key, enters doc key source

theorem OpenAt.reaches (opened : OpenAt enters root stack doc) :
    Relation.ReflTransGen (Inside enters) doc root := by
  induction opened with
  | root => exact .refl
  | enter _ entered ih => exact .head ⟨_, entered⟩ ih

/-- Behind an open key is a document around the one that is reached. -/
theorem OpenAt.around (opened : OpenAt enters root stack doc) {key : κ} (listed : key ∈ stack) :
    ∃ outer source, enters outer key source ∧ Relation.ReflTransGen (Inside enters) doc source ∧
      Relation.ReflTransGen (Inside enters) source root := by
  induction opened with
  | root => cases listed
  | enter opened entered ih =>
      rcases List.mem_cons.mp listed with same | before
      · subst same
        exact ⟨_, _, entered, .refl, .head ⟨_, entered⟩ opened.reaches⟩
      · obtain ⟨outer, source, into, inner, root⟩ := ih before
        exact ⟨outer, source, into, .head ⟨_, entered⟩ inner, root⟩

theorem irrefl_of_acc {r : δ → δ → Prop} (accessible : Acc r doc) : ¬ r doc doc := by
  induction accessible with
  | intro doc _ ih =>
      intro circle
      exact ih doc circle circle

theorem acc_of_reflTransGen {r : δ → δ → Prop} {inner : δ} (accessible : Acc r doc)
    (way : Relation.ReflTransGen r inner doc) : Acc r inner := by
  rcases Relation.reflTransGen_iff_eq_or_transGen.mp way with same | steps
  · exact same ▸ accessible
  · exact accessible.inv_of_transGen steps

/-- A way back to an open key never ends. -/
theorem Reenters.not_acc
    (functional : ∀ doc doc' key source source', enters doc key source → enters doc' key source' →
      source = source')
    (reenters : Reenters enters root) : ¬ Acc (Inside enters) root := by
  obtain ⟨stack, doc, key, source, opened, entered, listed⟩ := reenters
  obtain ⟨outer, source', into, inner, around⟩ := opened.around listed
  have same := functional _ _ _ _ _ entered into
  subst same
  have circle : Relation.TransGen (Inside enters) source source := .head' ⟨key, entered⟩ inner
  intro accessible
  exact irrefl_of_acc (acc_of_reflTransGen accessible around).transGen circle

end Pkix.Reentry
