import Pkix.Lib.Iteration
import Pkix.Revocation.BundleSearch

/-! The walk from a signer up to a self-signed certificate. The bound on its steps ends the
loop on every bundle, and it cuts off no chain: a walk that goes on longer than the bundle is
going round a circle. -/

namespace Pkix.Revocation

open Pkix.Path
open Pkix.Iteration

/-- What changes from turn to turn of the loop. -/
structure Walker where
  current : Slot
  steps : Nat

namespace Walker

inductive Turn
  | answer (reaches : Bool)
  | again (walker : Walker)

def maxSteps (bundle : List Slot) : Nat := bundle.length + 1

variable (der : CrlCodec) (bundle : List Slot)

def turn (walker : Walker) : Turn :=
  if isSelfSigned walker.current.1 then .answer true
  else if maxSteps bundle ≤ walker.steps then .answer false
  else
    match findParent der bundle walker.current with
    | some parent => .again { current := parent, steps := walker.steps + 1 }
    | none => .answer false

/-- The loop, `none` when it has not ended within the given number of turns. -/
def loopWithin : (turns : Nat) → Walker → Option Bool
  | 0, _ => none
  | turns + 1, walker =>
      match walker.turn der bundle with
      | .answer reaches => some reaches
      | .again walker => loopWithin turns walker

end Walker

section Turns

variable {der : CrlCodec} {bundle : List Slot}

/-- With every turn one step less is left, so the loop cannot outlast its bound. -/
theorem loopWithin_ends {turns left : Nat} {walker : Walker}
    (counted : walker.steps + left = Walker.maxSteps bundle) (enough : left < turns) :
    walker.loopWithin der bundle turns = some (walkUp der bundle left walker.current) := by
  induction turns generalizing walker left with
  | zero => cases enough
  | succ turns ih =>
      rw [Walker.loopWithin, Walker.turn]
      cases issued : isSelfSigned walker.current.1 with
      | true => simp [walkUp_selfSigned left issued]
      | false =>
          cases left with
          | zero => simp [walkUp_zero issued, ← counted]
          | succ left =>
              have going : ¬ Walker.maxSteps bundle ≤ walker.steps := by omega
              rw [walkUp_succ left issued, if_neg (by simp), if_neg going]
              cases findParent der bundle walker.current with
              | none => rfl
              | some parent =>
                  have moved : (Walker.mk parent (walker.steps + 1)).steps + left =
                      Walker.maxSteps bundle := by
                    simp only
                    omega
                  exact ih moved (by omega)

end Turns

section Reach

variable (der : CrlCodec) (bundle : List Slot)

/-- Going to the parent this many times leads to a self-signed certificate. -/
def SelfSignedAfter (steps : Nat) (slot : Slot) : Prop :=
  Meets (findParent der bundle) (fun slot => isSelfSigned slot.1) steps slot

variable {der bundle}

theorem walkUp_eq (steps : Nat) (slot : Slot) :
    walkUp der bundle steps slot =
      meetsWithin (findParent der bundle) (fun slot => isSelfSigned slot.1) steps slot := by
  induction steps generalizing slot with
  | zero =>
      cases issued : isSelfSigned slot.1 with
      | true => simp [meetsWithin, walkUp_selfSigned 0 issued, issued]
      | false => simp [meetsWithin, walkUp_zero issued, issued]
  | succ steps ih =>
      rw [meetsWithin, ← funext ih]
      cases issued : isSelfSigned slot.1 with
      | true => simp [walkUp_selfSigned (steps + 1) issued]
      | false => simp [walkUp_succ steps issued]

theorem walkUp_iff {steps : Nat} {slot : Slot} :
    walkUp der bundle steps slot = true ↔ ∃ fewer ≤ steps, SelfSignedAfter der bundle fewer slot := by
  rw [walkUp_eq]
  exact meetsWithin_iff

/-- Every parent is in the bundle, so a shortest walk has no more steps than the bundle slots. -/
theorem exists_selfSignedAfter_le {slot : Slot}
    (reaches : ∃ steps, SelfSignedAfter der bundle steps slot) :
    ∃ steps ≤ bundle.length, SelfSignedAfter der bundle steps slot :=
  exists_meets_le (fun _ _ found => findParent_mem found) reaches

theorem selfSignedAfter_bounded_iff {slot : Slot} :
    (∃ steps, SelfSignedAfter der bundle steps slot) ↔
      ∃ steps ≤ bundle.length + 1, SelfSignedAfter der bundle steps slot := by
  constructor
  · intro reaches
    obtain ⟨steps, within, selfSigned⟩ := exists_selfSignedAfter_le reaches
    exact ⟨steps, Nat.le_succ_of_le within, selfSigned⟩
  · rintro ⟨steps, _, selfSigned⟩
    exact ⟨steps, selfSigned⟩

@[simp] theorem length_slots (certs : List Certificate) : (slots certs).length = certs.length :=
  List.length_zipIdx

/-- The walk finds what a walk without bound would find, in as many steps as its bound allows,
and the loop ends with its answer on every bundle. -/
theorem reachesSelfSigned_exact (der : CrlCodec) (bundle : List Certificate) (signer : Slot) :
    (reachesSelfSigned der (slots bundle) signer = true ↔
      ∃ steps, SelfSignedAfter der (slots bundle) steps signer) ∧
    ((∃ steps, SelfSignedAfter der (slots bundle) steps signer) ↔
      ∃ steps ≤ bundle.length + 1, SelfSignedAfter der (slots bundle) steps signer) ∧
    ∀ more, (Walker.mk signer 0).loopWithin der (slots bundle) (bundle.length + 2 + more) =
      some (reachesSelfSigned der (slots bundle) signer) := by
  have bounded : (∃ steps, SelfSignedAfter der (slots bundle) steps signer) ↔
      ∃ steps ≤ (slots bundle).length + 1, SelfSignedAfter der (slots bundle) steps signer :=
    selfSignedAfter_bounded_iff
  have reaches : reachesSelfSigned der (slots bundle) signer = true ↔
      ∃ steps ≤ (slots bundle).length + 1, SelfSignedAfter der (slots bundle) steps signer :=
    walkUp_iff
  refine ⟨reaches.trans bounded.symm, ?_, ?_⟩
  · rw [length_slots] at bounded
    exact bounded
  · intro more
    apply loopWithin_ends
    · simp [Walker.maxSteps]
    · rw [length_slots]
      omega

end Reach

end Pkix.Revocation
