import Pkix.Lib.Choices
import Pkix.Revocation.SignerDiscovery

/-! The choices a search of a bundle makes: the signer is the first slot that passes one
test and each parent the first that passes another. The tests do not depend on the order
of the bundle, only on its slots. -/

namespace Pkix.Revocation

open Pkix.Path
open Pkix.Choices

section Tests

variable (der : CrlCodec)

def signerTest (crl : CertificateList) (slot : Slot) : Bool :=
  match crlAuthorityKeyId der crl with
  | some keyId => hasSubjectKeyId der keyId slot.1
  | none => namesMatch slot.1.tbsCertificate.subject crl.tbsCertList.issuer

def keyTest (keyId : Bytes) (slot candidate : Slot) : Bool :=
  isOther slot candidate && hasSubjectKeyId der keyId candidate.1

def nameTest (slot candidate : Slot) : Bool :=
  isOther slot candidate &&
    namesMatch candidate.1.tbsCertificate.subject slot.1.tbsCertificate.issuer

/-- Names are compared only where no other slot has the key. -/
def parentTest (bundle : List Slot) (slot : Slot) : Slot → Bool :=
  match certAuthorityKeyId der slot.1 with
  | some keyId =>
      if bundle.any (keyTest der keyId slot) then keyTest der keyId slot else nameTest slot
  | none => nameTest slot

variable {der}

theorem discoverCrlSigner_eq {bundle : List Slot} {crl : CertificateList} :
    discoverCrlSigner der bundle crl = bundle.find? (signerTest der crl) := by
  unfold discoverCrlSigner signerTest
  cases crlAuthorityKeyId der crl <;> rfl

theorem findParent_eq {bundle : List Slot} {slot : Slot} :
    findParent der bundle slot = bundle.find? (parentTest der bundle slot) := by
  unfold findParent parentTest
  cases certAuthorityKeyId der slot.1 with
  | none => rfl
  | some keyId =>
      dsimp only
      split
      · rename_i parent found
        have any : bundle.any (keyTest der keyId slot) = true :=
          List.any_eq_true.mpr
            ⟨parent, List.mem_of_find?_eq_some found, List.find?_some found⟩
        rw [if_pos any]
        exact found.symm
      · rename_i missing
        have none : bundle.any (keyTest der keyId slot) = false := by
          rw [List.any_eq_false]
          exact List.find?_eq_none.mp missing
        rw [if_neg (by simp [none])]
        rfl

theorem parentTest_perm {ordered bundle : List Slot} (order : ordered.Perm bundle)
    (slot : Slot) : parentTest der ordered slot = parentTest der bundle slot := by
  have any : ∀ keyId, ordered.any (keyTest der keyId slot) =
      bundle.any (keyTest der keyId slot) := by
    intro keyId
    rw [Bool.eq_iff_iff, List.any_eq_true, List.any_eq_true]
    simp only [order.mem_iff]
  unfold parentTest
  simp only [any]

end Tests

section Climbs

variable {der : CrlCodec} {bundle : List Slot}

/-- A climb over slots that are not self-signed, up to its last parent. -/
inductive Climb : Slot → List Slot → Slot → Prop
  | stay (slot : Slot) : Climb slot [] slot
  | up {current parent top : Slot} {rest : List Slot}
      (issued : isSelfSigned current.1 = false) (further : Climb parent rest top) :
      Climb current (parent :: rest) top

def climbChoices (der : CrlCodec) (bundle : List Slot) : Slot → List Slot → List (Choice Slot)
  | _, [] => []
  | current, parent :: rest =>
      ⟨parentTest der bundle current, parent⟩ :: climbChoices der bundle parent rest

structure Arrives (steps : Nat) (slot : Slot) (parents : List Slot) (top : Slot) : Prop where
  climb : Climb slot parents top
  short : parents.length ≤ steps
  selfSigned : isSelfSigned top.1 = true

/-- A climb that used up its steps or has no parent to go to. -/
structure Strays (der : CrlCodec) (bundle : List Slot) (steps : Nat) (slot : Slot)
    (parents : List Slot) (top : Slot) : Prop where
  climb : Climb slot parents top
  notSelfSigned : isSelfSigned top.1 = false
  ends : parents.length = steps ∨
    parents.length ≤ steps ∧ ∀ candidate ∈ bundle, ¬parentTest der bundle top candidate = true

theorem climbChoices_perm {ordered : List Slot} (order : ordered.Perm bundle) (slot : Slot)
    (parents : List Slot) :
    climbChoices der ordered slot parents = climbChoices der bundle slot parents := by
  induction parents generalizing slot with
  | nil => rfl
  | cons parent rest ih =>
      unfold climbChoices
      rw [parentTest_perm order, ih]

theorem Strays.perm {ordered parents : List Slot} {steps : Nat} {slot top : Slot}
    (order : ordered.Perm bundle) :
    Strays der ordered steps slot parents top ↔ Strays der bundle steps slot parents top := by
  have sameTest : parentTest der ordered top = parentTest der bundle top :=
    parentTest_perm order top
  constructor
  · intro strays
    refine ⟨strays.climb, strays.notSelfSigned, ?_⟩
    rcases strays.ends with used | ⟨short, noParent⟩
    · exact .inl used
    · rw [sameTest] at noParent
      exact .inr ⟨short, fun candidate member => noParent candidate (order.mem_iff.mpr member)⟩
  · intro strays
    refine ⟨strays.climb, strays.notSelfSigned, ?_⟩
    rcases strays.ends with used | ⟨short, noParent⟩
    · exact .inl used
    · rw [← sameTest] at noParent
      exact .inr ⟨short, fun candidate member => noParent candidate (order.mem_iff.mp member)⟩

/-- The loop climbs by the choices of its bundle and answers with the end of that climb. -/
theorem walkUp_climbs (steps : Nat) (slot : Slot) :
    ∃ parents top, Makes bundle (climbChoices der bundle slot parents) ∧
      (walkUp der bundle steps slot = true → Arrives steps slot parents top) ∧
      (walkUp der bundle steps slot = false → Strays der bundle steps slot parents top) := by
  induction steps generalizing slot with
  | zero =>
      refine ⟨[], slot, makes_nil bundle, ?_, ?_⟩
      · intro arrived
        cases issued : isSelfSigned slot.1 with
        | true => exact ⟨.stay slot, Nat.le_refl 0, issued⟩
        | false =>
            rw [walkUp_zero issued] at arrived
            cases arrived
      · intro strayed
        cases issued : isSelfSigned slot.1 with
        | true =>
            rw [walkUp_selfSigned 0 issued] at strayed
            cases strayed
        | false => exact ⟨.stay slot, issued, .inl rfl⟩
  | succ steps ih =>
      cases issued : isSelfSigned slot.1 with
      | true =>
          refine ⟨[], slot, makes_nil bundle, ?_, ?_⟩
          · intro _
            exact ⟨.stay slot, Nat.zero_le _, issued⟩
          · intro strayed
            rw [walkUp_selfSigned _ issued] at strayed
            cases strayed
      | false =>
          rw [walkUp_succ steps issued]
          cases found : findParent der bundle slot with
          | none =>
              rw [findParent_eq, List.find?_eq_none] at found
              refine ⟨[], slot, makes_nil bundle, ?_, ?_⟩
              · intro arrived
                cases arrived
              · intro _
                exact ⟨.stay slot, issued, .inr ⟨Nat.zero_le _, found⟩⟩
          | some parent =>
              rcases ih parent with ⟨parents, top, makes, arrives, strays⟩
              rw [findParent_eq] at found
              refine ⟨parent :: parents, top, makes_cons_iff.mpr ⟨found, makes⟩, ?_, ?_⟩
              · intro arrived
                have further := arrives arrived
                exact ⟨.up issued further.climb, Nat.succ_le_succ further.short,
                  further.selfSigned⟩
              · intro strayed
                have further := strays strayed
                refine ⟨.up issued further.climb, further.notSelfSigned, ?_⟩
                rcases further.ends with used | ⟨short, noParent⟩
                · exact .inl (congrArg Nat.succ used)
                · exact .inr ⟨Nat.succ_le_succ short, noParent⟩

/-- A climb whose choices the bundle makes is the one the loop takes. -/
theorem walkUp_of_arrives {steps : Nat} {slot top : Slot} {parents : List Slot}
    (arrives : Arrives steps slot parents top)
    (makes : Makes bundle (climbChoices der bundle slot parents)) :
    walkUp der bundle steps slot = true := by
  rcases arrives with ⟨climb, short, selfSigned⟩
  induction climb generalizing steps with
  | stay slot => exact walkUp_selfSigned steps selfSigned
  | up issued further ih =>
      rcases makes_cons_iff.mp makes with ⟨found, rest⟩
      cases steps with
      | zero => cases short
      | succ steps =>
          rw [walkUp_succ steps issued, findParent_eq, found]
          exact ih rest (Nat.le_of_succ_le_succ short) selfSigned

theorem walkUp_of_strays {steps : Nat} {slot top : Slot} {parents : List Slot}
    (strays : Strays der bundle steps slot parents top)
    (makes : Makes bundle (climbChoices der bundle slot parents)) :
    walkUp der bundle steps slot = false := by
  rcases strays with ⟨climb, notSelfSigned, ends⟩
  induction climb generalizing steps with
  | stay slot =>
      cases steps with
      | zero => exact walkUp_zero notSelfSigned
      | succ steps =>
          rcases ends with used | ⟨_, noParent⟩
          · cases used
          · rw [walkUp_succ steps notSelfSigned, findParent_eq,
              List.find?_eq_none.mpr noParent]
            rfl
  | up issued further ih =>
      rcases makes_cons_iff.mp makes with ⟨found, rest⟩
      cases steps with
      | zero =>
          rcases ends with used | ⟨short, _⟩
          · cases used
          · cases short
      | succ steps =>
          rw [walkUp_succ steps issued, findParent_eq, found]
          apply ih rest notSelfSigned
          rcases ends with used | ⟨short, noParent⟩
          · exact .inl (Nat.succ.inj used)
          · exact .inr ⟨Nat.le_of_succ_le_succ short, noParent⟩

end Climbs

end Pkix.Revocation
