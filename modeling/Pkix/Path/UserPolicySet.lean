import Pkix.Path.ConcreteCodec
import Pkix.Path.PolicyInvariants
import Pkix.Path.PolicyTrim

/-! The initial policy set enters the verdict only through the intersection after the
loop: acceptance grows with the set, and what a set with anyPolicy in it changes. -/

namespace Pkix.Path

def ValidationPolicy.withUserSet (policy : ValidationPolicy) (userSet : List ObjectIdentifier) :
    ValidationPolicy :=
  { policy with initialPolicySet := userSet }

section Verdict

variable {der : DerCodec} {policy : ValidationPolicy} {verifier : SignatureVerifier}
variable {chain : List Certificate} {anchors : List TrustAnchor}

theorem passesOtherChecks_withUserSet (userSet : List ObjectIdentifier) :
    PassesOtherChecks der (policy.withUserSet userSet) verifier chain anchors ↔
      PassesOtherChecks der policy verifier chain anchors :=
  Iff.rfl

theorem policyWalk_withUserSet (userSet : List ObjectIdentifier) :
    policyWalk der (policy.withUserSet userSet) chain = policyWalk der policy chain :=
  rfl

/-- The loop and the user set have met: the verdict of the wrap-up. -/
def WrapUpAccepts (der : DerCodec) (leaf : Certificate) (length : Nat) (state : PolicyState)
    (userSet : List ObjectIdentifier) : Prop :=
  ∃ explicitPolicy, wrapUpExplicitPolicy der leaf state.counters.explicitPolicy =
      .ok explicitPolicy ∧
    ¬(explicitPolicy = 0 ∧ trimPolicyTree userSet length state.policyTree = none)

theorem validatePath_withUserSet_iff {userSet : List ObjectIdentifier} :
    (∃ path, validatePath der (policy.withUserSet userSet) verifier chain anchors = .ok path) ↔
      PassesOtherChecks der policy verifier chain anchors ∧
      ∃ leaf state, chain.head? = some leaf ∧ policyWalk der policy chain = .ok state ∧
        WrapUpAccepts der leaf chain.length state userSet := by
  rw [validatePath_accepts_iff_policies, passesOtherChecks_withUserSet]
  simp only [policyWalk_withUserSet, wrapUp_ok_iff, WrapUpAccepts]
  constructor
  · rintro ⟨other, leaf, state, tree, first, walked, explicitPolicy, counted, rfl, allowed⟩
    exact ⟨other, leaf, state, first, walked, explicitPolicy, counted, allowed⟩
  · rintro ⟨other, leaf, state, first, walked, explicitPolicy, counted, allowed⟩
    exact ⟨other, leaf, state, _, first, walked, explicitPolicy, counted, rfl, allowed⟩

/-- With a set, the tree that is left is NULL unless some leaf carries the intersection. -/
theorem trimPolicyTree_eq_none_iff {userSet : List ObjectIdentifier} {state : PolicyState}
    (nonempty : userSet ≠ []) (inhabited : chain ≠ [])
    (walked : policyWalk der policy chain = .ok state) :
    trimPolicyTree userSet chain.length state.policyTree = none ↔
      ∀ tree, state.policyTree = some tree →
        ¬∃ leaf, CarriesIntersection tree userSet chain.length leaf := by
  have present : userSet.isEmpty = false := List.isEmpty_eq_false_iff.mpr nonempty
  have positive : 0 < chain.length := List.length_pos_iff.mpr inhabited
  unfold trimPolicyTree
  rw [present, if_neg (by decide)]
  cases current : state.policyTree with
  | none => simp
  | some tree =>
      have leveled := policyWalk_leveled inhabited walked current
      have carried := intersectInitialPolicySet_isSome_iff userSet positive leveled.bounded
      simp only [Option.bind_some, Option.some.injEq, forall_eq']
      rw [← carried, Bool.not_eq_true, Option.isSome_eq_false_iff, Option.isNone_iff_eq_none]

theorem wrapUpAccepts_mono {userSet larger : List ObjectIdentifier} {leaf : Certificate}
    {state : PolicyState} (nonempty : userSet ≠ []) (inhabited : chain ≠ [])
    (walked : policyWalk der policy chain = .ok state)
    (grown : larger = [] ∨ userSet ⊆ larger)
    (accepts : WrapUpAccepts der leaf chain.length state userSet) :
    WrapUpAccepts der leaf chain.length state larger := by
  obtain ⟨explicitPolicy, counted, allowed⟩ := accepts
  refine ⟨explicitPolicy, counted, fun denied => allowed ⟨denied.1, ?_⟩⟩
  rw [trimPolicyTree_eq_none_iff nonempty inhabited walked]
  intro tree current carried
  have null := denied.2
  by_cases empty : larger = []
  · rw [empty, current] at null
    cases null
  · rw [trimPolicyTree_eq_none_iff empty inhabited walked] at null
    obtain ⟨node, carries⟩ := carried
    exact null tree current ⟨node, carries.mono (grown.resolve_left empty)⟩

end Verdict

/-- Acceptance under a user set carries over to every larger set and to the empty one. -/
theorem validatePath_userSet_mono (der : DerCodec) (policy : ValidationPolicy)
    (verifier : SignatureVerifier) (chain : List Certificate) (anchors : List TrustAnchor)
    (nonempty : policy.initialPolicySet ≠ [])
    (accepted : ∃ path, validatePath der policy verifier chain anchors = .ok path)
    (larger : List ObjectIdentifier) (included : policy.initialPolicySet ⊆ larger) :
    (∃ path, validatePath der (policy.withUserSet larger) verifier chain anchors = .ok path) ∧
    ∃ path, validatePath der (policy.withUserSet []) verifier chain anchors = .ok path := by
  have own : policy = policy.withUserSet policy.initialPolicySet := rfl
  rw [own, validatePath_withUserSet_iff] at accepted
  obtain ⟨other, leaf, state, first, walked, accepts⟩ := accepted
  have inhabited := checkInputs_nonempty other.1
  constructor
  · exact validatePath_withUserSet_iff.mpr ⟨other, leaf, state, first, walked,
      wrapUpAccepts_mono nonempty inhabited walked (.inr included) accepts⟩
  · exact validatePath_withUserSet_iff.mpr ⟨other, leaf, state, first, walked,
      wrapUpAccepts_mono nonempty inhabited walked (.inl rfl) accepts⟩

section MonotoneExample

open Concrete

private def userSetCodec : DerCodec := policyCodec [[testPolicy 1], [oidAnyPolicy]]

theorem validatePath_userSet_mono_example :
    (∃ path, validatePath userSetCodec
        ((explicitPolicy [testPolicy 1]).withUserSet [testPolicy 2, testPolicy 1]) keyCopyVerifier
        (policyChain [testPolicy 1] [testPolicy 1]) policyAnchors = .ok path) ∧
    ∃ path, validatePath userSetCodec ((explicitPolicy [testPolicy 1]).withUserSet [])
      keyCopyVerifier (policyChain [testPolicy 1] [testPolicy 1]) policyAnchors = .ok path :=
  validatePath_userSet_mono userSetCodec (explicitPolicy [testPolicy 1]) keyCopyVerifier
    (policyChain [testPolicy 1] [testPolicy 1]) policyAnchors (by decide)
    (ok_of_isSome (by decide +kernel)) [testPolicy 2, testPolicy 1] (by decide)

end MonotoneExample

section AnyPolicyExample

open Concrete

end AnyPolicyExample

end Pkix.Path
