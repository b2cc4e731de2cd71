import Pkix.Path.ConcreteCodec
import Pkix.Path.PolicyLevelWalk
import Pkix.Path.PolicySoundness

/-! The policy counters of RFC 5280 section 6.1, and where the walk keeps other ones. -/

namespace Pkix.Path

section Rfc

variable (der : DerCodec) (policy : ValidationPolicy)

def decrementUnlessZero (counter : Nat) : Nat :=
  if counter = 0 then 0 else counter - 1

def lowerIfSmaller (counter : Nat) : Option Nat → Nat
  | none => counter
  | some value => if value < counter then value else counter

def mappingSkip (cert : Certificate) : Option Nat :=
  (findCertExt der.policyConstraints cert oidPolicyConstraints).bind (·.inhibitPolicyMapping)

def anyPolicySkip (cert : Certificate) : Option Nat :=
  findCertExt der.inhibitAnyPolicy cert oidInhibitAnyPolicy

/-- Section 6.1.2 (d) to (f), for a path of the length given. -/
def rfcInitialCounters (length : Nat) : PolicyCounters :=
  { explicitPolicy := if policy.initialExplicitPolicy then 0 else length + 1
    inhibitAny := if policy.initialAnyPolicyInhibit then 0 else length + 1
    policyMapping := if policy.initialPolicyMappingInhibit then 0 else length + 1 }

def rfcDecrement (cert : Certificate) (counters : PolicyCounters) : PolicyCounters :=
  if isSelfIssuedCert cert then counters
  else
    { explicitPolicy := decrementUnlessZero counters.explicitPolicy
      inhibitAny := decrementUnlessZero counters.inhibitAny
      policyMapping := decrementUnlessZero counters.policyMapping }

/-- Section 6.1.4 (h) to (j), in preparation for the next certificate. -/
def rfcPrepare (cert : Certificate) (counters : PolicyCounters) : PolicyCounters :=
  let decremented := rfcDecrement cert counters
  { explicitPolicy := lowerIfSmaller decremented.explicitPolicy (requiredSkip der cert)
    inhibitAny := lowerIfSmaller decremented.inhibitAny (anyPolicySkip der cert)
    policyMapping := lowerIfSmaller decremented.policyMapping (mappingSkip der cert) }

/-- The counters under the certificates given, in a path of the length given. -/
def rfcCountersUnder (length : Nat) (upper : List Certificate) : PolicyCounters :=
  upper.foldr (rfcPrepare der) (rfcInitialCounters policy length)

/-- Section 6.1.5 (a) and (b), where the issuer of the leaf does not matter. -/
def rfcWrapUp (leaf : Certificate) (explicitPolicy : Nat) : Nat :=
  if requiredSkip der leaf = some 0 then 0 else decrementUnlessZero explicitPolicy

def rfcExplicitPolicy (leaf : Certificate) (upper : List Certificate) : Nat :=
  rfcWrapUp der leaf (rfcCountersUnder der policy (upper.length + 1) upper).explicitPolicy

end Rfc

section Conditions

variable (der : DerCodec) (policy : ValidationPolicy) (verifier : SignatureVerifier)

/-- At every certificate the loop reaches, its counters are those of the RFC. -/
def CountersFollow (chain : List Certificate) (anchor : TrustAnchor) : Prop :=
  ∀ above cert below state,
    Walk.Reached (certStep der policy verifier chain) chain.reverse
      (initialState policy chain anchor) above (cert :: below) state →
    state.policies.counters = rfcCountersUnder der policy chain.length above.reverse

/-- The initial counters fit 32 bits, or none of them counts. -/
def CountersFit (chain : List Certificate) : Prop :=
  chain.length < u32Max ∨
    (policy.initialExplicitPolicy = true ∧ policy.initialAnyPolicyInhibit = true ∧
      policy.initialPolicyMappingInhibit = true)

/-- Whether the wrap-up of the code leaves the value of the RFC, by the skip the leaf
requires and the counter before it. -/
def LeafFollows (leaf : Certificate) (explicitPolicy : Nat) : Prop :=
  match requiredSkip der leaf with
  | none => isSelfIssuedCert leaf = true → explicitPolicy = 0
  | some 0 => True
  | some (skip + 1) =>
      if isSelfIssuedCert leaf then explicitPolicy = 0 ∨ explicitPolicy = skip + 2
      else explicitPolicy ≤ skip + 2

end Conditions

section Steps

variable {der : DerCodec} {policy : ValidationPolicy}

theorem decrementUnlessZero_eq (counter : Nat) : decrementUnlessZero counter = counter - 1 := by
  unfold decrementUnlessZero
  split <;> omega

theorem lowerIfSmaller_eq (counter : Nat) (bound : Option Nat) :
    lowerIfSmaller counter bound = clampTo counter bound := by
  cases bound with
  | none => rfl
  | some value =>
      simp only [lowerIfSmaller, clampTo]
      split <;> omega

/-- At a CA the code computes the counters of the RFC. -/
theorem rfcPrepare_eq (cert : Certificate) (counters : PolicyCounters) :
    rfcPrepare der cert counters = countersAfter der cert counters := by
  have decremented : rfcDecrement cert counters = decrementCounters cert counters := by
    simp only [rfcDecrement, decrementCounters, decrementUnlessZero_eq]
  simp only [rfcPrepare, decremented, lowerIfSmaller_eq]
  rfl

theorem rfcCountersUnder_eq (length : Nat) (upper : List Certificate) :
    rfcCountersUnder der policy length upper =
      countersUnder der (rfcInitialCounters policy length) upper := by
  have same : rfcPrepare der = countersAfter der := by
    funext cert counters
    exact rfcPrepare_eq cert counters
  rw [rfcCountersUnder, same]
  rfl

theorem initialCounter_eq_iff {chain : List Certificate} {inhibited : Bool} :
    initialCounter chain inhibited = (if inhibited then 0 else chain.length + 1) ↔
      inhibited = true ∨ chain.length < u32Max := by
  unfold initialCounter
  cases inhibited with
  | true => simp
  | false =>
      simp only [Bool.false_eq_true, if_false, false_or]
      omega

theorem initialCounters_eq_iff {chain : List Certificate} :
    initialCounters policy chain = rfcInitialCounters policy chain.length ↔
      CountersFit policy chain := by
  unfold initialCounters rfcInitialCounters CountersFit
  simp only [PolicyCounters.mk.injEq, initialCounter_eq_iff]
  tauto

theorem initialCounters_explicit_le {chain : List Certificate} :
    (initialCounters policy chain).explicitPolicy ≤
      (rfcInitialCounters policy chain.length).explicitPolicy := by
  simp only [initialCounters, rfcInitialCounters, initialCounter]
  split <;> omega

theorem clampTo_mono {low high : Nat} (bound : Option Nat) (smaller : low ≤ high) :
    clampTo low bound ≤ clampTo high bound := by
  cases bound with
  | none => exact smaller
  | some value =>
      simp only [clampTo]
      omega

theorem countersUnder_explicit_mono {low high : PolicyCounters}
    (smaller : low.explicitPolicy ≤ high.explicitPolicy) (upper : List Certificate) :
    (countersUnder der low upper).explicitPolicy ≤
      (countersUnder der high upper).explicitPolicy := by
  induction upper with
  | nil => exact smaller
  | cons cert above ih =>
      have step (start : PolicyCounters) : countersUnder der start (cert :: above) =
          countersAfter der cert (countersUnder der start above) := rfl
      rw [step, step, countersAfter_explicit, countersAfter_explicit]
      apply clampTo_mono
      split <;> omega

end Steps

section Walk

variable {der : DerCodec} {policy : ValidationPolicy} {verifier : SignatureVerifier}
variable {leaf : Certificate} {upper : List Certificate} {anchor : TrustAnchor}

theorem reached_counters {chain above below : List Certificate} {cert : Certificate}
    {state : WorkingState}
    (reached : Walk.Reached (certStep der policy verifier chain) chain.reverse
      (initialState policy chain anchor) above (cert :: below) state) :
    state.policies.counters =
      countersUnder der (initialCounters policy chain) above.reverse := by
  rcases reached_policies reached with ⟨_, _, policies, _⟩
  rw [policies, policiesUnder_counters]
  rfl

theorem final_counters {final : WorkingState}
    (finished : walkCerts der policy verifier (leaf :: upper) anchor = .ok final) :
    final.policies.counters =
      countersUnder der (initialCounters policy (leaf :: upper)) upper := by
  have walked := (walkCerts_ok_iff.mp finished).2.2
  rw [(policyWalk_ok_iff.mp walked).2.2]
  calc
    _ = (policiesUnder der (upper.length + 1)
          (initialPolicyState policy (leaf :: upper)) upper).counters := rfl
    _ = _ := by
      rw [policiesUnder_counters]
      rfl

theorem countersFollow_iff {chain : List Certificate} (nonempty : chain ≠ []) :
    CountersFollow der policy verifier chain anchor ↔ CountersFit policy chain := by
  rw [← initialCounters_eq_iff]
  constructor
  · intro follows
    cases pending : chain.reverse with
    | nil => exact absurd (List.reverse_eq_nil_iff.mp pending) nonempty
    | cons cert below =>
        have reached : Walk.Reached (certStep der policy verifier chain) chain.reverse
            (initialState policy chain anchor) [] (cert :: below)
            (initialState policy chain anchor) := by
          rw [← pending]
          exact .start
        exact follows [] cert below _ reached
  · intro fits above cert below state reached
    rw [reached_counters reached, fits, rfcCountersUnder_eq]

theorem wrapUpExplicitPolicy_value {before explicitPolicy : Nat}
    (counted : wrapUpExplicitPolicy der leaf before = .ok explicitPolicy) :
    explicitPolicy =
      clampTo (if isSelfIssuedCert leaf then before else before - 1) (requiredSkip der leaf) := by
  rcases Walk.bind_ok.mp counted with ⟨constraints, decoded, same⟩
  rw [← Walk.pure_ok.mp same, ← tryFindCertExt_ok decoded]
  rfl

/-- Where the wrap-up of the code and that of the RFC leave one value. -/
theorem wrapUp_values_iff {before : Nat} :
    clampTo (if isSelfIssuedCert leaf then before else before - 1) (requiredSkip der leaf) =
        rfcWrapUp der leaf before ↔
      LeafFollows der leaf before := by
  unfold rfcWrapUp LeafFollows
  rw [decrementUnlessZero_eq]
  cases requiredSkip der leaf with
  | none =>
      cases isSelfIssuedCert leaf with
      | false => simp [clampTo]
      | true =>
          simp only [clampTo, if_true, reduceCtorEq, if_false, true_implies]
          omega
  | some skip =>
      cases skip with
      | zero => simp [clampTo]
      | succ skip =>
          cases isSelfIssuedCert leaf with
          | false =>
              simp only [clampTo, Bool.false_eq_true, if_false, Option.some.injEq,
                Nat.add_one_ne_zero]
              omega
          | true =>
              simp only [clampTo, if_true, Option.some.injEq, Nat.add_one_ne_zero, if_false]
              omega

/-- When the code ends with a positive counter, so does the RFC, unless it took the one
decrement that the code spares a self-issued leaf. -/
theorem rfcWrapUp_pos_iff {before larger : Nat} (bounded : before ≤ larger)
    (positive : 0 < clampTo (if isSelfIssuedCert leaf then before else before - 1)
      (requiredSkip der leaf)) :
    0 < rfcWrapUp der leaf larger ↔ ¬(isSelfIssuedCert leaf = true ∧ larger = 1) := by
  unfold rfcWrapUp
  rw [decrementUnlessZero_eq]
  have spared : requiredSkip der leaf ≠ some 0 := by
    intro required
    rw [required] at positive
    simp [clampTo] at positive
  have counted : 0 < (if isSelfIssuedCert leaf then before else before - 1) := by
    cases bound : requiredSkip der leaf with
    | none =>
        rw [bound] at positive
        exact positive
    | some skip =>
        rw [bound] at positive
        simp only [clampTo] at positive
        omega
  rw [if_neg spared]
  cases issued : isSelfIssuedCert leaf with
  | false =>
      simp only [issued, Bool.false_eq_true, if_false, false_and, not_false_eq_true,
        iff_true] at counted ⊢
      omega
  | true =>
      simp only [issued, if_true, true_and] at counted ⊢
      omega

/-- The counters at every certificate are those of the RFC exactly when the initial ones
fit; the wrap-up then leaves the value of the RFC exactly when the leaf allows it; and an
accepted path without a tree has a positive counter by the RFC unless the leaf is
self-issued and the last skip stood before it. -/
theorem policy_counters_follow_iff (der : DerCodec) (policy : ValidationPolicy)
    (verifier : SignatureVerifier) (leaf : Certificate) (upper : List Certificate)
    (anchor : TrustAnchor) :
    (CountersFollow der policy verifier (leaf :: upper) anchor ↔
      CountersFit policy (leaf :: upper)) ∧
    (∀ final explicitPolicy,
      walkCerts der policy verifier (leaf :: upper) anchor = .ok final →
      wrapUpExplicitPolicy der leaf final.policies.counters.explicitPolicy = .ok explicitPolicy →
      ((CountersFollow der policy verifier (leaf :: upper) anchor ∧
          explicitPolicy = rfcExplicitPolicy der policy leaf upper) ↔
        (CountersFit policy (leaf :: upper) ∧
          LeafFollows der leaf
            (rfcCountersUnder der policy (upper.length + 1) upper).explicitPolicy))) ∧
    ∀ anchors path, validatePath der policy verifier (leaf :: upper) anchors = .ok path →
      path.validPolicyTree = none →
      (0 < rfcExplicitPolicy der policy leaf upper ↔
        ¬(isSelfIssuedCert leaf = true ∧
          (rfcCountersUnder der policy (upper.length + 1) upper).explicitPolicy = 1)) := by
  have loop : CountersFollow der policy verifier (leaf :: upper) anchor ↔
      CountersFit policy (leaf :: upper) := countersFollow_iff (List.cons_ne_nil leaf upper)
  refine ⟨loop, ?_, ?_⟩
  · intro final explicitPolicy finished counted
    rw [loop]
    apply and_congr_right
    intro fits
    rw [wrapUpExplicitPolicy_value counted, final_counters finished,
      initialCounters_eq_iff.mpr fits, rfcExplicitPolicy, rfcCountersUnder_eq]
    exact wrapUp_values_iff
  · intro anchors path accepted absent
    rcases validatePath_ok accepted with ⟨head, _, from_, tree, first, _, _, _, walked, same⟩
    cases Option.some.inj first
    have missing : tree = none := by
      rw [same] at absent
      exact absent
    rcases chainWalk_ok_iff.mp walked with ⟨final, finished, wrapped⟩
    rcases wrapUp_ok_iff.mp wrapped with ⟨explicitPolicy, counted, _, allowed⟩
    have positive : 0 < explicitPolicy := by
      rw [Nat.pos_iff_ne_zero]
      intro spent
      exact allowed ⟨spent, missing⟩
    rw [wrapUpExplicitPolicy_value counted, final_counters finished] at positive
    rw [rfcExplicitPolicy, rfcCountersUnder_eq]
    exact rfcWrapUp_pos_iff
      (countersUnder_explicit_mono initialCounters_explicit_le upper) positive

end Walk

section CountersExample

open Concrete

/-- PolicyConstraints with requireExplicitPolicy 1. -/
private def skipContent : Bytes := [0x30, 0x03, 0x80, 0x01, 0x01]

private def skipCodec : DerCodec :=
  { tableCodec { basicConstraints := caTable } with
    policyConstraints := ([(skipContent, (⟨some 1, none⟩ : PolicyConstraints))].lookup ·) }

private def plainCa : Certificate :=
  issue 1 (commonName [65]) (commonName [66]) [1, 2, 3] [4, 5] [caExtension]

private def skipCa : Certificate :=
  issue 1 (commonName [65]) (commonName [66]) [1, 2, 3] [4, 5]
    [caExtension, ⟨oidPolicyConstraints, true, skipContent⟩]

private def plainLeaf : Certificate :=
  issue 2 (commonName [66]) (commonName [67]) [4, 5] [6] []

private def selfIssuedLeaf : Certificate :=
  issue 2 (commonName [66]) (commonName [66]) [4, 5] [6] []

theorem policy_counters_follow_example :
    CountersFollow skipCodec (.new 1800000000) keyCopyVerifier [plainLeaf, plainCa]
        (anchorNamed (commonName [65]) [1, 2, 3] none) ∧
      (∃ final explicitPolicy,
        walkCerts skipCodec (.new 1800000000) keyCopyVerifier [plainLeaf, plainCa]
            (anchorNamed (commonName [65]) [1, 2, 3] none) = .ok final ∧
        wrapUpExplicitPolicy skipCodec plainLeaf final.policies.counters.explicitPolicy =
          .ok explicitPolicy ∧
        explicitPolicy =
          rfcExplicitPolicy skipCodec (.new 1800000000) plainLeaf [plainCa]) ∧
      ∃ path, validatePath skipCodec (.new 1800000000) keyCopyVerifier [plainLeaf, plainCa]
          policyAnchors = .ok path ∧
        path.validPolicyTree = none ∧
        0 < rfcExplicitPolicy skipCodec (.new 1800000000) plainLeaf [plainCa] := by
  have rule := policy_counters_follow_iff skipCodec (.new 1800000000) keyCopyVerifier plainLeaf
    [plainCa] (anchorNamed (commonName [65]) [1, 2, 3] none)
  have fits : CountersFit (.new 1800000000) [plainLeaf, plainCa] := .inl (by decide)
  refine ⟨rule.1.mpr fits, ?_, ?_⟩
  · rcases (ok_of_isSome (by decide +kernel) : ∃ final, walkCerts skipCodec (.new 1800000000)
      keyCopyVerifier [plainLeaf, plainCa] (anchorNamed (commonName [65]) [1, 2, 3] none) =
        .ok final) with ⟨final, finished⟩
    rcases (ok_of_isSome rfl : ∃ explicitPolicy, wrapUpExplicitPolicy skipCodec plainLeaf
      final.policies.counters.explicitPolicy = .ok explicitPolicy) with ⟨explicitPolicy, counted⟩
    have leaf : LeafFollows skipCodec plainLeaf (rfcCountersUnder skipCodec (.new 1800000000)
        ([plainCa].length + 1) [plainCa]).explicitPolicy := by
      intro issued
      exact absurd issued (by decide +kernel)
    exact ⟨final, explicitPolicy, finished, counted,
      ((rule.2.1 final explicitPolicy finished counted).mpr ⟨fits, leaf⟩).2⟩
  · rcases (ok_of_isSome (by decide +kernel) : ∃ path, validatePath skipCodec (.new 1800000000)
      keyCopyVerifier [plainLeaf, plainCa] policyAnchors = .ok path) with ⟨path, accepted⟩
    have computed : ((validatePath skipCodec (.new 1800000000) keyCopyVerifier
        [plainLeaf, plainCa] policyAnchors).toOption.bind (·.validPolicyTree)) = none := by
      decide +kernel
    rw [accepted] at computed
    have positive := (rule.2.2 policyAnchors path accepted computed).mpr (by decide +kernel)
    exact ⟨path, accepted, computed, positive⟩

/-- Under a CA that requires an explicit policy from the next certificate on, a
self-issued leaf without policies is accepted. -/
theorem policy_counters_self_issued_leaf :
    ¬∀ (der : DerCodec) (policy : ValidationPolicy) (verifier : SignatureVerifier)
        (leaf : Certificate) (upper : List Certificate) (anchors : List TrustAnchor)
        (path : ValidatedPath),
      validatePath der policy verifier (leaf :: upper) anchors = .ok path →
      path.validPolicyTree = none →
      0 < rfcExplicitPolicy der policy leaf upper := by
  intro positive
  rcases (ok_of_isSome (by decide +kernel) : ∃ path, validatePath skipCodec (.new 1800000000)
    keyCopyVerifier [selfIssuedLeaf, skipCa] policyAnchors = .ok path) with ⟨path, accepted⟩
  have computed : ((validatePath skipCodec (.new 1800000000) keyCopyVerifier
      [selfIssuedLeaf, skipCa] policyAnchors).toOption.bind (·.validPolicyTree)) = none := by
    decide +kernel
  rw [accepted] at computed
  have spent : rfcExplicitPolicy skipCodec (.new 1800000000) selfIssuedLeaf [skipCa] = 0 := by
    decide +kernel
  have counted := positive skipCodec (.new 1800000000) keyCopyVerifier selfIssuedLeaf [skipCa]
    policyAnchors path accepted computed
  rw [spent] at counted
  exact absurd counted (Nat.lt_irrefl 0)

end CountersExample

end Pkix.Path
