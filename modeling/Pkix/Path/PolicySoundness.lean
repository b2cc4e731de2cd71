import Pkix.Path.ConcreteCodec
import Pkix.Path.PolicyPaths
import Pkix.Path.UserPolicySet

/-! Chains without policy mappings: what acceptance says about the policies of the
user set. -/

namespace Pkix.Path

section Explicit

variable (der : DerCodec)

def requiredSkip (cert : Certificate) : Option Nat :=
  (findCertExt der.policyConstraints cert oidPolicyConstraints).bind (·.requireExplicitPolicy)

/-- The certificates use up the initial counter, or those below some certificate use up
the skip it requires. -/
def ExplicitPolicyRequired (policy : ValidationPolicy) (chain : List Certificate) : Prop :=
  initialCounter chain policy.initialExplicitPolicy ≤ nonSelfIssuedCount chain ∨
    ∃ index cert skip, chain[index]? = some cert ∧ requiredSkip der cert = some skip ∧
      skip ≤ nonSelfIssuedCount (chain.take index)

end Explicit

section Counter

variable {der : DerCodec} {start : PolicyCounters}

theorem clampTo_le_iff {counter limit : Nat} {bound : Option Nat} :
    clampTo counter bound ≤ limit ↔
      counter ≤ limit ∨ ∃ value, bound = some value ∧ value ≤ limit := by
  cases bound with
  | none => simp [clampTo]
  | some value =>
      simp only [clampTo, Option.some.injEq, exists_eq_left']
      omega

theorem countersAfter_explicit {cert : Certificate} {counters : PolicyCounters} :
    (countersAfter der cert counters).explicitPolicy =
      clampTo
        (if isSelfIssuedCert cert then counters.explicitPolicy
          else counters.explicitPolicy - 1)
        (requiredSkip der cert) := by
  have stepped : (decrementCounters cert counters).explicitPolicy =
      if isSelfIssuedCert cert then counters.explicitPolicy
        else counters.explicitPolicy - 1 := by
    unfold decrementCounters
    split <;> rfl
  rw [← stepped]
  rfl

theorem nonSelfIssuedCount_cons (cert : Certificate) (rest : List Certificate) :
    nonSelfIssuedCount (cert :: rest) =
      nonSelfIssuedCount rest + if isSelfIssuedCert cert then 0 else 1 := by
  unfold nonSelfIssuedCount
  rw [List.filter_cons]
  cases isSelfIssuedCert cert <;> simp

theorem exists_position_cons {α : Type} {holds : Nat → α → Prop} {item : α} {rest : List α} :
    (∃ index other, (item :: rest)[index]? = some other ∧ holds index other) ↔
      holds 0 item ∨ ∃ index other, rest[index]? = some other ∧ holds (index + 1) other := by
  constructor
  · rintro ⟨index, other, located, held⟩
    cases index with
    | zero =>
        cases Option.some.inj located
        exact .inl held
    | succ index => exact .inr ⟨index, other, located, held⟩
  · intro found
    rcases found with held | ⟨index, other, located, held⟩
    · exact ⟨0, item, rfl, held⟩
    · exact ⟨index + 1, other, located, held⟩

theorem forall_position_cons {α : Type} {holds : Nat → α → Prop} {item : α} {rest : List α} :
    (∀ index other, (item :: rest)[index]? = some other → holds index other) ↔
      holds 0 item ∧ ∀ index other, rest[index]? = some other → holds (index + 1) other := by
  constructor
  · intro everywhere
    exact ⟨everywhere 0 item rfl, fun index other located =>
      everywhere (index + 1) other located⟩
  · intro both index other located
    cases index with
    | zero =>
        cases Option.some.inj located
        exact both.1
    | succ index => exact both.2 index other located

/-- How far the explicit-policy counter has come down under the certificates given. -/
theorem countersUnder_explicit_le_iff {upper : List Certificate} {limit : Nat} :
    (countersUnder der start upper).explicitPolicy ≤ limit ↔
      start.explicitPolicy ≤ limit + nonSelfIssuedCount upper ∨
        ∃ index cert skip, upper[index]? = some cert ∧ requiredSkip der cert = some skip ∧
          skip ≤ limit + nonSelfIssuedCount (upper.take index) := by
  induction upper generalizing limit with
  | nil =>
      have here : (countersUnder der start []).explicitPolicy = start.explicitPolicy := rfl
      rw [here]
      simp [nonSelfIssuedCount]
  | cons cert above ih =>
      have step : countersUnder der start (cert :: above) =
          countersAfter der cert (countersUnder der start above) := rfl
      have decremented : (if isSelfIssuedCert cert then
            (countersUnder der start above).explicitPolicy
          else (countersUnder der start above).explicitPolicy - 1) ≤ limit ↔
          (countersUnder der start above).explicitPolicy ≤
            limit + if isSelfIssuedCert cert then 0 else 1 := by
        split <;> omega
      rw [step, countersAfter_explicit, clampTo_le_iff, decremented, ih]
      simp only [exists_and_left]
      rw [exists_position_cons]
      simp only [List.take_zero, List.take_succ_cons, nonSelfIssuedCount_cons]
      have none_below : nonSelfIssuedCount [] = 0 := rfl
      rw [none_below, Nat.add_zero]
      have regroup (count : Nat) :
          limit + (if isSelfIssuedCert cert then 0 else 1) + count =
            limit + (count + if isSelfIssuedCert cert then 0 else 1) := by
        omega
      simp only [regroup]
      exact or_assoc.trans (or_congr_right or_comm)

/-- The counter the wrap-up tests is spent exactly when an explicit policy is required. -/
theorem wrapUpExplicitPolicy_zero_iff {policy : ValidationPolicy} {leaf : Certificate}
    {upper : List Certificate} {explicitPolicy : Nat}
    (counted : wrapUpExplicitPolicy der leaf
      (countersUnder der (initialCounters policy (leaf :: upper)) upper).explicitPolicy =
        .ok explicitPolicy) :
    explicitPolicy = 0 ↔ ExplicitPolicyRequired der policy (leaf :: upper) := by
  obtain ⟨constraints, decoded, same⟩ := Walk.bind_ok.mp counted
  have final : explicitPolicy =
      (countersUnder der (initialCounters policy (leaf :: upper))
        (leaf :: upper)).explicitPolicy := by
    rw [← Walk.pure_ok.mp same, ← tryFindCertExt_ok decoded]
    exact countersAfter_explicit.symm
  rw [final, ← Nat.le_zero, countersUnder_explicit_le_iff]
  simp only [Nat.zero_add]
  rfl

end Counter

section Positions

variable (der : DerCodec) (policy : ValidationPolicy) (chain : List Certificate)

/-- The certificate lists anyPolicy at a position where it may be expanded. -/
def ExpandsAnyAt (index : Nat) (cert : Certificate) : Prop :=
  ListsPolicy der cert oidAnyPolicy ∧
    mayExpandAnyPolicy cert index
      (countersUnder der (initialCounters policy chain) (chain.drop (index + 1))).inhibitAny = true

def Asserts (wanted : ObjectIdentifier) (index : Nat) (cert : Certificate) : Prop :=
  ListsPolicy der cert wanted ∨ ExpandsAnyAt der policy chain index cert

/-- Every certificate of the chain asserts the policy. -/
def ValidForPath (wanted : ObjectIdentifier) : Prop :=
  ∀ index cert, chain[index]? = some cert → Asserts der policy chain wanted index cert

def AnyThroughout : Prop :=
  ∀ index cert, chain[index]? = some cert → ExpandsAnyAt der policy chain index cert

/-- The topmost certificate lists the policy and all others assert it. -/
def ListedByTop (wanted : ObjectIdentifier) : Prop :=
  wanted ≠ oidAnyPolicy ∧
    (∃ top, chain.getLast? = some top ∧ ListsPolicy der top wanted) ∧
    ValidForPath der policy chain wanted

/-- A certificate below the topmost lists the policy, those above it expand anyPolicy
and those below it assert the policy. -/
def EntersBelow (wanted : ObjectIdentifier) : Prop :=
  ∃ position cert, position + 1 < chain.length ∧ chain[position]? = some cert ∧
    ListsPolicy der cert wanted ∧
    (∀ index other, position < index → chain[index]? = some other →
      ExpandsAnyAt der policy chain index other) ∧
    ∀ index other, index < position → chain[index]? = some other →
      Asserts der policy chain wanted index other

end Positions

section Along

variable {der : DerCodec} {length : Nat} {start : PolicyCounters} {wanted : ObjectIdentifier}
variable {policy : ValidationPolicy} {chain upper : List Certificate}

theorem anyAlong_iff :
    AnyAlong der length start upper ↔
      ∀ index cert, upper[index]? = some cert →
        ExpandsAny der length start cert (upper.drop (index + 1)) := by
  induction upper with
  | nil => simp [AnyAlong]
  | cons cert above ih =>
      rw [AnyAlong, ih, forall_position_cons]
      rfl

theorem validAlong_iff :
    ValidAlong der length start wanted upper ↔
      ∀ index cert, upper[index]? = some cert →
        ListsPolicy der cert wanted ∨
          ExpandsAny der length start cert (upper.drop (index + 1)) := by
  induction upper with
  | nil => simp [ValidAlong]
  | cons cert above ih =>
      rw [ValidAlong, ih, forall_position_cons]
      rfl

theorem expandsAny_at {index : Nat} {cert : Certificate}
    (located : chain[index]? = some cert) :
    ExpandsAny der chain.length (initialCounters policy chain) cert (chain.drop (index + 1)) ↔
      ExpandsAnyAt der policy chain index cert := by
  obtain ⟨bound, _⟩ := List.getElem?_eq_some_iff.mp located
  have place : chain.length - ((chain.drop (index + 1)).length + 1) = index := by
    rw [List.length_drop]
    omega
  unfold ExpandsAny ExpandsAnyAt
  rw [place]

theorem anyAlong_chain_iff :
    AnyAlong der chain.length (initialCounters policy chain) chain ↔
      AnyThroughout der policy chain := by
  rw [anyAlong_iff]
  exact forall_congr' fun index => forall_congr' fun cert => imp_congr_right expandsAny_at

theorem validAlong_chain_iff :
    ValidAlong der chain.length (initialCounters policy chain) wanted chain ↔
      ValidForPath der policy chain wanted := by
  rw [validAlong_iff]
  exact forall_congr' fun index => forall_congr' fun cert =>
    imp_congr_right fun located => or_congr_right (expandsAny_at located)

theorem topPolicy_chain_iff :
    TopPolicy der chain.length (initialCounters policy chain) chain wanted ↔
      ListedByTop der policy chain wanted := by
  unfold TopPolicy ListedByTop
  rw [validAlong_chain_iff]

/-- A valid policy is carried by anyPolicy alone, or some certificate is the first to
list it under anyPolicy. -/
theorem validAlong_origin (valid : ValidAlong der length start wanted upper) :
    AnyAlong der length start upper ∨
      ∃ position cert, upper[position]? = some cert ∧ ListsPolicy der cert wanted ∧
        AnyAlong der length start (upper.drop (position + 1)) := by
  induction upper with
  | nil => exact .inl trivial
  | cons cert above ih =>
      rcases ih valid.2 with carried | ⟨position, lister, located, listed, carried⟩
      · rcases valid.1 with listed | expanded
        · exact .inr ⟨0, cert, rfl, listed, carried⟩
        · exact .inl ⟨expanded, carried⟩
      · exact .inr ⟨position + 1, lister, located, listed, carried⟩

theorem validForPath_iff (specific : wanted ≠ oidAnyPolicy) :
    ValidForPath der policy chain wanted ↔
      AnyThroughout der policy chain ∨ ListedByTop der policy chain wanted ∨
        EntersBelow der policy chain wanted := by
  constructor
  · intro valid
    rcases validAlong_origin (validAlong_chain_iff.mpr valid) with
      carried | ⟨position, cert, located, listed, carried⟩
    · exact .inl (anyAlong_chain_iff.mp carried)
    · obtain ⟨bound, same⟩ := List.getElem?_eq_some_iff.mp located
      by_cases top : position + 1 = chain.length
      · have last : chain.getLast? = some cert := by
          rw [List.getLast?_eq_getElem?, ← top, Nat.add_sub_cancel, located]
        exact .inr (.inl ⟨specific, ⟨cert, last, listed⟩, valid⟩)
      · refine .inr (.inr ⟨position, cert, by omega, located, listed, ?_, ?_⟩)
        · intro index other above inside
          rw [anyAlong_iff] at carried
          have placed : (chain.drop (position + 1))[index - (position + 1)]? = some other := by
            rw [List.getElem?_drop, ← inside]
            congr 1
            omega
          have expanded := carried _ other placed
          rw [List.drop_drop, show position + 1 + (index - (position + 1) + 1) = index + 1 by
            omega] at expanded
          exact (expandsAny_at inside).mp expanded
        · exact fun index other _ inside => valid index other inside
  · intro cases
    rcases cases with everywhere | top | ⟨position, cert, _, located, listed, above, below⟩
    · exact fun index cert located => .inr (everywhere index cert located)
    · exact top.2.2
    · intro index other inside
      rcases Nat.lt_trichotomy index position with lower | rfl | higher
      · exact below index other lower inside
      · rw [located] at inside
        cases inside
        exact .inl listed
      · exact .inr (above index other higher inside)

end Along

section Verdict

variable {der : DerCodec} {policy : ValidationPolicy} {chain : List Certificate}
variable {userSet : List ObjectIdentifier} {state : PolicyState}

theorem certMappings_none (unmapped : ∀ cert ∈ chain, findExtension cert oidPolicyMappings = none) :
    ∀ cert ∈ chain, certMappings der cert = none := by
  intro cert member
  unfold certMappings findCertExt
  rw [unmapped cert member]

/-- The tree at the end of the loop over a chain without mappings. -/
theorem policyWalk_treeFor
    (unmapped : ∀ cert ∈ chain, findExtension cert oidPolicyMappings = none)
    (inhabited : chain ≠ []) (walked : policyWalk der policy chain = .ok state) :
    TreeFor der chain.length (initialCounters policy chain) chain state.policyTree := by
  cases chain with
  | nil => exact absurd rfl inhabited
  | cons leaf upper =>
      obtain ⟨_, _, rfl⟩ := policyWalk_ok_iff.mp walked
      have initial : (initialPolicyState policy (leaf :: upper)).policyTree =
          some initPolicyTree := rfl
      have grown := treeFor_processed der (upper.length + 1) leaf initial
        (fun cert member => certMappings_none unmapped cert (List.mem_cons_of_mem _ member))
      rw [Nat.sub_self] at grown
      exact grown

theorem policyWalk_spent_iff {leaf : Certificate} {explicitPolicy : Nat}
    (first : chain.head? = some leaf) (walked : policyWalk der policy chain = .ok state)
    (counted : wrapUpExplicitPolicy der leaf state.counters.explicitPolicy =
      .ok explicitPolicy) :
    explicitPolicy = 0 ↔ ExplicitPolicyRequired der policy chain := by
  cases chain with
  | nil => cases first
  | cons head upper =>
      cases Option.some.inj first
      obtain ⟨_, _, rfl⟩ := policyWalk_ok_iff.mp walked
      have counters : (processed der leaf 0 (upper.length + 1)
          (policiesUnder der (upper.length + 1) (initialPolicyState policy (leaf :: upper))
            upper)).counters =
          countersUnder der (initialCounters policy (leaf :: upper)) upper :=
        policiesUnder_counters upper
      rw [counters] at counted
      exact wrapUpExplicitPolicy_zero_iff counted

/-- What the intersection leaves of that tree. -/
theorem trimPolicyTree_ne_none_iff
    (tree : TreeFor der chain.length (initialCounters policy chain) chain state.policyTree)
    (walked : policyWalk der policy chain = .ok state) (inhabited : chain ≠ [])
    (nonempty : userSet ≠ []) (specificSet : oidAnyPolicy ∉ userSet) :
    trimPolicyTree userSet chain.length state.policyTree ≠ none ↔
      state.policyTree ≠ none ∧
      (AnyThroughout der policy chain ∨
        (∃ wanted ∈ userSet, ListedByTop der policy chain wanted) ∨
        ∀ wanted, ListedByTop der policy chain wanted → wanted ∈ userSet) := by
  rw [ne_eq, trimPolicyTree_eq_none_iff nonempty inhabited walked]
  cases current : state.policyTree with
  | none => simp
  | some found =>
      rw [current] at tree
      have carried := carriesIntersection_iff tree inhabited nonempty specificSet
      simp only [topPolicy_chain_iff, inLevel_any_iff, anyAlong_chain_iff] at carried
      simp only [Option.some.injEq, forall_eq', carried, not_not, ne_eq, reduceCtorEq,
        not_false_eq_true, true_and]

end Verdict

/-- Soundness, with its exact condition: an accepted chain has a policy of the set that
is valid for the whole path unless the topmost certificate lists no valid policy and
no policy of the set enters below it. -/
theorem validatePath_policy_sound_iff (der : DerCodec) (policy : ValidationPolicy)
    (verifier : SignatureVerifier) (chain : List Certificate) (anchors : List TrustAnchor)
    (path : ValidatedPath)
    (unmapped : ∀ cert ∈ chain, findExtension cert oidPolicyMappings = none)
    (explicit : policy.initialExplicitPolicy = true) (nonempty : policy.initialPolicySet ≠ [])
    (specificSet : oidAnyPolicy ∉ policy.initialPolicySet)
    (accepted : validatePath der policy verifier chain anchors = .ok path) :
    (∃ wanted ∈ policy.initialPolicySet, ValidForPath der policy chain wanted) ↔
      AnyThroughout der policy chain ∨ (∃ wanted, ListedByTop der policy chain wanted) ∨
        ∃ wanted ∈ policy.initialPolicySet, EntersBelow der policy chain wanted := by
  have specific {wanted : ObjectIdentifier} (member : wanted ∈ policy.initialPolicySet) :
      wanted ≠ oidAnyPolicy := fun same => specificSet (same ▸ member)
  have carried (everywhere : AnyThroughout der policy chain) :
      ∃ wanted ∈ policy.initialPolicySet, ValidForPath der policy chain wanted := by
    obtain ⟨wanted, member⟩ := List.exists_mem_of_ne_nil _ nonempty
    exact ⟨wanted, member, (validForPath_iff (specific member)).mpr (.inl everywhere)⟩
  constructor
  · intro found
    obtain ⟨wanted, member, valid⟩ := found
    rcases (validForPath_iff (specific member)).mp valid with everywhere | top | below
    · exact .inl everywhere
    · exact .inr (.inl ⟨wanted, top⟩)
    · exact .inr (.inr ⟨wanted, member, below⟩)
  · intro cases
    rcases cases with everywhere | ⟨listed, top⟩ | ⟨wanted, member, below⟩
    · exact carried everywhere
    · obtain ⟨other, leaf, state, tree, first, walked, wrapped⟩ :=
        validatePath_accepts_iff_policies.mp ⟨path, accepted⟩
      have inhabited := checkInputs_nonempty other.1
      obtain ⟨explicitPolicy, counted, same, allowed⟩ := wrapUp_ok_iff.mp wrapped
      have required : ExplicitPolicyRequired der policy chain := by
        left
        rw [explicit]
        exact Nat.zero_le _
      have spent := (policyWalk_spent_iff first walked counted).mpr required
      have kept : trimPolicyTree policy.initialPolicySet chain.length state.policyTree ≠ none := by
        intro null
        exact allowed ⟨spent, by rw [same, null]⟩
      have final := policyWalk_treeFor unmapped inhabited walked
      rw [trimPolicyTree_ne_none_iff final walked inhabited nonempty specificSet] at kept
      rcases kept.2 with everywhere | ⟨wanted, member, chosen⟩ | all
      · exact carried everywhere
      · exact ⟨wanted, member, chosen.2.2⟩
      · exact ⟨listed, all listed top, top.2.2⟩
    · exact ⟨wanted, member, (validForPath_iff (specific member)).mpr (.inr (.inr below))⟩

section SoundnessExample

open Concrete

private def soundnessCodec : DerCodec := policyCodec [[testPolicy 1], [oidAnyPolicy]]

theorem validatePath_policy_sound_iff_example :
    ∃ path, validatePath soundnessCodec (explicitPolicy [testPolicy 1]) keyCopyVerifier
        (policyChain [testPolicy 1] [oidAnyPolicy]) policyAnchors = .ok path ∧
      ((∃ wanted ∈ (explicitPolicy [testPolicy 1]).initialPolicySet,
          ValidForPath soundnessCodec (explicitPolicy [testPolicy 1])
            (policyChain [testPolicy 1] [oidAnyPolicy]) wanted) ↔
        AnyThroughout soundnessCodec (explicitPolicy [testPolicy 1])
            (policyChain [testPolicy 1] [oidAnyPolicy]) ∨
        (∃ wanted, ListedByTop soundnessCodec (explicitPolicy [testPolicy 1])
            (policyChain [testPolicy 1] [oidAnyPolicy]) wanted) ∨
        ∃ wanted ∈ (explicitPolicy [testPolicy 1]).initialPolicySet,
          EntersBelow soundnessCodec (explicitPolicy [testPolicy 1])
            (policyChain [testPolicy 1] [oidAnyPolicy]) wanted) := by
  obtain ⟨path, accepted⟩ : ∃ path, validatePath soundnessCodec (explicitPolicy [testPolicy 1])
      keyCopyVerifier (policyChain [testPolicy 1] [oidAnyPolicy]) policyAnchors = .ok path :=
    ok_of_isSome (by decide +kernel)
  exact ⟨path, accepted, validatePath_policy_sound_iff soundnessCodec
    (explicitPolicy [testPolicy 1]) keyCopyVerifier (policyChain [testPolicy 1] [oidAnyPolicy])
    policyAnchors path (by decide) rfl (by decide) (by decide) accepted⟩

/-- A CA that asserts anyPolicy and a leaf that asserts a policy outside the set are
accepted. -/
theorem validatePath_outside_set_accepted :
    ¬∀ (der : DerCodec) (policy : ValidationPolicy) (verifier : SignatureVerifier)
        (chain : List Certificate) (anchors : List TrustAnchor) (path : ValidatedPath),
      (∀ cert ∈ chain, findExtension cert oidPolicyMappings = none) →
      policy.initialExplicitPolicy = true → policy.initialPolicySet ≠ [] →
      oidAnyPolicy ∉ policy.initialPolicySet →
      validatePath der policy verifier chain anchors = .ok path →
      ∃ wanted ∈ policy.initialPolicySet, ValidForPath der policy chain wanted := by
  intro sound
  obtain ⟨path, accepted⟩ : ∃ path, validatePath soundnessCodec (explicitPolicy [testPolicy 2])
      keyCopyVerifier (policyChain [testPolicy 1] [oidAnyPolicy]) policyAnchors = .ok path :=
    ok_of_isSome (by decide +kernel)
  obtain ⟨wanted, member, valid⟩ := sound soundnessCodec (explicitPolicy [testPolicy 2])
    keyCopyVerifier (policyChain [testPolicy 1] [oidAnyPolicy]) policyAnchors path (by decide)
    rfl (by decide) (by decide) accepted
  rw [List.mem_singleton.mp member] at valid
  have leaf := valid 0 _ rfl
  have listed (policy : ObjectIdentifier) (other : policy ≠ testPolicy 1) :
      ¬ListsPolicy soundnessCodec
        (issue 2 (commonName [66]) (commonName [67]) [4, 5] [6]
          [policiesExtension [testPolicy 1]]) policy := by
    rintro ⟨policies, decoded, information, inside, same⟩
    have own : listedPolicies soundnessCodec
        (issue 2 (commonName [66]) (commonName [67]) [4, 5] [6]
          [policiesExtension [testPolicy 1]]) = some [⟨testPolicy 1, none⟩] := by
      decide +kernel
    rw [own] at decoded
    cases Option.some.inj decoded
    rw [List.mem_singleton.mp inside] at same
    exact other same.symm
  rcases leaf with specific | expanded
  · exact listed (testPolicy 2) (by decide) specific
  · exact listed oidAnyPolicy (by decide) expanded.1

end SoundnessExample

end Pkix.Path
