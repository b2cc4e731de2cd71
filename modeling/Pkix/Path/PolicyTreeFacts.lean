import Pkix.Lib.Levels
import Pkix.Path.PolicyTree

/-! One rule for each operation on the policy tree: which nodes it adds and which
it keeps. -/

namespace Pkix.Path

def expects (parent child : PolicyNode) : Bool :=
  parent.expectedPolicySet.contains child.validPolicy

/-- The parent relation of child creation: anyPolicy is a parent of every policy. -/
def isParent (parent child : PolicyNode) : Bool :=
  expects parent child || parent.validPolicy == oidAnyPolicy

def PolicyAt (tree : PolicyTree) (level : Nat) (policy : ObjectIdentifier) : Prop :=
  ∃ node ∈ tree, node.depth = level ∧ node.validPolicy = policy

def ExpectedAt (tree : PolicyTree) (level : Nat) (policy : ObjectIdentifier) : Prop :=
  ∃ node ∈ tree, node.depth = level ∧ policy ∈ node.expectedPolicySet

def lists (policies : CertificatePolicies) (policy : ObjectIdentifier) : Prop :=
  ∃ information ∈ policies, information.policyIdentifier = policy

section Prune

variable {tree : PolicyTree} {node : PolicyNode}

theorem expects_iff {parent child : PolicyNode} :
    expects parent child = true ↔ child.validPolicy ∈ parent.expectedPolicySet :=
  List.contains_iff_mem

theorem isParent_iff {parent child : PolicyNode} :
    isParent parent child = true ↔
      child.validPolicy ∈ parent.expectedPolicySet ∨ parent.validPolicy = oidAnyPolicy := by
  rw [isParent, Bool.or_eq_true, expects_iff, beq_iff_eq]

theorem any_isAnyAt_iff {level : Nat} :
    tree.any (isAnyAt level) = true ↔ PolicyAt tree level oidAnyPolicy := by
  simp [isAnyAt, PolicyAt]

theorem hasExpectedChild_eq (level : Nat) (node : PolicyNode) :
    hasExpectedChild tree level node = Levels.hasChild PolicyNode.depth expects tree level node := by
  unfold hasExpectedChild Levels.hasChild expects
  rw [List.any_map, List.any_filter]
  rfl

theorem prunePolicyTree_eq (bottom : Nat) (tree : PolicyTree) :
    prunePolicyTree bottom tree = Levels.pruneAbove PolicyNode.depth expects bottom tree := by
  induction bottom generalizing tree with
  | zero => rfl
  | succ level ih =>
      unfold prunePolicyTree Levels.pruneAbove
      simp only [hasExpectedChild_eq, ih]

theorem hasReachableParent_eq (level : Nat) (node : PolicyNode) :
    hasReachableParent tree level node =
      Levels.hasParent PolicyNode.depth isParent tree (level + 1) node := by
  rw [Bool.eq_iff_iff, Levels.hasParent_iff, hasReachableParent, Bool.or_eq_true,
    any_isAnyAt_iff, List.contains_iff_mem]
  simp only [List.mem_flatMap, List.mem_filter, beq_iff_eq, isParent_iff, PolicyAt]
  constructor
  · rintro (⟨parent, ⟨member, level⟩, expected⟩ | ⟨parent, member, level, anyPolicy⟩)
    · exact ⟨parent, member, by omega, .inl expected⟩
    · exact ⟨parent, member, by omega, .inr anyPolicy⟩
  · rintro ⟨parent, member, level, expected | anyPolicy⟩
    · exact .inl ⟨parent, ⟨member, by omega⟩, expected⟩
    · exact .inr ⟨parent, member, by omega, anyPolicy⟩

theorem cascadeDelete_eq (level count : Nat) (tree : PolicyTree) :
    cascadeDelete (level + 1) count tree =
      Levels.cascadeBelow PolicyNode.depth isParent (level + 1) count tree := by
  induction count generalizing level tree with
  | zero => rfl
  | succ count ih =>
      unfold cascadeDelete Levels.cascadeBelow
      simp only [Nat.add_sub_cancel, hasReachableParent_eq, ih]

theorem policyTreeIsNull_iff : policyTreeIsNull tree = true ↔ ∀ node ∈ tree, node.depth = 0 := by
  simp [policyTreeIsNull]

theorem mem_prunePolicyTree_iff {bottom : Nat} :
    node ∈ prunePolicyTree bottom tree ↔
      node ∈ tree ∧ (node.depth = 0 ∨ bottom ≤ node.depth ∨
        Levels.Reaches PolicyNode.depth expects tree bottom node) := by
  rw [prunePolicyTree_eq]
  exact Levels.mem_pruneAbove_iff

/-- A tree no deeper than the prune depth becomes NULL exactly when its lowest level
is empty. -/
theorem policyTreePostOpPrune_eq {bottom : Nat} (positive : 0 < bottom)
    (bounded : ∀ node ∈ tree, node.depth ≤ bottom) :
    policyTreePostOpPrune tree bottom =
      if tree.any (fun node => node.depth == bottom) then some (prunePolicyTree bottom tree)
      else none := by
  have null : policyTreeIsNull (prunePolicyTree bottom tree) = true ↔
      tree.any (fun node => node.depth == bottom) = false := by
    rw [policyTreeIsNull_iff, Bool.eq_false_iff, ne_eq, List.any_eq_true]
    constructor
    · rintro rootOnly ⟨node, member, lowest⟩
      rw [beq_iff_eq] at lowest
      have kept : node ∈ prunePolicyTree bottom tree :=
        mem_prunePolicyTree_iff.mpr ⟨member, .inr (.inl (by omega))⟩
      have root := rootOnly node kept
      omega
    · intro empty node kept
      obtain ⟨member, place⟩ := mem_prunePolicyTree_iff.mp kept
      have limit := bounded node member
      have nonempty {other : PolicyNode} (inside : other ∈ tree) : other.depth ≠ bottom :=
        fun lowest => empty ⟨other, inside, beq_iff_eq.mpr lowest⟩
      rcases place with root | low | reaches
      · exact root
      · exact absurd (by omega) (nonempty member)
      · exfalso
        induction reaches with
        | here inside atBottom => exact nonempty inside atBottom
        | down inside below _ _ ih =>
            have reached := mem_prunePolicyTree_iff.mpr ⟨below.mem, .inr (.inr below)⟩
            exact ih reached below.mem (bounded _ below.mem)
  unfold policyTreePostOpPrune
  rw [if_pos positive]
  cases lowest : tree.any (fun node => node.depth == bottom) with
  | true =>
      have alive : policyTreeIsNull (prunePolicyTree bottom tree) = false := by
        rw [Bool.eq_false_iff]
        intro dead
        rw [null.mp dead] at lowest
        cases lowest
      simp [alive]
  | false => simp [null.mpr lowest]

theorem policyTreePostOpPrune_zero_eq :
    policyTreePostOpPrune tree 0 = if policyTreeIsNull tree then none else some tree := by
  simp [policyTreePostOpPrune]

end Prune

section Create

variable {tree : PolicyTree} {node : PolicyNode} {depth : Nat}

theorem assertsAnyPolicy_iff {policies : CertificatePolicies} :
    assertsAnyPolicy policies = true ↔ lists policies oidAnyPolicy := by
  simp [assertsAnyPolicy, lists]

theorem mem_specificChildren_iff {information : PolicyInformation} :
    node ∈ specificChildren tree depth information ↔
      information.policyIdentifier ≠ oidAnyPolicy ∧
      node = freshNode depth information.policyIdentifier
        (information.policyQualifiers.getD []) ∧
      (ExpectedAt tree (depth - 1) information.policyIdentifier ∨
        PolicyAt tree (depth - 1) oidAnyPolicy) := by
  unfold specificChildren
  by_cases anyPolicy : information.policyIdentifier = oidAnyPolicy
  · simp [anyPolicy]
  · rw [if_neg anyPolicy]
    dsimp only
    have expected : (tree.filter (fun parent => parent.depth == depth - 1 &&
        parent.expectedPolicySet.contains information.policyIdentifier)).isEmpty = false ↔
        ExpectedAt tree (depth - 1) information.policyIdentifier := by
      rw [← Bool.not_eq_true, List.isEmpty_iff, List.filter_eq_nil_iff]
      simp [ExpectedAt]
    rw [← any_isAnyAt_iff, ← expected]
    cases empty : (tree.filter (fun parent => parent.depth == depth - 1 &&
        parent.expectedPolicySet.contains information.policyIdentifier)).isEmpty with
    | true => cases tree.any (isAnyAt (depth - 1)) <;> simp [anyPolicy]
    | false =>
        obtain ⟨parent, inside⟩ :=
          List.exists_mem_of_ne_nil _ (List.isEmpty_eq_false_iff.mp empty)
        rw [if_neg (by decide), List.mem_map]
        constructor
        · rintro ⟨_, _, rfl⟩
          exact ⟨anyPolicy, rfl, .inl rfl⟩
        · rintro ⟨_, rfl, _⟩
          exact ⟨parent, inside, rfl⟩

theorem mem_expandedChildren_iff {covered : List ObjectIdentifier}
    {qualifiers : List PolicyQualifierInfo} :
    node ∈ expandedChildren tree depth covered qualifiers ↔
      ∃ policy, ExpectedAt tree (depth - 1) policy ∧ policy ∉ covered ∧
        node = freshNode depth policy qualifiers := by
  unfold expandedChildren ExpectedAt
  simp only [List.mem_flatMap, List.mem_filter, List.mem_map, beq_iff_eq, Bool.not_eq_true',
    ← Bool.not_eq_true, List.contains_iff_mem]
  constructor
  · rintro ⟨parent, ⟨member, level⟩, policy, ⟨expected, fresh⟩, rfl⟩
    exact ⟨policy, ⟨parent, member, level, expected⟩, fresh, rfl⟩
  · rintro ⟨policy, ⟨parent, member, level, expected⟩, fresh, rfl⟩
    exact ⟨parent, ⟨member, level⟩, policy, ⟨expected, fresh⟩, rfl⟩

/-- A new node is at the new depth and expects its own policy. -/
theorem newNodes_shape {mayExpand : Bool} {policies : CertificatePolicies}
    (created : node ∈ newNodes tree depth mayExpand policies) :
    node.depth = depth ∧ node.expectedPolicySet = [node.validPolicy] := by
  have specific (inside : node ∈ policies.flatMap (specificChildren tree depth)) :
      node.depth = depth ∧ node.expectedPolicySet = [node.validPolicy] := by
    obtain ⟨information, _, child⟩ := List.mem_flatMap.mp inside
    obtain ⟨_, rfl, _⟩ := mem_specificChildren_iff.mp child
    exact ⟨rfl, rfl⟩
  unfold newNodes at created
  dsimp only at created
  split at created
  · rcases List.mem_append.mp created with inside | expanded
    · exact specific inside
    · obtain ⟨policy, _, _, rfl⟩ := mem_expandedChildren_iff.mp expanded
      exact ⟨rfl, rfl⟩
  · exact specific created

/-- The policies of the new level: those listed under a parent, and with an expandable
anyPolicy all those expected. -/
theorem newNodes_policy_iff {mayExpand : Bool} {policies : CertificatePolicies}
    {policy : ObjectIdentifier} :
    (∃ node ∈ newNodes tree depth mayExpand policies, node.validPolicy = policy) ↔
      (policy ≠ oidAnyPolicy ∧ lists policies policy ∧
        (ExpectedAt tree (depth - 1) policy ∨ PolicyAt tree (depth - 1) oidAnyPolicy)) ∨
      (lists policies oidAnyPolicy ∧ mayExpand = true ∧ ExpectedAt tree (depth - 1) policy) := by
  have specific : (∃ node ∈ policies.flatMap (specificChildren tree depth),
      node.validPolicy = policy) ↔
      policy ≠ oidAnyPolicy ∧ lists policies policy ∧
        (ExpectedAt tree (depth - 1) policy ∨ PolicyAt tree (depth - 1) oidAnyPolicy) := by
    simp only [List.mem_flatMap, mem_specificChildren_iff]
    constructor
    · rintro ⟨_, ⟨information, member, other, rfl, parented⟩, rfl⟩
      exact ⟨other, ⟨information, member, rfl⟩, parented⟩
    · rintro ⟨other, ⟨information, member, rfl⟩, parented⟩
      exact ⟨_, ⟨information, member, other, rfl, parented⟩, rfl⟩
  unfold newNodes
  dsimp only
  by_cases expandable : (assertsAnyPolicy policies && mayExpand) = true
  · rw [if_pos expandable]
    rw [Bool.and_eq_true, assertsAnyPolicy_iff] at expandable
    simp only [List.mem_append, mem_expandedChildren_iff, or_and_right, exists_or, specific]
    apply or_congr_right'
    intro uncovered
    constructor
    · rintro ⟨_, ⟨_, expected, _, rfl⟩, rfl⟩
      exact ⟨expandable.1, expandable.2, expected⟩
    · rintro ⟨_, _, expected⟩
      refine ⟨_, ⟨policy, expected, ?_, rfl⟩, rfl⟩
      intro covered
      exact uncovered (specific.mp (List.mem_map.mp covered))
  · rw [if_neg expandable, specific]
    rw [Bool.and_eq_true, assertsAnyPolicy_iff] at expandable
    constructor
    · exact .inl
    · rintro (listed | ⟨asserted, allowed, _⟩)
      · exact listed
      · exact absurd ⟨asserted, allowed⟩ expandable

end Create

end Pkix.Path
