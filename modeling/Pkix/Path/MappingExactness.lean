import Mathlib.Data.List.Forall2
import Pkix.Path.ConcreteCodec
import Pkix.Path.MappedPolicies

/-! When the expected sets after policy mapping are the sets the mappings name: the code works
its way through the list, so a policy that is mapped to itself and to others may get lost. -/

namespace Pkix.Path

/-- The mappings pair the two policies. -/
def Pairs (mappings : PolicyMappings) (policy subject : ObjectIdentifier) : Prop :=
  ∃ mapping ∈ mappings, mapping.issuerDomainPolicy = policy ∧
    mapping.subjectDomainPolicy = subject

/-- Equal up to the order of the expected set. -/
structure SameNode (a b : PolicyNode) : Prop where
  depth : a.depth = b.depth
  validPolicy : a.validPolicy = b.validPolicy
  qualifiers : a.qualifiers = b.qualifiers
  expected : ∀ policy, policy ∈ a.expectedPolicySet ↔ policy ∈ b.expectedPolicySet

def SameTree (a b : PolicyTree) : Prop :=
  ∃ reordered, a.Perm reordered ∧ List.Forall₂ SameNode reordered b

def untouched (depth : Nat) (mappings : PolicyMappings) (node : PolicyNode) : Bool :=
  !(node.depth == depth && (mappings.map (·.issuerDomainPolicy)).contains node.validPolicy)

/-- Mapped nodes expect just what the mappings pair with their policy, other nodes are as they
were, and only the set of mappings counts. -/
structure MappingsExact (depth policyMapping : Nat) (policies : Option CertificatePolicies)
    (mappings : PolicyMappings) (tree : PolicyTree) : Prop where
  mapped : ∀ node ∈ applyPolicyMappings depth policyMapping policies mappings tree,
    node.depth = depth → IssuerPolicy mappings node.validPolicy →
      ∀ subject, subject ∈ node.expectedPolicySet ↔ Pairs mappings node.validPolicy subject
  others : (applyPolicyMappings depth policyMapping policies mappings tree).filter
      (untouched depth mappings) = tree.filter (untouched depth mappings)
  orderFree : ∀ mappings' : PolicyMappings, (∀ mapping, mapping ∈ mappings' ↔ mapping ∈ mappings) →
    SameTree (applyPolicyMappings depth policyMapping policies mappings' tree)
      (applyPolicyMappings depth policyMapping policies mappings tree)

/-- A policy at hand that is mapped to itself is mapped to nothing else, and no node of the
level expects a policy that the mappings would have to take away. -/
structure MappingsConsistent (depth : Nat) (mappings : PolicyMappings) (tree : PolicyTree) :
    Prop where
  identity : ∀ policy, Reachable depth tree policy → Pairs mappings policy policy →
    ∀ subject, Pairs mappings policy subject → subject = policy
  expected : ∀ node ∈ tree, node.depth = depth → IssuerPolicy mappings node.validPolicy →
    ∀ policy ∈ node.expectedPolicySet,
      policy = node.validPolicy ∨ Pairs mappings node.validPolicy policy

section OneNode

variable {depth : Nat} {mappings : PolicyMappings} {node : PolicyNode}

theorem untouched_iff : untouched depth mappings node = true ↔
    ¬ (node.depth = depth ∧ IssuerPolicy mappings node.validPolicy) := by
  have issuer : (mappings.map (·.issuerDomainPolicy)).contains node.validPolicy = true ↔
      IssuerPolicy mappings node.validPolicy := by
    rw [List.contains_iff_mem, List.mem_map]
    rfl
  rw [untouched, Bool.not_eq_true', ← Bool.not_eq_true, Bool.and_eq_true, beq_iff_eq, issuer]

/-- The last mapping of a policy names the policy exactly when some mapping does, if no other
subject stands beside it. -/
theorem getLast_subjectsOf_iff {policy : ObjectIdentifier}
    (alone : Pairs mappings policy policy →
      ∀ subject, Pairs mappings policy subject → subject = policy) :
    (subjectsOf mappings policy).getLast? = some policy ↔ Pairs mappings policy policy := by
  constructor
  · exact fun last => mem_subjectsOf.mp (List.mem_of_getLast? last)
  · intro itself
    have inside := mem_subjectsOf.mpr itself
    have nonempty : subjectsOf mappings policy ≠ [] := List.ne_nil_of_mem inside
    rw [List.getLast?_eq_some_getLast nonempty]
    have last := mem_subjectsOf.mp (List.getLast_mem nonempty)
    rw [alone itself _ last]

/-- The node expects exactly the subjects of its policy. -/
theorem mem_mappedFrom_iff (lowest : node.depth = depth)
    (issuer : IssuerPolicy mappings node.validPolicy)
    (alone : Pairs mappings node.validPolicy node.validPolicy →
      ∀ subject, Pairs mappings node.validPolicy subject → subject = node.validPolicy)
    (expected : ∀ policy ∈ node.expectedPolicySet,
      policy = node.validPolicy ∨ Pairs mappings node.validPolicy policy)
    (subject : ObjectIdentifier) :
    subject ∈ (mappedFrom depth mappings node).expectedPolicySet ↔
      Pairs mappings node.validPolicy subject := by
  rw [mappedFrom_expected lowest]
  by_cases own : subject = node.validPolicy
  · rw [own, mem_remapAll_own issuer, getLast_subjectsOf_iff alone]
  · rw [mem_remapAll_other mappings own, mem_subjectsOf]
    constructor
    · intro either
      rcases either with before | paired
      · exact (expected subject before).resolve_left own
      · exact paired
    · exact .inr

end OneNode

section Result

variable {depth : Nat} {qualifiers : List PolicyQualifierInfo} {mappings mappings' : PolicyMappings}
variable {tree result result' : PolicyTree} {added added' : List ObjectIdentifier}

theorem exists_of_mem_right {related : PolicyNode → PolicyNode → Prop} {a b : PolicyTree}
    (pairwise : List.Forall₂ related a b) {right : PolicyNode} (member : right ∈ b) :
    ∃ left ∈ a, related left right := by
  induction pairwise with
  | nil => cases member
  | cons head _ ih =>
      rcases List.mem_cons.mp member with here | later
      · rw [here]
        exact ⟨_, List.mem_cons_self, head⟩
      · obtain ⟨left, inside, relates⟩ := ih later
        exact ⟨left, List.mem_cons_of_mem _ inside, relates⟩

theorem MappedTree.mem_iff (mapped : MappedTree depth qualifiers mappings tree added result)
    {node : PolicyNode} :
    node ∈ result ↔ ∃ base ∈ tree ++ added.map (blankNode depth qualifiers),
      mappedFrom depth mappings base = node := by
  rw [mapped.nodes, List.mem_map]

theorem MappedTree.reachable_base
    (mapped : MappedTree depth qualifiers mappings tree added result) {base : PolicyNode}
    (member : base ∈ tree ++ added.map (blankNode depth qualifiers)) (lowest : base.depth = depth) :
    Reachable depth tree base.validPolicy := by
  rcases List.mem_append.mp member with old | new
  · exact .inl ⟨base, old, lowest, rfl⟩
  · obtain ⟨policy, inside, rfl⟩ := List.mem_map.mp new
    exact .inr ((mapped.adds policy).mp inside).2.2

/-- A consistent list gives every mapped node the set it names. -/
theorem MappedTree.mem_expected_iff
    (mapped : MappedTree depth qualifiers mappings tree added result)
    (consistent : MappingsConsistent depth mappings tree) {base : PolicyNode}
    (member : base ∈ tree ++ added.map (blankNode depth qualifiers)) (lowest : base.depth = depth)
    (issuer : IssuerPolicy mappings base.validPolicy) (subject : ObjectIdentifier) :
    subject ∈ (mappedFrom depth mappings base).expectedPolicySet ↔
      Pairs mappings base.validPolicy subject := by
  apply mem_mappedFrom_iff lowest issuer
  · exact consistent.identity base.validPolicy (mapped.reachable_base member lowest)
  · intro policy expected
    rcases List.mem_append.mp member with old | new
    · exact consistent.expected base old lowest issuer policy expected
    · obtain ⟨_, _, rfl⟩ := List.mem_map.mp new
      cases expected

theorem MappedTree.others_eq (mapped : MappedTree depth qualifiers mappings tree added result) :
    result.filter (untouched depth mappings) = tree.filter (untouched depth mappings) := by
  have same (node : PolicyNode) : untouched depth mappings (mappedFrom depth mappings node) =
      untouched depth mappings node := by
    simp [untouched]
  have keeps (node : PolicyNode) (kept : untouched depth mappings node = true) :
      mappedFrom depth mappings node = node :=
    mappedFrom_untouched (untouched_iff.mp kept)
  have none_added : (added.map (blankNode depth qualifiers)).filter (untouched depth mappings) =
      [] := by
    rw [List.filter_eq_nil_iff]
    intro node member
    obtain ⟨policy, inside, rfl⟩ := List.mem_map.mp member
    rw [untouched_iff, not_not]
    exact ⟨rfl, ((mapped.adds policy).mp inside).1⟩
  rw [mapped.nodes, List.filter_map]
  have composed : (untouched depth mappings ∘ mappedFrom depth mappings) =
      untouched depth mappings :=
    funext same
  rw [composed, List.filter_append, none_added, List.append_nil]
  calc
    (tree.filter (untouched depth mappings)).map (mappedFrom depth mappings) =
        (tree.filter (untouched depth mappings)).map id := by
      apply List.map_congr_left
      intro node member
      exact keeps node (List.mem_filter.mp member).2
    _ = tree.filter (untouched depth mappings) := List.map_id _

theorem pairs_congr (same : ∀ mapping, mapping ∈ mappings' ↔ mapping ∈ mappings)
    (policy subject : ObjectIdentifier) :
    Pairs mappings' policy subject ↔ Pairs mappings policy subject := by
  simp [Pairs, same]

theorem issuerPolicy_congr (same : ∀ mapping, mapping ∈ mappings' ↔ mapping ∈ mappings)
    (policy : ObjectIdentifier) : IssuerPolicy mappings' policy ↔ IssuerPolicy mappings policy := by
  simp [IssuerPolicy, same]

theorem MappingsConsistent.congr (consistent : MappingsConsistent depth mappings tree)
    (same : ∀ mapping, mapping ∈ mappings' ↔ mapping ∈ mappings) :
    MappingsConsistent depth mappings' tree := by
  refine ⟨?_, ?_⟩
  · intro policy reachable
    simp only [pairs_congr same]
    exact consistent.identity policy reachable
  · intro node member lowest
    simp only [pairs_congr same, issuerPolicy_congr same]
    exact consistent.expected node member lowest

theorem MappedTree.sameTree (mapped : MappedTree depth qualifiers mappings tree added result)
    (mapped' : MappedTree depth qualifiers mappings' tree added' result')
    (same : ∀ mapping, mapping ∈ mappings' ↔ mapping ∈ mappings)
    (consistent : MappingsConsistent depth mappings tree) : SameTree result' result := by
  have adds_same (policy : ObjectIdentifier) : policy ∈ added' ↔ policy ∈ added := by
    rw [mapped'.adds, mapped.adds, AddsPolicy, AddsPolicy, issuerPolicy_congr same]
  have reorder : added'.Perm added :=
    (List.perm_ext_iff_of_nodup mapped'.distinct mapped.distinct).mpr adds_same
  have reachedBy {base : PolicyNode} (member : base ∈ tree ++ added.map (blankNode depth qualifiers)) :
      base ∈ tree ++ added'.map (blankNode depth qualifiers) :=
    ((reorder.map _).append_left tree).symm.subset member
  refine ⟨(tree ++ added.map (blankNode depth qualifiers)).map (mappedFrom depth mappings'), ?_, ?_⟩
  · rw [mapped'.nodes]
    exact ((reorder.map _).append_left tree).map _
  · rw [mapped.nodes, List.forall₂_map_left_iff, List.forall₂_map_right_iff, List.forall₂_same]
    intro base member
    refine ⟨by simp, by simp, by simp, ?_⟩
    by_cases touched : base.depth = depth ∧ IssuerPolicy mappings base.validPolicy
    · intro policy
      rw [mapped.mem_expected_iff consistent member touched.1 touched.2,
        mapped'.mem_expected_iff (consistent.congr same) (reachedBy member) touched.1
          ((issuerPolicy_congr same _).mpr touched.2), pairs_congr same]
    · have touched' := touched
      rw [← issuerPolicy_congr same] at touched'
      intro policy
      rw [mappedFrom_untouched touched, mappedFrom_untouched touched']

end Result

section Necessity

variable {depth policyMapping : Nat} {policies : Option CertificatePolicies}
variable {mappings : PolicyMappings} {tree : PolicyTree}

theorem applyPolicyMappings_eq (positive : 0 < policyMapping) :
    applyPolicyMappings depth policyMapping policies mappings tree =
      mappings.foldl (applyMapping depth ((policies.map certAnyPolicyQualifiers).getD [])) tree :=
  if_pos positive

/-- A mapping put at the end again decides over the policy's own place in its set. -/
theorem own_lost {mapping : PolicyMapping} {base : PolicyNode} (lowest : base.depth = depth)
    (policy : mapping.issuerDomainPolicy = base.validPolicy)
    (other : mapping.subjectDomainPolicy ≠ base.validPolicy) :
    base.validPolicy ∉ (mappedFrom depth (mappings ++ [mapping]) base).expectedPolicySet := by
  have issuer : IssuerPolicy (mappings ++ [mapping]) base.validPolicy :=
    ⟨mapping, by simp, policy⟩
  rw [mappedFrom_expected lowest, mem_remapAll_own issuer, subjectsOf_append, ← policy,
    subjectsOf_issuer, List.getLast?_concat, Option.some_inj, policy]
  exact other

theorem MappingsExact.identity (positive : 0 < policyMapping)
    (correct : MappingsExact depth policyMapping policies mappings tree)
    (policy : ObjectIdentifier) (reachable : Reachable depth tree policy)
    (itself : Pairs mappings policy policy) (subject : ObjectIdentifier)
    (paired : Pairs mappings policy subject) : subject = policy := by
  by_contra other
  obtain ⟨mapping, member, issuedBy, rfl⟩ := paired
  obtain ⟨added, mapped⟩ := foldl_applyMapping_mapped depth
    ((policies.map certAnyPolicyQualifiers).getD []) mappings tree
  obtain ⟨added', mapped'⟩ := foldl_applyMapping_mapped depth
    ((policies.map certAnyPolicyQualifiers).getD []) (mappings ++ [mapping]) tree
  rw [← applyPolicyMappings_eq positive] at mapped mapped'
  have issuer : IssuerPolicy mappings policy := ⟨mapping, member, issuedBy⟩
  have present : PolicyAt (applyPolicyMappings depth policyMapping policies mappings tree) depth
      policy := by
    rw [mapped.policyAt_iff]
    by_cases inTree : PolicyAt tree depth policy
    · exact .inl inTree
    · exact .inr ⟨issuer, inTree, reachable.resolve_left inTree⟩
  obtain ⟨node, inside, lowest, rfl⟩ := present
  have expects_own := (correct.mapped node inside lowest issuer node.validPolicy).mpr itself
  have again := correct.orderFree (mappings ++ [mapping]) (by
    intro candidate
    rw [List.mem_append, List.mem_singleton]
    exact ⟨fun either => either.elim id (fun same => same ▸ member), .inl⟩)
  obtain ⟨reordered, perm, pairwise⟩ := again
  obtain ⟨node', inside', same⟩ := exists_of_mem_right pairwise inside
  obtain ⟨base, _, image⟩ := mapped'.mem_iff.mp (perm.symm.subset inside')
  have place : base.depth = depth := by
    rw [← @mappedFrom_depth depth (mappings ++ [mapping]) base, image, same.depth, lowest]
  have policies_same : base.validPolicy = node.validPolicy := by
    rw [← @mappedFrom_validPolicy depth (mappings ++ [mapping]) base, image, same.validPolicy]
  rw [← same.expected, ← image, ← policies_same] at expects_own
  rw [← policies_same] at issuedBy other
  exact own_lost place issuedBy other expects_own

theorem MappingsExact.expected (positive : 0 < policyMapping)
    (correct : MappingsExact depth policyMapping policies mappings tree) {node : PolicyNode}
    (member : node ∈ tree) (lowest : node.depth = depth)
    (issuer : IssuerPolicy mappings node.validPolicy) (policy : ObjectIdentifier)
    (expected : policy ∈ node.expectedPolicySet) :
    policy = node.validPolicy ∨ Pairs mappings node.validPolicy policy := by
  by_cases own : policy = node.validPolicy
  · exact .inl own
  · right
    obtain ⟨added, mapped⟩ := foldl_applyMapping_mapped depth
      ((policies.map certAnyPolicyQualifiers).getD []) mappings tree
    rw [← applyPolicyMappings_eq positive] at mapped
    have inside := mapped.mem_iff.mpr ⟨node, List.mem_append_left _ member, rfl⟩
    have named := correct.mapped _ inside (by rw [mappedFrom_depth, lowest])
      (by rwa [mappedFrom_validPolicy]) policy
    rw [mappedFrom_validPolicy] at named
    apply named.mp
    rw [mappedFrom_expected lowest, mem_remapAll_other mappings own]
    exact .inl expected

end Necessity

/-- Policy mapping does what the mappings say just when they are consistent. -/
theorem applyPolicyMappings_exact_iff {depth policyMapping : Nat}
    {policies : Option CertificatePolicies} {mappings : PolicyMappings} {tree : PolicyTree}
    (positive : 0 < policyMapping) :
    MappingsExact depth policyMapping policies mappings tree ↔
      MappingsConsistent depth mappings tree := by
  constructor
  · intro correct
    exact ⟨correct.identity positive, fun _ => correct.expected positive⟩
  · intro consistent
    obtain ⟨added, mapped⟩ := foldl_applyMapping_mapped depth
      ((policies.map certAnyPolicyQualifiers).getD []) mappings tree
    rw [← applyPolicyMappings_eq positive] at mapped
    refine ⟨?_, mapped.others_eq, ?_⟩
    · intro node member lowest issuer subject
      obtain ⟨base, inside, rfl⟩ := mapped.mem_iff.mp member
      rw [mappedFrom_depth] at lowest
      rw [mappedFrom_validPolicy] at issuer ⊢
      exact mapped.mem_expected_iff consistent inside lowest issuer subject
    · intro mappings' same
      obtain ⟨added', mapped'⟩ := foldl_applyMapping_mapped depth
        ((policies.map certAnyPolicyQualifiers).getD []) mappings' tree
      rw [← applyPolicyMappings_eq positive] at mapped'
      exact mapped.sameTree mapped' same consistent

section Walk

variable {depth : Nat} {tree next : PolicyTree}

/-- The nodes a certificate has just made expect their own policy. -/
theorem processPolicies_fresh {mayExpand : Bool} {policies : Option CertificatePolicies}
    (above : ∀ node ∈ tree, node.depth < depth)
    (processed : processPolicies tree depth mayExpand policies = some next) :
    ∀ node ∈ next, node.depth = depth → node.expectedPolicySet = [node.validPolicy] := by
  intro node member lowest
  cases policies with
  | none => cases processed
  | some policies =>
      rw [processPolicies, policyTreePostOpPrune] at processed
      generalize shape : (if 0 < depth then
        prunePolicyTree depth (tree ++ newNodes tree depth mayExpand policies)
        else tree ++ newNodes tree depth mayExpand policies) = pruned at processed
      split at processed
      · cases processed
      · rw [← Option.some.inj processed, ← shape] at member
        have inside : node ∈ tree ++ newNodes tree depth mayExpand policies := by
          split at member
          · exact (mem_prunePolicyTree_iff.mp member).1
          · exact member
        rcases List.mem_append.mp inside with old | new
        · have higher := above node old
          omega
        · exact (newNodes_shape new).2

/-- On such a tree only mappings of a policy to itself and to others are inconsistent. -/
theorem mappingsConsistent_iff_of_fresh {mappings : PolicyMappings}
    (fresh : ∀ node ∈ tree, node.depth = depth → node.expectedPolicySet = [node.validPolicy]) :
    MappingsConsistent depth mappings tree ↔
      ∀ policy, Reachable depth tree policy → Pairs mappings policy policy →
        ∀ subject, Pairs mappings policy subject → subject = policy := by
  constructor
  · exact fun consistent => consistent.identity
  · intro identity
    refine ⟨identity, ?_⟩
    intro node member lowest _ policy expected
    rw [fresh node member lowest] at expected
    exact .inl (List.mem_singleton.mp expected)

end Walk

namespace Concrete

def mappedLevel : PolicyTree := [rootNode, freshNode 1 (testPolicy 1) []]

/-- A policy mapped to two others. -/
def twoSubjects : PolicyMappings :=
  [⟨testPolicy 1, testPolicy 2⟩, ⟨testPolicy 1, testPolicy 3⟩]

/-- A policy mapped to itself and then to another. -/
def itselfFirst : PolicyMappings :=
  [⟨testPolicy 1, testPolicy 1⟩, ⟨testPolicy 1, testPolicy 2⟩]

theorem twoSubjects_exact : MappingsExact 1 1 none twoSubjects mappedLevel := by
  apply (applyPolicyMappings_exact_iff (by decide)).mpr
  have subjects (policy subject : ObjectIdentifier) (paired : Pairs twoSubjects policy subject) :
      policy = testPolicy 1 ∧ subject ≠ testPolicy 1 := by
    obtain ⟨mapping, member, rfl, rfl⟩ := paired
    revert mapping
    decide
  apply (mappingsConsistent_iff_of_fresh (by decide)).mpr
  intro policy _ itself
  have apart := subjects policy policy itself
  exact absurd apart.1 apart.2

/-- The policy's own place is lost to the mapping behind it. -/
theorem itselfFirst_lost :
    applyPolicyMappings 1 1 none itselfFirst mappedLevel =
        [rootNode, { freshNode 1 (testPolicy 1) [] with expectedPolicySet := [testPolicy 2] }] ∧
      ¬ MappingsExact 1 1 none itselfFirst mappedLevel := by
  have result : applyPolicyMappings 1 1 none itselfFirst mappedLevel =
      [rootNode, { freshNode 1 (testPolicy 1) [] with expectedPolicySet := [testPolicy 2] }] := by
    decide +kernel
  refine ⟨result, ?_⟩
  intro correct
  have member := correct.mapped { freshNode 1 (testPolicy 1) [] with
    expectedPolicySet := [testPolicy 2] } (by rw [result]; decide) rfl
    ⟨_, List.mem_cons_self, rfl⟩ (testPolicy 1)
  have present := member.mpr ⟨_, List.mem_cons_self, rfl, rfl⟩
  revert present
  decide

end Concrete

end Pkix.Path
