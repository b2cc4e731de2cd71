import Mathlib.Data.List.Dedup
import Mathlib.Data.List.Nodup
import Pkix.Path.ConcreteCodec
import Pkix.Path.PolicyPaths

/-! How many nodes a policy tree has: one for each depth and policy as long as the
mappings keep the policies of a level apart. -/

namespace Pkix.Path

def nodeKey (node : PolicyNode) : Nat × ObjectIdentifier := (node.depth, node.validPolicy)

/-- At most one node for each depth and policy. -/
def UniqueNodes (tree : PolicyTree) : Prop := (tree.map nodeKey).Nodup

def nodesAt (tree : PolicyTree) (depth : Nat) : PolicyTree :=
  tree.filter (fun node => node.depth == depth)

/-- A tree with unique nodes whose policies and expected policies are among those given. -/
structure Compact (named : List ObjectIdentifier) (tree : PolicyTree) : Prop where
  unique : UniqueNodes tree
  root : ∀ node ∈ tree, node.depth = 0 → node.validPolicy = oidAnyPolicy
  rootExpects : ∀ node ∈ tree, node.depth = 0 → node.expectedPolicySet = [oidAnyPolicy]
  expectsOnce : ∀ node ∈ tree, node.expectedPolicySet.Nodup
  policies : ∀ node ∈ tree, 0 < node.depth → node.validPolicy ∈ named
  expected : ∀ node ∈ tree, 0 < node.depth → ∀ policy ∈ node.expectedPolicySet, policy ∈ named

section Shape

variable {named larger : List ObjectIdentifier} {tree : PolicyTree} {depth : Nat}

theorem mem_nodesAt {node : PolicyNode} :
    node ∈ nodesAt tree depth ↔ node ∈ tree ∧ node.depth = depth := by
  rw [nodesAt, List.mem_filter, beq_iff_eq]

theorem compact_init : Compact named initPolicyTree := by
  have notInner {node : PolicyNode} (member : node ∈ initPolicyTree) : ¬0 < node.depth := by
    rw [mem_initPolicyTree.mp member]
    exact Nat.lt_irrefl 0
  refine ⟨List.nodup_singleton _, ?_, ?_, ?_, ?_, ?_⟩
  · intro node member _
    rw [mem_initPolicyTree.mp member]
    rfl
  · intro node member _
    rw [mem_initPolicyTree.mp member]
    rfl
  · intro node member
    rw [mem_initPolicyTree.mp member]
    exact List.nodup_singleton _
  · exact fun node member inner => absurd inner (notInner member)
  · exact fun node member inner => absurd inner (notInner member)

/-- Deletions keep a tree compact. -/
theorem Compact.sublist (compact : Compact named tree) {kept : PolicyTree}
    (sublist : kept.Sublist tree) : Compact named kept where
  unique := List.Nodup.sublist (sublist.map nodeKey) compact.unique
  root node member := compact.root node (sublist.subset member)
  rootExpects node member := compact.rootExpects node (sublist.subset member)
  expectsOnce node member := compact.expectsOnce node (sublist.subset member)
  policies node member := compact.policies node (sublist.subset member)
  expected node member := compact.expected node (sublist.subset member)

theorem Compact.widen (compact : Compact named tree) (included : named ⊆ larger) :
    Compact larger tree where
  unique := compact.unique
  root := compact.root
  rootExpects := compact.rootExpects
  expectsOnce := compact.expectsOnce
  policies node member inner := included (compact.policies node member inner)
  expected node member inner policy wanted :=
    included (compact.expected node member inner policy wanted)

theorem prunePolicyTree_sublist (bottom : Nat) (tree : PolicyTree) :
    (prunePolicyTree bottom tree).Sublist tree := by
  induction bottom generalizing tree with
  | zero => exact List.Sublist.refl tree
  | succ level ih =>
      rw [prunePolicyTree]
      split
      · exact List.Sublist.refl tree
      · exact (ih _).trans List.filter_sublist

theorem cascadeDelete_sublist (level count : Nat) (tree : PolicyTree) :
    (cascadeDelete level count tree).Sublist tree := by
  induction count generalizing level tree with
  | zero => exact List.Sublist.refl tree
  | succ count ih => exact (ih _ _).trans List.filter_sublist

theorem deleteOutOfSet_sublist (depth : Nat) (userSet : List ObjectIdentifier) :
    (deleteOutOfSet tree userSet depth).Sublist tree := by
  unfold deleteOutOfSet
  dsimp only
  split
  · exact List.Sublist.refl tree
  · exact (cascadeDelete_sublist _ _ _).trans List.filter_sublist

theorem policyTreePostOpPrune_sublist {next : PolicyTree}
    (pruned : policyTreePostOpPrune tree depth = some next) : next.Sublist tree := by
  have test {pruned : PolicyTree}
      (kept : (if policyTreeIsNull pruned then none else some pruned) = some next) :
      next = pruned := by
    split at kept
    · cases kept
    · exact (Option.some.inj kept).symm
  unfold policyTreePostOpPrune at pruned
  rw [test pruned]
  split
  · exact prunePolicyTree_sublist depth tree
  · exact List.Sublist.refl tree

/-- Every level of a compact tree is as large as its policies are many. -/
theorem Compact.nodesAt_le (compact : Compact named tree) (inhabited : named ≠ [])
    (depth : Nat) : (nodesAt tree depth).length ≤ named.dedup.length := by
  have keys : ((nodesAt tree depth).map nodeKey).Nodup :=
    List.Nodup.sublist (List.filter_sublist.map nodeKey) compact.unique
  have distinct : ((nodesAt tree depth).map (·.validPolicy)).Nodup := by
    apply List.Nodup.of_map (fun policy => (depth, policy))
    have same : ((nodesAt tree depth).map (·.validPolicy)).map (fun policy => (depth, policy)) =
        (nodesAt tree depth).map nodeKey := by
      rw [List.map_map]
      apply List.map_congr_left
      intro node member
      show (depth, node.validPolicy) = (node.depth, node.validPolicy)
      rw [(mem_nodesAt.mp member).2]
    rw [same]
    exact keys
  by_cases top : depth = 0
  · have single : ((nodesAt tree depth).map (·.validPolicy)).length ≤ [oidAnyPolicy].length := by
      apply distinct.length_le_of_subset
      intro policy member
      obtain ⟨node, inside, rfl⟩ := List.mem_map.mp member
      obtain ⟨present, place⟩ := mem_nodesAt.mp inside
      rw [compact.root node present (place.trans top)]
      exact List.mem_singleton.mpr rfl
    rw [List.length_map] at single
    obtain ⟨policy, member⟩ := List.exists_mem_of_ne_nil _ inhabited
    have positive := List.length_pos_of_mem (List.mem_dedup.mpr member)
    exact Nat.le_trans single positive
  · have bound : ((nodesAt tree depth).map (·.validPolicy)).length ≤ named.dedup.length := by
      apply distinct.length_le_of_subset
      intro policy member
      obtain ⟨node, inside, rfl⟩ := List.mem_map.mp member
      obtain ⟨present, place⟩ := mem_nodesAt.mp inside
      exact List.mem_dedup.mpr (compact.policies node present (by omega))
    rw [List.length_map] at bound
    exact bound

end Shape

section Create

variable {named : List ObjectIdentifier} {tree : PolicyTree} {depth : Nat}

/-- Nodes of the level that expect a common policy have the same policy. -/
def LevelApart (tree : PolicyTree) (depth : Nat) : Prop :=
  ∀ first ∈ tree, ∀ second ∈ tree, first.depth = depth → second.depth = depth →
    ∀ policy, policy ∈ first.expectedPolicySet → policy ∈ second.expectedPolicySet →
      first.validPolicy = second.validPolicy

theorem UniqueNodes.expecting_le (unique : UniqueNodes tree) (apart : LevelApart tree depth)
    (policy : ObjectIdentifier) :
    (tree.filter (fun parent => parent.depth == depth &&
      parent.expectedPolicySet.contains policy)).length ≤ 1 := by
  have inside {node : PolicyNode} (member : node ∈ tree.filter (fun parent =>
      parent.depth == depth && parent.expectedPolicySet.contains policy)) :
      node ∈ tree ∧ node.depth = depth ∧ policy ∈ node.expectedPolicySet := by
    rw [List.mem_filter, Bool.and_eq_true, beq_iff_eq, List.contains_iff_mem] at member
    exact member
  have keys : ((tree.filter (fun parent => parent.depth == depth &&
      parent.expectedPolicySet.contains policy)).map nodeKey).Nodup :=
    List.Nodup.sublist (List.filter_sublist.map nodeKey) unique
  cases parents : tree.filter (fun parent => parent.depth == depth &&
      parent.expectedPolicySet.contains policy) with
  | nil => exact Nat.zero_le 1
  | cons first rest =>
      cases rest with
      | nil => exact Nat.le_refl 1
      | cons second others =>
          rw [parents] at keys inside
          obtain ⟨firstIn, firstPlace, firstExpects⟩ := inside List.mem_cons_self
          obtain ⟨secondIn, secondPlace, secondExpects⟩ :=
            inside (List.mem_cons_of_mem _ List.mem_cons_self)
          have same := apart first firstIn second secondIn firstPlace secondPlace policy
            firstExpects secondExpects
          have equal : nodeKey first = nodeKey second := by
            unfold nodeKey
            rw [firstPlace, secondPlace, same]
          have fresh := (List.nodup_cons.mp keys).1
          rw [equal] at fresh
          exact absurd List.mem_cons_self fresh

/-- A specific entry of a certificate makes one node at most. -/
theorem specificChildren_sublist (unique : UniqueNodes tree) (apart : LevelApart tree depth)
    (information : PolicyInformation) :
    ((specificChildren tree (depth + 1) information).map (·.validPolicy)).Sublist
      [information.policyIdentifier] := by
  unfold specificChildren
  split
  · exact List.nil_sublist _
  · dsimp only
    rw [Nat.add_sub_cancel]
    split
    · split
      · exact List.Sublist.refl _
      · exact List.nil_sublist _
    · have one := unique.expecting_le apart information.policyIdentifier
      rw [List.map_map]
      show ((tree.filter _).map (fun _ => information.policyIdentifier)).Sublist _
      rw [List.map_const']
      exact List.replicate_sublist_replicate (n := 1) information.policyIdentifier |>.mpr one

theorem specific_sublist (unique : UniqueNodes tree) (apart : LevelApart tree depth)
    (policies : CertificatePolicies) :
    ((policies.flatMap (specificChildren tree (depth + 1))).map (·.validPolicy)).Sublist
      (policies.map (·.policyIdentifier)) := by
  induction policies with
  | nil => exact List.Sublist.refl _
  | cons information rest ih =>
      rw [List.flatMap_cons, List.map_append, List.map_cons]
      exact (specificChildren_sublist unique apart information).append ih

theorem expanded_nodup (compact : Compact named tree) (apart : LevelApart tree depth)
    (covered : List ObjectIdentifier) (qualifiers : List PolicyQualifierInfo) :
    ((expandedChildren tree (depth + 1) covered qualifiers).map (·.validPolicy)).Nodup := by
  have same : (expandedChildren tree (depth + 1) covered qualifiers).map (·.validPolicy) =
      (nodesAt tree depth).flatMap (fun parent =>
        parent.expectedPolicySet.filter (fun policy => !covered.contains policy)) := by
    unfold expandedChildren nodesAt
    rw [List.map_flatMap, Nat.add_sub_cancel]
    simp only [List.map_map]
    congr 1
    funext parent
    exact List.map_id' _
  have keys : (nodesAt tree depth).Pairwise (fun first second =>
      nodeKey first ≠ nodeKey second) :=
    List.pairwise_map.mp (List.Nodup.sublist (List.filter_sublist.map nodeKey) compact.unique)
  rw [same, List.nodup_flatMap]
  constructor
  · intro parent member
    exact (compact.expectsOnce parent (mem_nodesAt.mp member).1).filter _
  · apply List.Pairwise.imp_of_mem _ keys
    intro first second firstMember secondMember different policy firstHas secondHas
    obtain ⟨firstIn, firstPlace⟩ := mem_nodesAt.mp firstMember
    obtain ⟨secondIn, secondPlace⟩ := mem_nodesAt.mp secondMember
    apply different
    have equal := apart first firstIn second secondIn firstPlace secondPlace policy
      (List.mem_filter.mp firstHas).1 (List.mem_filter.mp secondHas).1
    unfold nodeKey
    rw [firstPlace, secondPlace, equal]

theorem newNodes_nodup (compact : Compact named tree) (apart : LevelApart tree depth)
    {mayExpand : Bool} {policies : CertificatePolicies}
    (once : (policies.map (·.policyIdentifier)).Nodup) :
    ((newNodes tree (depth + 1) mayExpand policies).map (·.validPolicy)).Nodup := by
  have specific := List.Nodup.sublist (specific_sublist compact.unique apart policies) once
  unfold newNodes
  dsimp only
  split
  · rw [List.map_append]
    refine List.Nodup.append specific (expanded_nodup compact apart _ _) ?_
    intro policy covered expanded
    obtain ⟨node, member, rfl⟩ := List.mem_map.mp expanded
    obtain ⟨wanted, _, uncovered, rfl⟩ := mem_expandedChildren_iff.mp member
    exact uncovered covered
  · exact specific

end Create

section Steps

variable {named : List ObjectIdentifier} {tree : PolicyTree} {depth : Nat}

/-- Nodes of a level the tree does not have yet. -/
theorem UniqueNodes.append (unique : UniqueNodes tree) {added : PolicyTree} {level : Nat}
    (placed : ∀ node ∈ added, node.depth = level)
    (distinct : (added.map (·.validPolicy)).Nodup)
    (fresh : ∀ node ∈ added, ¬PolicyAt tree level node.validPolicy) :
    UniqueNodes (tree ++ added) := by
  unfold UniqueNodes
  rw [List.map_append]
  refine List.Nodup.append unique ?_ ?_
  · have keys : added.map nodeKey = (added.map (·.validPolicy)).map (fun policy =>
        (level, policy)) := by
      rw [List.map_map]
      apply List.map_congr_left
      intro node member
      show (node.depth, node.validPolicy) = (level, node.validPolicy)
      rw [placed node member]
    rw [keys]
    exact distinct.map fun first second same => (Prod.mk.inj same).2
  · intro key old new
    obtain ⟨node, inside, rfl⟩ := List.mem_map.mp new
    obtain ⟨other, present, same⟩ := List.mem_map.mp old
    have parts := Prod.mk.inj same
    exact fresh node inside ⟨other, present, parts.1.trans (placed node inside), parts.2⟩

theorem Compact.append (compact : Compact named tree) {added : PolicyTree} {level : Nat}
    (positive : 0 < level) (placed : ∀ node ∈ added, node.depth = level)
    (distinct : (added.map (·.validPolicy)).Nodup)
    (fresh : ∀ node ∈ added, ¬PolicyAt tree level node.validPolicy)
    (once : ∀ node ∈ added, node.expectedPolicySet.Nodup)
    (policies : ∀ node ∈ added, node.validPolicy ∈ named)
    (expected : ∀ node ∈ added, ∀ policy ∈ node.expectedPolicySet, policy ∈ named) :
    Compact named (tree ++ added) := by
  have inner {node : PolicyNode} (new : node ∈ added) : node.depth ≠ 0 := by
    rw [placed node new]
    omega
  refine ⟨compact.unique.append placed distinct fresh, ?_, ?_, ?_, ?_, ?_⟩
  · intro node member top
    rcases List.mem_append.mp member with old | new
    · exact compact.root node old top
    · exact absurd top (inner new)
  · intro node member top
    rcases List.mem_append.mp member with old | new
    · exact compact.rootExpects node old top
    · exact absurd top (inner new)
  · intro node member
    rcases List.mem_append.mp member with old | new
    · exact compact.expectsOnce node old
    · exact once node new
  · intro node member deep
    rcases List.mem_append.mp member with old | new
    · exact compact.policies node old deep
    · exact policies node new
  · intro node member deep
    rcases List.mem_append.mp member with old | new
    · exact compact.expected node old deep
    · exact expected node new

/-- A certificate that lists no policy twice keeps the tree compact. -/
theorem Compact.grow (compact : Compact named tree) (bounded : ∀ node ∈ tree, node.depth ≤ depth)
    (apart : LevelApart tree depth) (mayExpand : Bool) {policies : CertificatePolicies}
    (once : (policies.map (·.policyIdentifier)).Nodup)
    (listed : ∀ policy, lists policies policy → policy ∈ named) :
    Compact named (tree ++ newNodes tree (depth + 1) mayExpand policies) := by
  have origin {node : PolicyNode} (new : node ∈ newNodes tree (depth + 1) mayExpand policies) :
      node.validPolicy ∈ named := by
    have source := newNodes_policy_iff.mp ⟨node, new, rfl⟩
    rw [Nat.add_sub_cancel] at source
    rcases source with ⟨_, own, _⟩ | ⟨anyListed, _, parent, inside, place, expected⟩
    · exact listed _ own
    · by_cases top : parent.depth = 0
      · rw [compact.rootExpects parent inside top, List.mem_singleton] at expected
        rw [expected]
        exact listed _ anyListed
      · exact compact.expected parent inside (by omega) _ expected
  apply compact.append (Nat.succ_pos depth) (fun node new => (newNodes_shape new).1)
    (newNodes_nodup compact apart once)
  · rintro node _ ⟨old, inside, place, _⟩
    have limit := bounded old inside
    omega
  · intro node new
    rw [(newNodes_shape new).2]
    exact List.nodup_singleton _
  · exact fun node new => origin new
  · intro node new policy expected
    rw [(newNodes_shape new).2] at expected
    rw [List.mem_singleton.mp expected]
    exact origin new

theorem remap_nodup {policy : ObjectIdentifier} {expected : List ObjectIdentifier}
    {mapping : PolicyMapping} (once : expected.Nodup) : (remap policy expected mapping).Nodup := by
  unfold remap
  split
  · dsimp only
    split
    · exact once.filter _
    · rename_i absent
      rw [List.contains_iff_mem] at absent
      rw [← List.concat_eq_append]
      exact (once.filter _).concat absent
  · exact once

theorem Compact.expectMapped (compact : Compact named tree) (inner : 0 < depth)
    {mapping : PolicyMapping} (subjectNamed : mapping.subjectDomainPolicy ∈ named) :
    Compact named (tree.map (expectMapped depth mapping)) := by
  have image {node : PolicyNode} (member : node ∈ tree.map (Path.expectMapped depth mapping)) :
      ∃ old ∈ tree, Path.expectMapped depth mapping old = node := List.mem_map.mp member
  refine ⟨?_, ?_, ?_, ?_, ?_, ?_⟩
  · have keys : (tree.map (Path.expectMapped depth mapping)).map nodeKey = tree.map nodeKey := by
      rw [List.map_map]
      apply List.map_congr_left
      intro node _
      show ((Path.expectMapped depth mapping node).depth,
        (Path.expectMapped depth mapping node).validPolicy) = _
      rw [expectMapped_depth, expectMapped_validPolicy]
      rfl
    unfold UniqueNodes
    rw [keys]
    exact compact.unique
  · intro node member top
    rcases image member with ⟨old, inside, rfl⟩
    rw [expectMapped_depth] at top
    rw [expectMapped_validPolicy]
    exact compact.root old inside top
  · intro node member top
    rcases image member with ⟨old, inside, rfl⟩
    rw [expectMapped_depth] at top
    rw [expectMapped_of_ne (by omega)]
    exact compact.rootExpects old inside top
  · intro node member
    rcases image member with ⟨old, inside, rfl⟩
    by_cases place : old.depth = depth
    · rw [expectMapped_expected place]
      exact remap_nodup (compact.expectsOnce old inside)
    · rw [expectMapped_of_ne (fun both => place both.1)]
      exact compact.expectsOnce old inside
  · intro node member positive
    rcases image member with ⟨old, inside, rfl⟩
    rw [expectMapped_depth] at positive
    rw [expectMapped_validPolicy]
    exact compact.policies old inside positive
  · intro node member positive policy expected
    rcases image member with ⟨old, inside, rfl⟩
    rw [expectMapped_depth] at positive
    rcases mem_expectMapped expected with kept | added
    · exact compact.expected old inside positive policy kept
    · rw [added]
      exact subjectNamed

theorem Compact.applyMapping (compact : Compact named tree) (inner : 0 < depth)
    (qualifiers : List PolicyQualifierInfo) {mapping : PolicyMapping}
    (issuerNamed : mapping.issuerDomainPolicy ∈ named)
    (subjectNamed : mapping.subjectDomainPolicy ∈ named) :
    Compact named (applyMapping depth qualifiers tree mapping) := by
  rcases applyMapping_cases depth qualifiers tree mapping with
    ⟨_, result⟩ | ⟨missing, _, result⟩ | ⟨_, _, result⟩
  · rw [result]
    exact compact.expectMapped inner subjectNamed
  · rw [result]
    apply compact.append inner
    · intro node new
      rw [List.mem_singleton.mp new]
      rfl
    · exact List.nodup_singleton _
    · intro node new
      rw [List.mem_singleton.mp new]
      exact missing
    · intro node new
      rw [List.mem_singleton.mp new]
      exact List.nodup_singleton _
    · intro node new
      rw [List.mem_singleton.mp new]
      exact issuerNamed
    · intro node new policy expected
      rw [List.mem_singleton.mp new] at expected
      rw [List.mem_singleton.mp expected]
      exact subjectNamed
  · rw [result]
    exact compact

theorem Compact.foldl_applyMapping (inner : 0 < depth) (qualifiers : List PolicyQualifierInfo)
    (mappings : PolicyMappings)
    (mapped : ∀ mapping ∈ mappings,
      mapping.issuerDomainPolicy ∈ named ∧ mapping.subjectDomainPolicy ∈ named)
    (compact : Compact named tree) :
    Compact named (mappings.foldl (Path.applyMapping depth qualifiers) tree) := by
  induction mappings generalizing tree with
  | nil => exact compact
  | cons mapping mappings ih =>
      have head := mapped mapping List.mem_cons_self
      exact ih (fun other member => mapped other (List.mem_cons_of_mem _ member))
        (compact.applyMapping inner qualifiers head.1 head.2)

theorem Compact.applyPolicyMappings (compact : Compact named tree) (inner : 0 < depth)
    {policyMapping : Nat} {policies : Option CertificatePolicies} {mappings : PolicyMappings}
    (mapped : ∀ mapping ∈ mappings,
      mapping.issuerDomainPolicy ∈ named ∧ mapping.subjectDomainPolicy ∈ named) :
    Compact named (applyPolicyMappings depth policyMapping policies mappings tree) := by
  have deleted : (deleteMapped depth mappings tree).Sublist tree := List.filter_sublist
  unfold Path.applyPolicyMappings
  split
  · exact compact.foldl_applyMapping inner _ mappings mapped
  · exact compact.sublist ((prunePolicyTree_sublist depth _).trans deleted)

theorem Compact.materialise (compact : Compact named tree) (inner : 0 < depth)
    {userSet : List ObjectIdentifier} (once : userSet.Nodup) (included : userSet ⊆ named) :
    Compact named (materialiseLeaves tree userSet depth) := by
  unfold materialiseLeaves
  split
  · exact compact
  · rename_i leafAny found
    dsimp only
    refine Compact.sublist ?_ List.filter_sublist
    have shape {node : PolicyNode} (new : node ∈ (userSet.filter (fun policy =>
        !((tree.filter (fun node => node.depth == depth)).map (·.validPolicy)).contains
          policy)).map (fun policy => freshNode depth policy leafAny.qualifiers)) :
        node.depth = depth ∧ node.expectedPolicySet = [node.validPolicy] ∧
          node.validPolicy ∈ userSet ∧ ¬PolicyAt tree depth node.validPolicy := by
      obtain ⟨policy, kept, rfl⟩ := List.mem_map.mp new
      obtain ⟨wanted, absent⟩ := List.mem_filter.mp kept
      refine ⟨rfl, rfl, wanted, ?_⟩
      rintro ⟨node, member, place, same⟩
      rw [Bool.not_eq_true', ← Bool.not_eq_true, List.contains_iff_mem] at absent
      apply absent
      exact List.mem_map.mpr ⟨node, List.mem_filter.mpr ⟨member, beq_iff_eq.mpr place⟩, same⟩
    apply compact.append inner (fun node new => (shape new).1)
    · rw [List.map_map]
      show ((userSet.filter _).map (fun policy => policy)).Nodup
      rw [List.map_id']
      exact once.filter _
    · exact fun node new => (shape new).2.2.2
    · intro node new
      rw [(shape new).2.1]
      exact List.nodup_singleton _
    · exact fun node new => included (shape new).2.2.1
    · intro node new policy expected
      rw [(shape new).2.1] at expected
      rw [List.mem_singleton.mp expected]
      exact included (shape new).2.2.1

end Steps

section Conditions

variable (der : DerCodec) (policy : ValidationPolicy) (chain : List Certificate)

/-- The policies that the certificates list or map. -/
def policyOids : List ObjectIdentifier :=
  chain.flatMap (fun cert =>
    ((listedPolicies der cert).getD []).map (·.policyIdentifier) ++
      ((certMappings der cert).getD []).flatMap (fun mapping =>
        [mapping.issuerDomainPolicy, mapping.subjectDomainPolicy]))

def ListsOnce : Prop :=
  ∀ cert ∈ chain, ∀ policies, listedPolicies der cert = some policies →
    (policies.map (·.policyIdentifier)).Nodup

/-- After the mappings of a CA no policy is expected of two policies of its level. -/
def MappingsApart : Prop :=
  ∀ index first second wanted,
    Holds der chain.length (initialCounters policy chain) (chain.drop (index + 1)) first →
    Holds der chain.length (initialCounters policy chain) (chain.drop (index + 1)) second →
    wanted ∈ expectedUnder der (initialCounters policy chain) (chain.drop (index + 1)) first →
    wanted ∈ expectedUnder der (initialCounters policy chain) (chain.drop (index + 1)) second →
    first = second

/-- The trees of the loop from an anchor: after the policies of a certificate, after its
mappings, and after each iteration. -/
inductive LoopTree (verifier : SignatureVerifier) (anchor : TrustAnchor) : PolicyTree → Prop
  | policies {above below : List Certificate} {cert : Certificate} {state : WorkingState}
      {policies : Option CertificatePolicies} {tree : PolicyTree}
      (reached : Walk.Reached (certStep der policy verifier chain) chain.reverse
        (initialState policy chain anchor) above (cert :: below) state)
      (decoded : certPolicies der cert below.length = .ok policies)
      (current : (processCertPolicies cert below.length (chain.length - below.length) policies
        state.policies).policyTree = some tree) : LoopTree verifier anchor tree
  | mappings {above below : List Certificate} {cert : Certificate} {state : WorkingState}
      {policies : Option CertificatePolicies} {mappings : Option PolicyMappings}
      {tree : PolicyTree}
      (reached : Walk.Reached (certStep der policy verifier chain) chain.reverse
        (initialState policy chain anchor) above (cert :: below) state)
      (decoded : certPolicies der cert below.length = .ok policies)
      (found : tryFindCertExt der.policyMappings cert oidPolicyMappings below.length =
        .ok mappings)
      (mapped : mapPolicies below.length (chain.length - below.length) policies mappings
        (processCertPolicies cert below.length (chain.length - below.length) policies
          state.policies) = .ok (some tree)) : LoopTree verifier anchor tree
  | iteration {above below : List Certificate} {state : WorkingState} {tree : PolicyTree}
      (reached : Walk.Reached (certStep der policy verifier chain) chain.reverse
        (initialState policy chain anchor) above below state)
      (started : above ≠ []) (current : state.policies.policyTree = some tree) :
      LoopTree verifier anchor tree

end Conditions

section Run

variable {der : DerCodec} {policy : ValidationPolicy} {chain lower above : List Certificate}
variable {cert : Certificate}

theorem listed_mem_policyOids {policies : CertificatePolicies} (member : cert ∈ chain)
    (listed : listedPolicies der cert = some policies) {wanted : ObjectIdentifier}
    (own : lists policies wanted) : wanted ∈ policyOids der chain := by
  obtain ⟨information, inside, rfl⟩ := own
  refine List.mem_flatMap.mpr ⟨cert, member, List.mem_append_left _ ?_⟩
  rw [listed]
  exact List.mem_map_of_mem inside

theorem mapped_mem_policyOids {mappings : PolicyMappings} (member : cert ∈ chain)
    (found : certMappings der cert = some mappings) :
    ∀ mapping ∈ mappings, mapping.issuerDomainPolicy ∈ policyOids der chain ∧
      mapping.subjectDomainPolicy ∈ policyOids der chain := by
  intro mapping inside
  have both (wanted : ObjectIdentifier)
      (own : wanted ∈ [mapping.issuerDomainPolicy, mapping.subjectDomainPolicy]) :
      wanted ∈ policyOids der chain := by
    refine List.mem_flatMap.mpr ⟨cert, member, List.mem_append_right _ ?_⟩
    rw [found]
    exact List.mem_flatMap.mpr ⟨mapping, inside, own⟩
  exact ⟨both _ List.mem_cons_self, both _ (List.mem_cons_of_mem _ List.mem_cons_self)⟩

theorem levelApart_of_mappings (apart : MappingsApart der policy chain)
    (split : chain = lower ++ cert :: above) {tree : PolicyTree}
    (levels : LevelsUnder der chain.length (initialCounters policy chain) above (some tree)) :
    LevelApart tree above.length := by
  have rest : chain.drop (lower.length + 1) = above := by
    rw [split, ← List.drop_drop, List.drop_left]
    rfl
  have separate := apart lower.length
  rw [rest] at separate
  intro first firstIn second secondIn firstPlace secondPlace wanted firstExpects secondExpects
  rw [levelsUnder_lowestExpects levels firstIn firstPlace] at firstExpects
  rw [levelsUnder_lowestExpects levels secondIn secondPlace] at secondExpects
  have firstHeld := (levelsUnder_lowest levels).mp ⟨first, firstIn, firstPlace, rfl⟩
  have secondHeld := (levelsUnder_lowest levels).mp ⟨second, secondIn, secondPlace, rfl⟩
  exact separate first.validPolicy second.validPolicy wanted firstHeld secondHeld firstExpects
    secondExpects

/-- The policies of a certificate keep the tree compact and make it name a policy. -/
theorem compact_processed (once : ListsOnce der chain) (apart : MappingsApart der policy chain)
    (split : chain = lower ++ cert :: above)
    (allowed : ∀ other ∈ above, MappingsAllowed der other)
    (compact : ∀ tree,
      (policiesUnder der chain.length (initialPolicyState policy chain) above).policyTree =
        some tree → Compact (policyOids der chain) tree)
    {tree : PolicyTree} {index : Nat}
    (grown : (processed der cert index (above.length + 1)
      (policiesUnder der chain.length (initialPolicyState policy chain) above)).policyTree =
        some tree) :
    Compact (policyOids der chain) tree ∧ policyOids der chain ≠ [] := by
  have member : cert ∈ chain := by
    rw [split]
    exact List.mem_append_right _ List.mem_cons_self
  obtain ⟨before, current, created⟩ := Option.bind_eq_some_iff.mp grown
  have levels : LevelsUnder der chain.length (initialCounters policy chain) above
      (policiesUnder der chain.length (initialPolicyState policy chain) above).policyTree :=
    levels_policiesUnder rfl above allowed
  rw [current] at levels
  have leveled := levelsUnder_leveled levels
  obtain ⟨policies, listed, _, next⟩ := leveled_processPolicies leveled created
  rw [listed] at created
  have wide := (compact before current).grow leveled.bounded
    (levelApart_of_mappings apart split levels)
    (mayExpandAnyPolicy cert index
      (policiesUnder der chain.length (initialPolicyState policy chain) above).counters.inhibitAny)
    (once cert member policies listed)
    (fun wanted own => listed_mem_policyOids member listed own)
  have kept := wide.sublist (policyTreePostOpPrune_sublist created)
  obtain ⟨lowest, inside, place⟩ := next.lowest
  exact ⟨kept, List.ne_nil_of_mem (kept.policies lowest inside (by omega))⟩

theorem compact_mapped (split : chain = lower ++ cert :: above) {mappings : PolicyMappings}
    (found : certMappings der cert = some mappings) {tree : PolicyTree} {depth : Nat}
    (inner : 0 < depth) {policyMapping : Nat} {policies : Option CertificatePolicies}
    (compact : Compact (policyOids der chain) tree) :
    Compact (policyOids der chain)
      (applyPolicyMappings depth policyMapping policies mappings tree) := by
  have member : cert ∈ chain := by
    rw [split]
    exact List.mem_append_right _ List.mem_cons_self
  exact compact.applyPolicyMappings inner (mapped_mem_policyOids member found)

theorem compact_collapsed (split : chain = lower ++ cert :: above) {depth : Nat}
    (inner : 0 < depth) {state : PolicyState} {named : Prop}
    (compact : ∀ tree, state.policyTree = some tree →
      Compact (policyOids der chain) tree ∧ named)
    {tree : PolicyTree} (collapsed : collapseNullTree (mappedTree der cert depth state) = some tree) :
    Compact (policyOids der chain) tree ∧ named := by
  obtain ⟨mapped, applied, kept⟩ := Option.bind_eq_some_iff.mp collapsed
  have smaller := policyTreePostOpPrune_sublist kept
  unfold mappedTree at applied
  cases found : certMappings der cert with
  | none =>
      rw [found] at applied
      obtain ⟨wide, named⟩ := compact mapped applied
      exact ⟨wide.sublist smaller, named⟩
  | some mappings =>
      rw [found] at applied
      obtain ⟨before, current, rfl⟩ := Option.map_eq_some_iff.mp applied
      obtain ⟨wide, named⟩ := compact before current
      exact ⟨(compact_mapped split found inner wide).sublist smaller, named⟩

/-- The run lemma: the trees under the certificates above a position are compact. -/
theorem compact_policiesUnder (once : ListsOnce der chain)
    (apart : MappingsApart der policy chain) (split : chain = lower ++ above)
    (allowed : ∀ other ∈ above, MappingsAllowed der other) {tree : PolicyTree}
    (current : (policiesUnder der chain.length (initialPolicyState policy chain)
      above).policyTree = some tree) : Compact (policyOids der chain) tree := by
  induction above generalizing lower tree with
  | nil =>
      cases Option.some.inj current
      exact compact_init
  | cons cert above ih =>
      have aboveAllowed : ∀ other ∈ above, MappingsAllowed der other :=
        fun other member => allowed other (List.mem_cons_of_mem _ member)
      have shorter : chain = (lower ++ [cert]) ++ above := by
        rw [split, List.append_assoc, List.singleton_append]
      rw [policiesUnder_cons] at current
      have grown := compact_collapsed split (Nat.succ_pos _)
        (fun next processed => compact_processed once apart split aboveAllowed
          (fun tree under => ih shorter aboveAllowed under) processed) current
      exact grown.1

variable {verifier : SignatureVerifier} {anchor : TrustAnchor}

theorem compact_reached (once : ListsOnce der chain) (apart : MappingsApart der policy chain)
    {done below : List Certificate} {state : WorkingState}
    (reached : Walk.Reached (certStep der policy verifier chain) chain.reverse
      (initialState policy chain anchor) done (cert :: below) state)
    {policies : Option CertificatePolicies}
    (decoded : certPolicies der cert below.length = .ok policies) {tree : PolicyTree}
    (current : (processCertPolicies cert below.length (chain.length - below.length) policies
      state.policies).policyTree = some tree) :
    Compact (policyOids der chain) tree ∧ policyOids der chain ≠ [] := by
  obtain ⟨split, depth, under, allowed⟩ := reached_policies reached
  have aboveAllowed : ∀ other ∈ done.reverse, MappingsAllowed der other :=
    fun other member => allowed other (List.mem_reverse.mp member)
  have shorter : chain = (below.reverse ++ [cert]) ++ done.reverse := by
    rw [List.append_assoc, List.singleton_append]
    exact split
  rw [← tryFindCertExt_ok decoded, depth, under] at current
  have grown : (processed der cert below.length (done.reverse.length + 1)
      (policiesUnder der chain.length (initialPolicyState policy chain) done.reverse)).policyTree =
        some tree := by
    rw [List.length_reverse]
    exact current
  exact compact_processed once apart split aboveAllowed
    (fun tree earlier => compact_policiesUnder once apart shorter aboveAllowed earlier) grown

/-- Every tree of the loop is compact. -/
theorem compact_loopTree (once : ListsOnce der chain) (apart : MappingsApart der policy chain)
    {tree : PolicyTree} (loop : LoopTree der policy chain verifier anchor tree) :
    Compact (policyOids der chain) tree ∧ policyOids der chain ≠ [] := by
  cases loop with
  | policies reached decoded current => exact compact_reached once apart reached decoded current
  | @mappings _ below cert _ policies mappings _ reached decoded found mapped =>
      obtain ⟨split, depth, _, _⟩ := reached_policies reached
      obtain ⟨_, applied⟩ := mapPolicies_ok_iff.mp mapped
      have listed : certMappings der cert = mappings := tryFindCertExt_ok found
      cases mappings with
      | none => exact compact_reached once apart reached decoded applied.symm
      | some mappings =>
          obtain ⟨before, current, rfl⟩ := Option.map_eq_some_iff.mp applied.symm
          obtain ⟨compact, named⟩ := compact_reached once apart reached decoded current
          exact ⟨compact_mapped split listed (by omega) compact, named⟩
  | @iteration _ below state tree reached started current =>
      cases reached with
      | start => exact absurd rfl started
      | @step above cert below state next earlier taken =>
          have advanced := (certStep_tracks.mp taken).2.2
          obtain ⟨policies, decoded, _, stepped⟩ := policyStep_ok_iff.mp advanced
          by_cases bottom : below.length = 0
          · rw [if_pos bottom] at stepped
            rw [← Except.ok.inj stepped] at current
            exact compact_reached once apart earlier decoded current
          · obtain ⟨split, depth, _, _⟩ := reached_policies earlier
            rw [((policyStep_ca_ok_iff bottom).mp advanced).2] at current
            refine compact_collapsed split (by omega) ?_ current
            intro before processed
            refine compact_reached once apart earlier decoded ?_
            rw [← tryFindCertExt_ok decoded]
            exact processed

/-- The intersection with the user set adds the policies of the set at most once. -/
theorem compact_trimmed {named : List ObjectIdentifier} {userSet : List ObjectIdentifier}
    {depth : Nat} (inner : 0 < depth) (setOnce : userSet.Nodup) {current : Option PolicyTree}
    (compact : ∀ tree, current = some tree → Compact named tree) {tree : PolicyTree}
    (trimmed : trimPolicyTree userSet depth current = some tree) :
    Compact (named ++ userSet) tree := by
  unfold trimPolicyTree at trimmed
  split at trimmed
  · exact (compact tree trimmed).widen (List.subset_append_left _ _)
  · obtain ⟨before, held, intersected⟩ := Option.bind_eq_some_iff.mp trimmed
    have wide := (compact before held).widen (List.subset_append_left named userSet)
    have deleted := wide.sublist (deleteOutOfSet_sublist depth userSet)
    have materialised := deleted.materialise inner setOnce (List.subset_append_right _ _)
    exact materialised.sublist (policyTreePostOpPrune_sublist intersected)

end Run

/-- No blow-up: when no certificate lists a policy twice and the mappings keep the
policies of a level apart, every tree of a walk has at most one node for each depth and
policy, and no level outgrows the policies named. -/
theorem policyTree_bounded (der : DerCodec) (policy : ValidationPolicy)
    (verifier : SignatureVerifier) (chain : List Certificate) (anchor : TrustAnchor)
    (inhabited : chain ≠ []) (once : ListsOnce der chain) (apart : MappingsApart der policy chain)
    (setOnce : policy.initialPolicySet.Nodup) :
    (∀ tree, LoopTree der policy chain verifier anchor tree →
      UniqueNodes tree ∧
        ∀ depth, (nodesAt tree depth).length ≤ (policyOids der chain).dedup.length) ∧
    ∀ final tree, walkCerts der policy verifier chain anchor = .ok final →
      trimPolicyTree policy.initialPolicySet chain.length final.policies.policyTree = some tree →
      UniqueNodes tree ∧
        ∀ depth, (nodesAt tree depth).length ≤
          (policyOids der chain ++ policy.initialPolicySet).dedup.length := by
  have loops {tree : PolicyTree} (loop : LoopTree der policy chain verifier anchor tree) :=
    compact_loopTree once apart loop
  constructor
  · intro tree loop
    obtain ⟨compact, named⟩ := loops loop
    exact ⟨compact.unique, compact.nodesAt_le named⟩
  · intro final tree walked trimmed
    have started : chain.reverse ≠ [] := fun empty => inhabited (List.reverse_eq_nil_iff.mp empty)
    have ends {before : PolicyTree} (current : final.policies.policyTree = some before) :=
      loops (.iteration (Walk.reached_of_walk walked) started current)
    have compact := compact_trimmed (List.length_pos_iff.mpr inhabited) setOnce
      (fun before current => (ends current).1) trimmed
    have named : policyOids der chain ++ policy.initialPolicySet ≠ [] := by
      cases current : final.policies.policyTree with
      | none =>
          rw [current] at trimmed
          unfold trimPolicyTree at trimmed
          split at trimmed <;> cases trimmed
      | some before => exact List.append_ne_nil_of_left_ne_nil (ends current).2 _
    exact ⟨compact.unique, compact.nodesAt_le named⟩

section BoundExample

open Concrete

private def boundCodec : DerCodec := policyCodec [[testPolicy 1]]

theorem policyTree_bounded_example :
    (∀ tree, LoopTree boundCodec (explicitPolicy [testPolicy 1])
        (policyChain [testPolicy 1] [testPolicy 1]) keyCopyVerifier
        (anchorNamed (commonName [65]) [1, 2, 3] none) tree →
      UniqueNodes tree ∧
        ∀ depth, (nodesAt tree depth).length ≤
          (policyOids boundCodec (policyChain [testPolicy 1] [testPolicy 1])).dedup.length) ∧
    ∀ final tree, walkCerts boundCodec (explicitPolicy [testPolicy 1]) keyCopyVerifier
        (policyChain [testPolicy 1] [testPolicy 1])
        (anchorNamed (commonName [65]) [1, 2, 3] none) = .ok final →
      trimPolicyTree (explicitPolicy [testPolicy 1]).initialPolicySet
        (policyChain [testPolicy 1] [testPolicy 1]).length final.policies.policyTree = some tree →
      UniqueNodes tree ∧
        ∀ depth, (nodesAt tree depth).length ≤
          (policyOids boundCodec (policyChain [testPolicy 1] [testPolicy 1]) ++
            (explicitPolicy [testPolicy 1]).initialPolicySet).dedup.length := by
  have listed : ∀ cert ∈ policyChain [testPolicy 1] [testPolicy 1],
      listedPolicies boundCodec cert = some [⟨testPolicy 1, none⟩] := by
    decide +kernel
  have unmapped : ∀ cert ∈ policyChain [testPolicy 1] [testPolicy 1],
      certMappings boundCodec cert = none := by
    decide +kernel
  refine policyTree_bounded boundCodec (explicitPolicy [testPolicy 1]) keyCopyVerifier
    (policyChain [testPolicy 1] [testPolicy 1]) (anchorNamed (commonName [65]) [1, 2, 3] none)
    (by decide) ?_ ?_ (by decide)
  · intro cert member policies found
    rw [listed cert member] at found
    cases Option.some.inj found
    exact List.nodup_singleton _
  · intro index first second wanted _ _ firstExpects secondExpects
    have above := fun cert member =>
      unmapped cert (List.mem_of_mem_drop (i := index + 1) member)
    rw [expectedUnder_unmapped above, List.mem_singleton] at firstExpects secondExpects
    exact firstExpects.symm.trans secondExpects

private def mergingChain : List Certificate :=
  [issue 2 (commonName [66]) (commonName [67]) [4, 5] [6] [policiesExtension [testPolicy 3]],
   issue 1 (commonName [65]) (commonName [66]) [1, 2, 3] [4, 5]
    [caExtension, policiesExtension [testPolicy 1, testPolicy 2],
     mappingsExtension [(testPolicy 1, testPolicy 3), (testPolicy 2, testPolicy 3)]]]

private def mergingCodec : DerCodec :=
  tableCodec
    { basicConstraints := caTable
      certificatePolicies := policiesTable [[testPolicy 3], [testPolicy 1, testPolicy 2]]
      policyMappings :=
        mappingsTable [[(testPolicy 1, testPolicy 3), (testPolicy 2, testPolicy 3)]] }

/-- A CA maps two policies to the one the leaf lists: the leaf's level has it twice. -/
theorem policyTree_duplicates :
    ¬∀ (der : DerCodec) (policy : ValidationPolicy) (verifier : SignatureVerifier)
        (chain : List Certificate) (anchor : TrustAnchor) (tree : PolicyTree),
      LoopTree der policy chain verifier anchor tree → UniqueNodes tree := by
  intro unique
  obtain ⟨final, walked⟩ : ∃ final, walkCerts mergingCodec (explicitPolicy []) keyCopyVerifier
      mergingChain (anchorNamed (commonName [65]) [1, 2, 3] none) = .ok final :=
    ok_of_isSome (by decide +kernel)
  have computed : (walkCerts mergingCodec (explicitPolicy []) keyCopyVerifier mergingChain
      (anchorNamed (commonName [65]) [1, 2, 3] none)).toOption.bind (·.policies.policyTree) =
      some [rootNode, ⟨1, testPolicy 1, [testPolicy 3], []⟩, ⟨1, testPolicy 2, [testPolicy 3], []⟩,
        ⟨2, testPolicy 3, [testPolicy 3], []⟩, ⟨2, testPolicy 3, [testPolicy 3], []⟩] := by
    decide +kernel
  rw [walked] at computed
  have loop := LoopTree.iteration (Walk.reached_of_walk walked) (by decide) computed
  exact absurd (unique _ _ _ _ _ _ loop) (by unfold UniqueNodes; decide)

end BoundExample

end Pkix.Path
