import Pkix.Path.PolicyWalk

/-! The shape every policy tree of the walk keeps: one root, a lowest level that is
never empty, an expected child for every node between, and anyPolicy chains. -/

namespace Pkix.Path

/-- What growth keeps before the prune. -/
structure Layered (depth : Nat) (tree : PolicyTree) : Prop where
  bounded : ∀ node ∈ tree, node.depth ≤ depth
  root : ∀ node ∈ tree, node.depth = 0 → node = rootNode
  hasRoot : rootNode ∈ tree
  lowest : ∃ node ∈ tree, node.depth = depth
  expectsAny : ∀ node ∈ tree, node.validPolicy = oidAnyPolicy →
    node.expectedPolicySet = [oidAnyPolicy]
  onlyAnyExpects : ∀ node ∈ tree, oidAnyPolicy ∈ node.expectedPolicySet →
    node.validPolicy = oidAnyPolicy
  anyAbove : ∀ level, PolicyAt tree (level + 1) oidAnyPolicy → PolicyAt tree level oidAnyPolicy

structure Leveled (depth : Nat) (tree : PolicyTree) : Prop extends Layered depth tree where
  parented : ∀ node ∈ tree, 0 < node.depth → node.depth < depth →
    ∃ child ∈ tree, child.depth = node.depth + 1 ∧ expects node child = true

section Growth

variable {tree : PolicyTree} {depth : Nat}

theorem rootNode_depth : rootNode.depth = 0 := rfl

theorem leveled_init : Leveled 0 initPolicyTree := by
  have root : rootNode ∈ initPolicyTree := mem_initPolicyTree.mpr rfl
  refine ⟨⟨?_, ?_, root, ⟨rootNode, root, rfl⟩, ?_, ?_, ?_⟩, ?_⟩
  · intro node member
    rw [mem_initPolicyTree.mp member]
    exact Nat.le_refl 0
  · exact fun node member _ => mem_initPolicyTree.mp member
  · intro node member _
    rw [mem_initPolicyTree.mp member]
    rfl
  · intro node member _
    rw [mem_initPolicyTree.mp member]
    rfl
  · rintro level ⟨node, member, below, _⟩
    rw [mem_initPolicyTree.mp member] at below
    cases below
  · intro node member inner
    rw [mem_initPolicyTree.mp member] at inner
    cases inner

theorem expects_any {parent child : PolicyNode}
    (single : parent.expectedPolicySet = [oidAnyPolicy])
    (anyPolicy : child.validPolicy = oidAnyPolicy) : expects parent child = true := by
  rw [expects_iff, single, anyPolicy]
  exact List.mem_singleton.mpr rfl

theorem Layered.any_climbs (layered : Layered depth tree) (level distance : Nat)
    (present : PolicyAt tree (level + distance) oidAnyPolicy) :
    PolicyAt tree level oidAnyPolicy := by
  induction distance with
  | zero => exact present
  | succ distance ih => exact ih (layered.anyAbove (level + distance) present)

/-- An anyPolicy node under the root has one below it on every level. -/
theorem Leveled.any_descends (leveled : Leveled depth tree) {level : Nat} (inner : 0 < level)
    (present : PolicyAt tree level oidAnyPolicy) : PolicyAt tree depth oidAnyPolicy := by
  obtain ⟨node, member, place, anyPolicy⟩ := present
  have limit := leveled.bounded node member
  obtain ⟨distance, gap⟩ : ∃ distance, level + distance = depth := ⟨depth - level, by omega⟩
  induction distance generalizing level node with
  | zero => exact ⟨node, member, by omega, anyPolicy⟩
  | succ distance ih =>
      obtain ⟨child, inside, next, expected⟩ :=
        leveled.parented node member (by omega) (by omega)
      rw [expects_iff, leveled.expectsAny node member anyPolicy, List.mem_singleton] at expected
      exact ih (Nat.succ_pos level) child inside (by omega) expected
        (leveled.bounded child inside) (by omega)

theorem Leveled.specific (leveled : Leveled depth tree)
    (fixed : ¬PolicyAt tree depth oidAnyPolicy) {node : PolicyNode} (member : node ∈ tree)
    (inner : 0 < node.depth) : node.validPolicy ≠ oidAnyPolicy :=
  fun anyPolicy => fixed (leveled.any_descends inner ⟨node, member, rfl, anyPolicy⟩)

/-- The prune restores the children and loses nothing else of the shape. -/
theorem Layered.prune (layered : Layered depth tree) :
    Leveled depth (prunePolicyTree depth tree) := by
  have inside {node : PolicyNode} (kept : node ∈ prunePolicyTree depth tree) : node ∈ tree :=
    (mem_prunePolicyTree_iff.mp kept).1
  refine ⟨⟨fun node kept => layered.bounded node (inside kept),
    fun node kept => layered.root node (inside kept),
    mem_prunePolicyTree_iff.mpr ⟨layered.hasRoot, .inl rfl⟩, ?_,
    fun node kept => layered.expectsAny node (inside kept),
    fun node kept => layered.onlyAnyExpects node (inside kept), ?_⟩, ?_⟩
  · obtain ⟨node, member, level⟩ := layered.lowest
    exact ⟨node, mem_prunePolicyTree_iff.mpr ⟨member, .inr (.inl (by omega))⟩, level⟩
  · rintro level ⟨node, kept, below, anyPolicy⟩
    obtain ⟨parent, member, above, parentAny⟩ :=
      layered.anyAbove level ⟨node, inside kept, below, anyPolicy⟩
    rw [prunePolicyTree_eq] at kept
    have limit := layered.bounded node (Levels.mem_pruneAbove_iff.mp kept).1
    have expected := expects_any (layered.expectsAny parent member parentAny) anyPolicy
    have parentKept := Levels.pruneAbove_parent kept limit member (by omega) expected
    rw [← prunePolicyTree_eq] at parentKept
    exact ⟨parent, parentKept, above, parentAny⟩
  · intro node kept inner above
    rw [prunePolicyTree_eq] at kept ⊢
    exact Levels.pruneAbove_child kept inner above

theorem layered_newNodes (layered : Layered depth tree) {mayExpand : Bool}
    {policies : CertificatePolicies}
    (created : ∃ node ∈ newNodes tree (depth + 1) mayExpand policies, node.depth = depth + 1) :
    Layered (depth + 1) (tree ++ newNodes tree (depth + 1) mayExpand policies) := by
  refine ⟨?_, ?_, List.mem_append_left _ layered.hasRoot, ?_, ?_, ?_, ?_⟩
  · intro node member
    rcases List.mem_append.mp member with old | new
    · exact Nat.le_succ_of_le (layered.bounded node old)
    · rw [(newNodes_shape new).1]
  · intro node member top
    rcases List.mem_append.mp member with old | new
    · exact layered.root node old top
    · rw [(newNodes_shape new).1] at top
      cases top
  · obtain ⟨node, new, level⟩ := created
    exact ⟨node, List.mem_append_right _ new, level⟩
  · intro node member anyPolicy
    rcases List.mem_append.mp member with old | new
    · exact layered.expectsAny node old anyPolicy
    · rw [(newNodes_shape new).2, anyPolicy]
  · intro node member expected
    rcases List.mem_append.mp member with old | new
    · exact layered.onlyAnyExpects node old expected
    · rw [(newNodes_shape new).2] at expected
      exact (List.mem_singleton.mp expected).symm
  · rintro level ⟨node, member, below, anyPolicy⟩
    rcases List.mem_append.mp member with old | new
    · obtain ⟨parent, inside, above, parentAny⟩ :=
        layered.anyAbove level ⟨node, old, below, anyPolicy⟩
      exact ⟨parent, List.mem_append_left _ inside, above, parentAny⟩
    · -- an anyPolicy node comes from a parent that expects it
      have place : level = depth := by
        rw [(newNodes_shape new).1] at below
        omega
      have origin := newNodes_policy_iff.mp ⟨node, new, anyPolicy⟩
      rw [Nat.add_sub_cancel] at origin
      rcases origin with ⟨specific, _⟩ | ⟨_, _, parent, inside, above, expected⟩
      · exact absurd rfl specific
      · exact ⟨parent, List.mem_append_left _ inside, by omega,
          layered.onlyAnyExpects parent inside expected⟩

theorem newNodes_bounded (bounded : ∀ node ∈ tree, node.depth ≤ depth) {mayExpand : Bool}
    {policies : CertificatePolicies} :
    ∀ node ∈ tree ++ newNodes tree (depth + 1) mayExpand policies, node.depth ≤ depth + 1 := by
  intro node member
  rcases List.mem_append.mp member with old | new
  · exact Nat.le_succ_of_le (bounded node old)
  · rw [(newNodes_shape new).1]

theorem processPolicies_ne_none (leveled : Leveled depth tree) {mayExpand : Bool}
    {policies : CertificatePolicies}
    (created : ∃ node, node ∈ newNodes tree (depth + 1) mayExpand policies) :
    processPolicies tree (depth + 1) mayExpand (some policies) ≠ none := by
  obtain ⟨node, new⟩ := created
  have present : (tree ++ newNodes tree (depth + 1) mayExpand policies).any
      (fun node => node.depth == depth + 1) = true :=
    List.any_eq_true.mpr ⟨node, List.mem_append_right _ new, beq_iff_eq.mpr (newNodes_shape new).1⟩
  rw [processPolicies,
    policyTreePostOpPrune_eq (Nat.succ_pos depth) (newNodes_bounded leveled.bounded), if_pos present]
  exact Option.some_ne_none _

/-- A certificate's policies take a tree of one depth to a tree of the next. -/
theorem leveled_processPolicies (leveled : Leveled depth tree) {mayExpand : Bool}
    {policies : Option CertificatePolicies} {next : PolicyTree}
    (grown : processPolicies tree (depth + 1) mayExpand policies = some next) :
    ∃ list, policies = some list ∧
      next = prunePolicyTree (depth + 1) (tree ++ newNodes tree (depth + 1) mayExpand list) ∧
      Leveled (depth + 1) next := by
  cases policies with
  | none => cases grown
  | some list =>
      rw [processPolicies,
        policyTreePostOpPrune_eq (Nat.succ_pos depth) (newNodes_bounded leveled.bounded)] at grown
      split at grown
      · rename_i present
        obtain ⟨node, member, level⟩ := List.any_eq_true.mp present
        rw [beq_iff_eq] at level
        have created : ∃ node ∈ newNodes tree (depth + 1) mayExpand list,
            node.depth = depth + 1 := by
          rcases List.mem_append.mp member with old | new
          · have limit := leveled.bounded node old
            omega
          · exact ⟨node, new, level⟩
        refine ⟨list, rfl, (Option.some.inj grown).symm, ?_⟩
        rw [← Option.some.inj grown]
        exact (layered_newNodes leveled.toLayered created).prune
      · cases grown

end Growth

section Mapping

variable {tree : PolicyTree} {depth : Nat}

@[simp] theorem expectMapped_depth (mapping : PolicyMapping) (node : PolicyNode) :
    (expectMapped depth mapping node).depth = node.depth := by
  unfold expectMapped
  split <;> rfl

@[simp] theorem expectMapped_validPolicy (mapping : PolicyMapping) (node : PolicyNode) :
    (expectMapped depth mapping node).validPolicy = node.validPolicy := by
  unfold expectMapped
  split <;> rfl

theorem expectMapped_of_ne {mapping : PolicyMapping} {node : PolicyNode}
    (other : ¬(node.depth = depth ∧ node.validPolicy = mapping.issuerDomainPolicy)) :
    expectMapped depth mapping node = node :=
  if_neg other

theorem mem_expectMapped {mapping : PolicyMapping} {node : PolicyNode}
    {policy : ObjectIdentifier}
    (expected : policy ∈ (expectMapped depth mapping node).expectedPolicySet) :
    policy ∈ node.expectedPolicySet ∨ policy = mapping.subjectDomainPolicy := by
  unfold expectMapped at expected
  dsimp only at expected
  split at expected
  · dsimp only at expected
    split at expected
    · exact .inl (List.mem_filter.mp expected).1
    · rcases List.mem_append.mp expected with kept | added
      · exact .inl (List.mem_filter.mp kept).1
      · exact .inr (List.mem_singleton.mp added)
  · exact .inl expected

def mappedNode (depth : Nat) (qualifiers : List PolicyQualifierInfo) (mapping : PolicyMapping) :
    PolicyNode :=
  { depth
    validPolicy := mapping.issuerDomainPolicy
    expectedPolicySet := [mapping.subjectDomainPolicy]
    qualifiers }

/-- One mapping changes expected sets of the lowest level or adds a node to it. -/
theorem applyMapping_cases (depth : Nat) (qualifiers : List PolicyQualifierInfo)
    (tree : PolicyTree) (mapping : PolicyMapping) :
    (PolicyAt tree depth mapping.issuerDomainPolicy ∧
      applyMapping depth qualifiers tree mapping = tree.map (expectMapped depth mapping)) ∨
    (¬PolicyAt tree depth mapping.issuerDomainPolicy ∧ PolicyAt tree depth oidAnyPolicy ∧
      applyMapping depth qualifiers tree mapping =
        tree ++ [mappedNode depth qualifiers mapping]) ∨
    (¬PolicyAt tree depth mapping.issuerDomainPolicy ∧ ¬PolicyAt tree depth oidAnyPolicy ∧
      applyMapping depth qualifiers tree mapping = tree) := by
  have found : tree.any (fun node =>
      node.depth == depth && node.validPolicy == mapping.issuerDomainPolicy) = true ↔
      PolicyAt tree depth mapping.issuerDomainPolicy := by
    simp [PolicyAt]
  unfold applyMapping
  by_cases present : PolicyAt tree depth mapping.issuerDomainPolicy
  · exact .inl ⟨present, if_pos (found.mpr present)⟩
  · rw [if_neg (mt found.mp present)]
    by_cases anyPolicy : PolicyAt tree depth oidAnyPolicy
    · exact .inr (.inl ⟨present, anyPolicy, if_pos (any_isAnyAt_iff.mpr anyPolicy)⟩)
    · exact .inr (.inr ⟨present, anyPolicy, if_neg (mt any_isAnyAt_iff.mp anyPolicy)⟩)

theorem Leveled.expectMapped (leveled : Leveled depth tree) (inner : 0 < depth)
    {mapping : PolicyMapping} (fromSpecific : mapping.issuerDomainPolicy ≠ oidAnyPolicy)
    (toSpecific : mapping.subjectDomainPolicy ≠ oidAnyPolicy) :
    Leveled depth (tree.map (expectMapped depth mapping)) := by
  have image {node : PolicyNode} (member : node ∈ tree.map (Path.expectMapped depth mapping)) :
      ∃ old ∈ tree, Path.expectMapped depth mapping old = node :=
    List.mem_map.mp member
  have mapped {old : PolicyNode} (member : old ∈ tree) :
      Path.expectMapped depth mapping old ∈ tree.map (Path.expectMapped depth mapping) :=
    List.mem_map_of_mem member
  refine ⟨⟨?_, ?_, ?_, ?_, ?_, ?_, ?_⟩, ?_⟩
  · intro node member
    rcases image member with ⟨old, inside, rfl⟩
    rw [expectMapped_depth]
    exact leveled.bounded old inside
  · intro node member top
    rcases image member with ⟨old, inside, rfl⟩
    rw [expectMapped_depth] at top
    rw [expectMapped_of_ne (by omega)]
    exact leveled.root old inside top
  · have same := mapped leveled.hasRoot
    rwa [expectMapped_of_ne (fun at_depth => by
      have level := at_depth.1
      rw [rootNode_depth] at level
      omega)] at same
  · rcases leveled.lowest with ⟨old, inside, level⟩
    exact ⟨_, mapped inside, by rw [expectMapped_depth, level]⟩
  · intro node member anyPolicy
    rcases image member with ⟨old, inside, rfl⟩
    rw [expectMapped_validPolicy] at anyPolicy
    rw [expectMapped_of_ne (fun at_policy => fromSpecific (at_policy.2.symm.trans anyPolicy))]
    exact leveled.expectsAny old inside anyPolicy
  · intro node member expected
    rcases image member with ⟨old, inside, rfl⟩
    rw [expectMapped_validPolicy]
    rcases mem_expectMapped expected with kept | added
    · exact leveled.onlyAnyExpects old inside kept
    · exact absurd added.symm toSpecific
  · intro level present
    rcases present with ⟨node, member, below, anyPolicy⟩
    rcases image member with ⟨old, inside, rfl⟩
    rw [expectMapped_depth] at below
    rw [expectMapped_validPolicy] at anyPolicy
    rcases leveled.anyAbove level ⟨old, inside, below, anyPolicy⟩ with
      ⟨parent, parentInside, above, parentAny⟩
    exact ⟨_, mapped parentInside, by rw [expectMapped_depth, above],
      by rw [expectMapped_validPolicy, parentAny]⟩
  · intro node member positive above
    rcases image member with ⟨old, inside, rfl⟩
    rw [expectMapped_depth] at positive above ⊢
    rcases leveled.parented old inside positive above with ⟨child, childInside, next, expected⟩
    refine ⟨_, mapped childInside, by rw [expectMapped_depth, next], ?_⟩
    rw [expectMapped_of_ne (fun at_depth => by omega), expects, expectMapped_validPolicy]
    exact expected

/-- A node of a specific policy on the lowest level needs no parent or child. -/
theorem Leveled.snoc (leveled : Leveled depth tree) {added : PolicyNode} (inner : 0 < depth)
    (place : added.depth = depth) (specific : added.validPolicy ≠ oidAnyPolicy)
    (expectsSpecific : oidAnyPolicy ∉ added.expectedPolicySet) :
    Leveled depth (tree ++ [added]) := by
  refine ⟨⟨?_, ?_, List.mem_append_left _ leveled.hasRoot, ?_, ?_, ?_, ?_⟩, ?_⟩
  · intro node member
    rcases List.mem_append.mp member with old | new
    · exact leveled.bounded node old
    · rw [List.mem_singleton.mp new, place]
  · intro node member top
    rcases List.mem_append.mp member with old | new
    · exact leveled.root node old top
    · rw [List.mem_singleton.mp new, place] at top
      omega
  · rcases leveled.lowest with ⟨node, member, level⟩
    exact ⟨node, List.mem_append_left _ member, level⟩
  · intro node member anyPolicy
    rcases List.mem_append.mp member with old | new
    · exact leveled.expectsAny node old anyPolicy
    · rw [List.mem_singleton.mp new] at anyPolicy
      exact absurd anyPolicy specific
  · intro node member expected
    rcases List.mem_append.mp member with old | new
    · exact leveled.onlyAnyExpects node old expected
    · rw [List.mem_singleton.mp new] at expected
      exact absurd expected expectsSpecific
  · intro level present
    rcases present with ⟨node, member, below, anyPolicy⟩
    rcases List.mem_append.mp member with old | new
    · rcases leveled.anyAbove level ⟨node, old, below, anyPolicy⟩ with
        ⟨parent, inside, above, parentAny⟩
      exact ⟨parent, List.mem_append_left _ inside, above, parentAny⟩
    · rw [List.mem_singleton.mp new] at anyPolicy
      exact absurd anyPolicy specific
  · intro node member positive above
    rcases List.mem_append.mp member with old | new
    · rcases leveled.parented node old positive above with ⟨child, inside, next, expected⟩
      exact ⟨child, List.mem_append_left _ inside, next, expected⟩
    · rw [List.mem_singleton.mp new, place] at above
      exact absurd above (Nat.lt_irrefl depth)

theorem Leveled.applyMapping (leveled : Leveled depth tree) (inner : 0 < depth)
    (qualifiers : List PolicyQualifierInfo) (mapping : PolicyMapping)
    (fromSpecific : mapping.issuerDomainPolicy ≠ oidAnyPolicy)
    (toSpecific : mapping.subjectDomainPolicy ≠ oidAnyPolicy) :
    Leveled depth (applyMapping depth qualifiers tree mapping) := by
  rcases applyMapping_cases depth qualifiers tree mapping with
    ⟨_, result⟩ | ⟨_, _, result⟩ | ⟨_, _, result⟩
  · rw [result]
    exact leveled.expectMapped inner fromSpecific toSpecific
  · rw [result]
    apply leveled.snoc inner rfl fromSpecific
    intro expected
    exact toSpecific (List.mem_singleton.mp expected).symm
  · rw [result]
    exact leveled

theorem mapsAnyPolicy_false_iff {mappings : PolicyMappings} :
    mapsAnyPolicy mappings = false ↔ ∀ mapping ∈ mappings,
      mapping.issuerDomainPolicy ≠ oidAnyPolicy ∧ mapping.subjectDomainPolicy ≠ oidAnyPolicy := by
  simp [mapsAnyPolicy]

theorem Leveled.foldl_applyMapping (leveled : Leveled depth tree) (inner : 0 < depth)
    (qualifiers : List PolicyQualifierInfo) (mappings : PolicyMappings)
    (allowed : mapsAnyPolicy mappings = false) :
    Leveled depth (mappings.foldl (Path.applyMapping depth qualifiers) tree) := by
  rw [mapsAnyPolicy_false_iff] at allowed
  induction mappings generalizing tree with
  | nil => exact leveled
  | cons mapping mappings ih =>
      have head := allowed mapping List.mem_cons_self
      exact ih (leveled.applyMapping inner qualifiers mapping head.1 head.2)
        (fun other member => allowed other (List.mem_cons_of_mem _ member))

theorem mem_deleteMapped_iff {mappings : PolicyMappings} {node : PolicyNode} :
    node ∈ deleteMapped depth mappings tree ↔ node ∈ tree ∧
      ¬(node.depth = depth ∧ ∃ mapping ∈ mappings,
        mapping.issuerDomainPolicy = node.validPolicy) := by
  unfold deleteMapped
  rw [List.mem_filter, Bool.or_eq_true, bne_iff_ne, Bool.not_eq_true', ← Bool.not_eq_true,
    List.contains_iff_mem, List.mem_map]
  exact and_congr_right fun _ => (not_and_or).symm

theorem layered_deleteMapped (leveled : Leveled depth tree) (inner : 0 < depth)
    {mappings : PolicyMappings} (allowed : mapsAnyPolicy mappings = false)
    (left : ∃ node ∈ deleteMapped depth mappings tree, node.depth = depth) :
    Layered depth (deleteMapped depth mappings tree) := by
  rw [mapsAnyPolicy_false_iff] at allowed
  have inside {node : PolicyNode} (kept : node ∈ deleteMapped depth mappings tree) :
      node ∈ tree := (mem_deleteMapped_iff.mp kept).1
  refine ⟨fun node kept => leveled.bounded node (inside kept),
    fun node kept => leveled.root node (inside kept), ?_, left,
    fun node kept => leveled.expectsAny node (inside kept),
    fun node kept => leveled.onlyAnyExpects node (inside kept), ?_⟩
  · refine mem_deleteMapped_iff.mpr ⟨leveled.hasRoot, ?_⟩
    rintro ⟨level, _⟩
    rw [rootNode_depth] at level
    omega
  · rintro level ⟨node, kept, below, anyPolicy⟩
    obtain ⟨parent, member, above, parentAny⟩ :=
      leveled.anyAbove level ⟨node, inside kept, below, anyPolicy⟩
    refine ⟨parent, mem_deleteMapped_iff.mpr ⟨member, ?_⟩, above, parentAny⟩
    rintro ⟨_, mapping, listed, same⟩
    exact (allowed mapping listed).1 (same.trans parentAny)

theorem Leveled.notNull (leveled : Leveled depth tree) (inner : 0 < depth) :
    policyTreeIsNull tree = false := by
  rw [Bool.eq_false_iff]
  intro null
  obtain ⟨node, member, level⟩ := leveled.lowest
  have top := policyTreeIsNull_iff.mp null node member
  omega

/-- Mappings and the test after them keep the shape, whichever branch is taken. -/
theorem leveled_collapse_mapped (leveled : Leveled depth tree) (inner : 0 < depth)
    {policyMapping : Nat} {policies : Option CertificatePolicies} {mappings : PolicyMappings}
    (allowed : mapsAnyPolicy mappings = false) {next : PolicyTree}
    (collapsed : policyTreePostOpPrune
      (applyPolicyMappings depth policyMapping policies mappings tree) 0 = some next) :
    next = applyPolicyMappings depth policyMapping policies mappings tree ∧
      Leveled depth next := by
  rw [policyTreePostOpPrune_zero_eq] at collapsed
  split at collapsed
  · cases collapsed
  · rename_i alive
    have same := (Option.some.inj collapsed).symm
    refine ⟨same, ?_⟩
    rw [same]
    unfold applyPolicyMappings at alive ⊢
    by_cases mapping : 0 < policyMapping
    · rw [if_pos mapping]
      exact leveled.foldl_applyMapping inner _ mappings allowed
    · rw [if_neg mapping] at alive ⊢
      simp only [if_pos inner] at alive ⊢
      refine (layered_deleteMapped leveled inner allowed ?_).prune
      rw [policyTreeIsNull_iff] at alive
      simp only [not_forall] at alive
      obtain ⟨node, kept, deep⟩ := alive
      obtain ⟨member, place⟩ := mem_prunePolicyTree_iff.mp kept
      rcases place with top | low | reaches
      · exact absurd top deep
      · have limit := leveled.bounded node (mem_deleteMapped_iff.mp member).1
        exact ⟨node, member, by omega⟩
      · clear kept deep member
        induction reaches with
        | here member atBottom => exact ⟨_, member, atBottom⟩
        | down _ _ _ _ ih => exact ih

end Mapping

section Run

variable {der : DerCodec} {policy : ValidationPolicy}

theorem leveled_processed {cert : Certificate} {index depth : Nat} {state : PolicyState}
    {tree : PolicyTree}
    (leveled : ∀ before, state.policyTree = some before → Leveled depth before)
    (grown : (processed der cert index (depth + 1) state).policyTree = some tree) :
    Leveled (depth + 1) tree := by
  obtain ⟨before, current, grown⟩ := Option.bind_eq_some_iff.mp grown
  obtain ⟨_, _, _, next⟩ := leveled_processPolicies (leveled before current) grown
  exact next

theorem leveled_caPolicyAdvance {cert : Certificate} {index depth : Nat} {state : PolicyState}
    {tree : PolicyTree} (allowed : MappingsAllowed der cert)
    (leveled : ∀ before, state.policyTree = some before → Leveled depth before)
    (advanced : (caPolicyAdvance der cert index (depth + 1) state).policyTree = some tree) :
    Leveled (depth + 1) tree := by
  obtain ⟨mapped, current, collapsed⟩ := Option.bind_eq_some_iff.mp advanced
  unfold mappedTree at current
  cases mappings : certMappings der cert with
  | none =>
      rw [mappings] at current
      have grown := leveled_processed leveled current
      rw [policyTreePostOpPrune_zero_eq, grown.notNull (Nat.succ_pos depth)] at collapsed
      cases collapsed
      exact grown
  | some list =>
      rw [mappings] at current
      obtain ⟨before, grown, rfl⟩ := Option.map_eq_some_iff.mp current
      exact (leveled_collapse_mapped (leveled_processed leveled grown) (Nat.succ_pos depth)
        (allowed list mappings) collapsed).2

/-- The run lemma: under any CAs that map no anyPolicy the tree keeps its shape. -/
theorem leveled_policiesUnder {length : Nat} {start : PolicyState}
    (initial : start.policyTree = some initPolicyTree) (upper : List Certificate)
    (allowed : ∀ cert ∈ upper, MappingsAllowed der cert) (tree : PolicyTree)
    (current : (policiesUnder der length start upper).policyTree = some tree) :
    Leveled upper.length tree := by
  induction upper generalizing tree with
  | nil =>
      have same : some initPolicyTree = some tree := initial.symm.trans current
      cases same
      exact leveled_init
  | cons cert upper ih =>
      refine leveled_caPolicyAdvance (allowed cert List.mem_cons_self) ?_ current
      exact fun before earlier =>
        ih (fun other member => allowed other (List.mem_cons_of_mem _ member)) before earlier

theorem policyWalk_allowed {leaf : Certificate} {upper : List Certificate} {final : PolicyState}
    (finished : policyWalk der policy (leaf :: upper) = .ok final) :
    ∀ cert ∈ upper, MappingsAllowed der cert := by
  intro cert member
  obtain ⟨index, located⟩ := List.getElem?_of_mem member
  exact ((policyWalk_ok_iff.mp finished).1 index cert located).allowed

/-- The tree at the end of the loop has the depth of the chain. -/
theorem policyWalk_leveled {chain : List Certificate} {final : PolicyState} {tree : PolicyTree}
    (nonempty : chain ≠ []) (finished : policyWalk der policy chain = .ok final)
    (current : final.policyTree = some tree) : Leveled chain.length tree := by
  cases chain with
  | nil => exact absurd rfl nonempty
  | cons leaf upper =>
      obtain ⟨_, _, rfl⟩ := policyWalk_ok_iff.mp finished
      exact leveled_processed
        (fun before earlier => leveled_policiesUnder rfl upper (policyWalk_allowed finished)
          before earlier) current

end Run

end Pkix.Path
