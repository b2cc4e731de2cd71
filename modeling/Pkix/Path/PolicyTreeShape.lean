import Pkix.Path.PolicySoundness

/-! The tree a validated path returns: when each of its nodes has a parent, under any
mappings. -/

namespace Pkix.Path

/-- Every node under the root has a parent, every node above the leaves a child, and what
anyPolicy is the parent of lies in the user set. -/
structure WellFormed (userSet : List ObjectIdentifier) (leafDepth : Nat) (tree : PolicyTree) :
    Prop where
  parents : ∀ node ∈ tree, 1 ≤ node.depth →
    ∃ parent ∈ tree, parent.depth + 1 = node.depth ∧ isParent parent node = true
  children : ∀ node ∈ tree, node.depth < leafDepth →
    ∃ child ∈ tree, child.depth = node.depth + 1 ∧ isParent node child = true
  inSet : userSet ≠ [] → oidAnyPolicy ∉ userSet → ∀ node ∈ tree, ∀ parent ∈ tree,
    parent.depth + 1 = node.depth → parent.validPolicy = oidAnyPolicy →
      node.validPolicy ≠ oidAnyPolicy → node.validPolicy ∈ userSet

def Parented (tree : PolicyTree) : Prop :=
  ∀ node ∈ tree, 1 ≤ node.depth →
    ∃ parent ∈ tree, parent.depth + 1 = node.depth ∧ isParent parent node = true

section Conditions

variable (der : DerCodec) (length : Nat) (start : PolicyCounters)
variable (userSet : List ObjectIdentifier)

/-- The policies of a level that lead down to a policy of the leaf. -/
def EndsAt (leaf : Certificate) (upper : List Certificate) : Nat → ObjectIdentifier → Prop :=
  Kept der length start (Asserted der length start leaf upper) upper

/-- A policy that leads down to the leaf is expected by a policy of the level above. -/
def NoOrphans (leaf : Certificate) (upper : List Certificate) : Prop :=
  ∀ index, index < upper.length → ∀ policy, EndsAt der length start leaf upper index policy →
    ExpectedBelow der length start (upper.drop index) policy

/-- The policies of the user set that lead down, within the set, to the leaf. -/
def EndsInSet (upper : List Certificate) : Nat → ObjectIdentifier → Prop :=
  Levels.Leads (fun policy => policy ∈ userSet ∧ policy ≠ oidAnyPolicy)
    (fun index policy => Holds der length start (upper.drop index) policy ∧ policy ∈ userSet)
    (fun index parent child => child ∈ expectedUnder der start (upper.drop index) parent)

/-- Such a policy is expected by a policy of the user set in the level above. -/
def RootedInSet (upper : List Certificate) : Prop :=
  ∀ index, index < upper.length → ∀ policy, EndsInSet der length start userSet upper index policy →
    ∃ parent ∈ userSet, Holds der length start (upper.drop index) parent ∧
      policy ∈ expectedUnder der start (upper.drop index) parent

end Conditions

/-- With anyPolicy throughout, the leaves made from the user set hang together. Without,
every policy hangs on the one above, or the intersection removed what did not. -/
def TreeRooted (der : DerCodec) (policy : ValidationPolicy) : List Certificate → Prop
  | [] => True
  | leaf :: upper =>
      let length := (leaf :: upper).length
      let start := initialCounters policy (leaf :: upper)
      (AnyThroughout der policy (leaf :: upper) →
        policy.initialPolicySet = [] ∨
          RootedInSet der length start policy.initialPolicySet upper) ∧
      (¬AnyThroughout der policy (leaf :: upper) →
        NoOrphans der length start leaf upper ∨
          (policy.initialPolicySet ≠ [] ∧ ∃ top,
            EndsAt der length start leaf upper upper.length top ∧
              top ∉ policy.initialPolicySet))

section AnyLevels

variable {der : DerCodec} {length : Nat} {start : PolicyCounters}
variable {cert : Certificate} {above : List Certificate} {policy : ObjectIdentifier}

theorem any_mem_remapped_iff {mappings : PolicyMappings}
    (allowed : mapsAnyPolicy mappings = false) :
    oidAnyPolicy ∈ remapped mappings policy ↔ policy = oidAnyPolicy := by
  rw [mapsAnyPolicy_false_iff] at allowed
  by_cases anyPolicy : policy = oidAnyPolicy
  · have unmapped : ¬IssuerPolicy mappings policy := by
      intro issuer
      rcases issuer with ⟨mapping, member, same⟩
      exact (allowed mapping member).1 (same.trans anyPolicy)
    rw [remapped_of_not_issuer unmapped, List.mem_singleton]
    exact eq_comm
  · refine iff_of_false ?_ anyPolicy
    -- no mapping puts anyPolicy into a set that starts without it
    have absent (expected : List ObjectIdentifier) (without : oidAnyPolicy ∉ expected) :
        oidAnyPolicy ∉ mappings.foldl (remap policy) expected := by
      induction mappings generalizing expected with
      | nil => exact without
      | cons mapping mappings ih =>
          have subject := (allowed mapping List.mem_cons_self).2
          apply ih (fun other member => allowed other (List.mem_cons_of_mem _ member))
          unfold remap
          by_cases issuer : policy = mapping.issuerDomainPolicy
          · have filtered : oidAnyPolicy ∉ expected.filter (fun other =>
                other != mapping.issuerDomainPolicy) :=
              fun member => without (List.mem_filter.mp member).1
            rw [if_pos issuer]
            dsimp only
            split
            · exact filtered
            · rw [List.mem_append, List.mem_singleton]
              exact not_or.mpr ⟨filtered, subject.symm⟩
          · rw [if_neg issuer]
            exact without
    apply absent
    rw [List.mem_singleton]
    exact fun same => anyPolicy same.symm

theorem any_mem_expectedUnder_iff (allowed : ∀ cert ∈ above, MappingsAllowed der cert) :
    oidAnyPolicy ∈ expectedUnder der start above policy ↔ policy = oidAnyPolicy := by
  have plain : oidAnyPolicy ∈ [policy] ↔ policy = oidAnyPolicy := by
    rw [List.mem_singleton]
    exact eq_comm
  cases above with
  | nil => exact plain
  | cons cert above =>
      rw [expectedUnder]
      cases found : certMappings der cert with
      | none => exact plain
      | some mappings =>
          dsimp only
          split
          · exact any_mem_remapped_iff (allowed cert List.mem_cons_self mappings found)
          · exact plain

/-- anyPolicy is expected as itself alone. -/
theorem expectedUnder_any (allowed : ∀ cert ∈ above, MappingsAllowed der cert) :
    expectedUnder der start above oidAnyPolicy = [oidAnyPolicy] := by
  cases above with
  | nil => rfl
  | cons cert above =>
      rw [expectedUnder]
      cases found : certMappings der cert with
      | none => rfl
      | some mappings =>
          have harmless := allowed cert List.mem_cons_self mappings found
          rw [mapsAnyPolicy_false_iff] at harmless
          have unmapped : ¬IssuerPolicy mappings oidAnyPolicy := by
            intro issuer
            rcases issuer with ⟨mapping, member, same⟩
            exact (harmless mapping member).1 same
          dsimp only
          rw [remapped_of_not_issuer unmapped, ite_self]

theorem expectedBelow_any_iff (allowed : ∀ cert ∈ above, MappingsAllowed der cert) :
    ExpectedBelow der length start above oidAnyPolicy ↔
      Holds der length start above oidAnyPolicy := by
  unfold ExpectedBelow
  simp only [any_mem_expectedUnder_iff allowed, exists_eq_right]

theorem asserted_any_iff (allowed : ∀ cert ∈ above, MappingsAllowed der cert) :
    Asserted der length start cert above oidAnyPolicy ↔
      ExpandsAny der length start cert above ∧ Holds der length start above oidAnyPolicy := by
  rw [asserted_iff, expectedBelow_any_iff allowed, or_iff_right]
  exact fun listed => listed.1 rfl

theorem holds_any_cons_iff (allowed : MappingsAllowed der cert) :
    Holds der length start (cert :: above) oidAnyPolicy ↔
      Asserted der length start cert above oidAnyPolicy := by
  cases found : certMappings der cert with
  | none =>
      show afterMappings der cert _ _ oidAnyPolicy ↔ _
      unfold afterMappings
      rw [found]
      rfl
  | some mappings =>
      have harmless := mapsAnyPolicy_false_iff.mp (allowed mappings found)
      by_cases active : 0 < (countersUnder der start above).policyMapping
      · rw [holds_active_iff found active]
        exact or_iff_left_of_imp And.left
      · rw [holds_inhibited_iff found active, and_iff_left]
        intro issuer
        rcases issuer with ⟨mapping, member, same⟩
        exact (harmless mapping member).1 same

/-- A level holds anyPolicy when all certificates down to it expand it. -/
theorem holds_any_iff (allowed : ∀ cert ∈ above, MappingsAllowed der cert) :
    Holds der length start above oidAnyPolicy ↔ AnyAlong der length start above := by
  induction above with
  | nil => exact iff_of_true rfl trivial
  | cons cert above ih =>
      have aboveAllowed : ∀ other ∈ above, MappingsAllowed der other :=
        fun other member => allowed other (List.mem_cons_of_mem _ member)
      rw [holds_any_cons_iff (allowed cert List.mem_cons_self), asserted_any_iff aboveAllowed,
        ih aboveAllowed]
      rfl

end AnyLevels

section Shape

variable {userSet : List ObjectIdentifier} {size : Nat} {tree : PolicyTree}

theorem Parented.top {node : PolicyNode} (parented : Parented tree) (member : node ∈ tree)
    (inner : 1 ≤ node.depth) : ∃ top ∈ tree, top.depth = 1 := by
  obtain ⟨distance, gap⟩ : ∃ distance, node.depth = 1 + distance := ⟨node.depth - 1, by omega⟩
  induction distance generalizing node with
  | zero => exact ⟨node, member, gap⟩
  | succ distance ih =>
      rcases parented node member inner with ⟨parent, inside, next, _⟩
      exact ih inside (by omega) (by omega)

/-- A pruned tree is well formed once its nodes have parents and the set is respected. -/
theorem wellFormed_iff_parented
    (root : ∀ node ∈ tree, node.depth = 0 → node = rootNode)
    (alive : ∃ node ∈ tree, 1 ≤ node.depth)
    (pruned : ∀ node ∈ tree, 0 < node.depth → node.depth < size →
      ∃ child ∈ tree, child.depth = node.depth + 1 ∧ expects node child = true)
    (inSet : userSet ≠ [] → oidAnyPolicy ∉ userSet → ∀ node ∈ tree, ∀ parent ∈ tree,
      parent.depth + 1 = node.depth → parent.validPolicy = oidAnyPolicy →
        node.validPolicy ≠ oidAnyPolicy → node.validPolicy ∈ userSet) :
    WellFormed userSet size tree ↔ Parented tree := by
  constructor
  · exact fun formed => formed.parents
  · intro parented
    refine ⟨parented, ?_, inSet⟩
    intro node member above
    by_cases top : node.depth = 0
    · rcases alive with ⟨deep, inside, inner⟩
      rcases parented.top inside inner with ⟨child, childInside, place⟩
      have anyPolicy : node.validPolicy = oidAnyPolicy := by rw [root node member top]; rfl
      exact ⟨child, childInside, by omega, isParent_iff.mpr (.inr anyPolicy)⟩
    · rcases pruned node member (by omega) above with ⟨child, inside, next, expected⟩
      exact ⟨child, inside, next, isParent_iff.mpr (.inl (expects_iff.mp expected))⟩

/-- Under the root, without anyPolicy, a parent is a node that expects its child. -/
theorem parented_iff_expects (hasRoot : rootNode ∈ tree)
    (bounded : ∀ node ∈ tree, node.depth ≤ size + 1)
    (specific : ∀ node ∈ tree, 0 < node.depth → node.validPolicy ≠ oidAnyPolicy) :
    Parented tree ↔ ∀ node ∈ tree, 1 < node.depth → node.depth ≤ size + 1 →
      ∃ parent ∈ tree, parent.depth + 1 = node.depth ∧ expects parent node = true := by
  constructor
  · intro parented node member deep _
    rcases parented node member (by omega) with ⟨parent, inside, next, kind⟩
    refine ⟨parent, inside, next, ?_⟩
    rcases isParent_iff.mp kind with expected | anyPolicy
    · exact expects_iff.mpr expected
    · exact absurd anyPolicy (specific parent inside (by omega))
  · intro expected node member inner
    by_cases top : node.depth = 1
    · exact ⟨rootNode, hasRoot, top.symm, isParent_iff.mpr (.inr rfl)⟩
    · rcases expected node member (by omega) (bounded node member) with
        ⟨parent, inside, next, child⟩
      exact ⟨parent, inside, next, isParent_iff.mpr (.inl (expects_iff.mp child))⟩

/-- With an anyPolicy leaf every node has an anyPolicy parent. -/
theorem Layered.parented_of_any (layered : Layered size tree)
    (present : PolicyAt tree size oidAnyPolicy) : Parented tree := by
  intro node member inner
  have limit := layered.bounded node member
  have above : PolicyAt tree (node.depth - 1) oidAnyPolicy := by
    apply layered.any_climbs (node.depth - 1) (size - (node.depth - 1))
    rw [Nat.add_sub_cancel' (by omega)]
    exact present
  rcases above with ⟨parent, inside, place, anyPolicy⟩
  exact ⟨parent, inside, by omega, isParent_iff.mpr (.inr anyPolicy)⟩

end Shape

section Loop

variable {der : DerCodec} {length : Nat} {start : PolicyCounters}
variable {leaf : Certificate} {upper : List Certificate} {tree : PolicyTree}

/-- The tree at the end of the loop has an anyPolicy leaf when all certificates expand it. -/
theorem LevelTree.any_leaf_iff
    (levels : LevelTree der length start (Asserted der length start leaf upper)
      (fun policy => [policy]) upper tree)
    (allowed : ∀ cert ∈ upper, MappingsAllowed der cert) :
    PolicyAt tree (upper.length + 1) oidAnyPolicy ↔ AnyAlong der length start (leaf :: upper) := by
  have lowest := levels.level 0 (Nat.zero_le _) oidAnyPolicy
  rw [Nat.sub_zero, kept_zero_iff] at lowest
  rw [lowest, asserted_any_iff allowed, holds_any_iff allowed]
  rfl

theorem LevelTree.parented_iff
    (levels : LevelTree der length start (Asserted der length start leaf upper)
      (fun policy => [policy]) upper tree)
    (fixed : ¬PolicyAt tree (upper.length + 1) oidAnyPolicy) :
    Parented tree ↔ NoOrphans der length start leaf upper := by
  have parents := parented_iff_expects levels.hasRoot levels.bounded
    (fun node member inner => levels.toLeveled.specific fixed member inner)
  rw [parents]
  apply Levels.parents_iff PolicyNode.validPolicy
    (fun index => Holds der length start (upper.drop index))
    (fun index parent child => child ∈ expectedUnder der start (upper.drop index) parent)
  · exact levels.level
  · intro node member index inside place other
    rw [expects_iff, levels.upperExpects node member index inside place]

end Loop

section Trimmed

variable {userSet : List ObjectIdentifier} {size : Nat} {tree final : PolicyTree}
variable {node : PolicyNode}

/-- What the intersection returns is the pruned tree, with a leaf level. -/
theorem trimmed_eq (leveled : Leveled (size + 1) tree)
    (trimmed : intersectInitialPolicySet tree userSet (size + 1) = some final) :
    final = prunePolicyTree (size + 1)
        (materialiseLeaves (deleteOutOfSet tree userSet (size + 1)) userSet (size + 1)) ∧
      ∃ node ∈ final, 1 ≤ node.depth := by
  rw [intersectInitialPolicySet_eq (Nat.succ_pos size) leveled.bounded] at trimmed
  split at trimmed
  · rename_i lowest
    have same := (Option.some.inj trimmed).symm
    refine ⟨same, ?_⟩
    rcases List.any_eq_true.mp lowest with ⟨node, member, place⟩
    rw [beq_iff_eq] at place
    refine ⟨node, ?_, by omega⟩
    rw [same, mem_prunePolicyTree_iff]
    exact ⟨member, .inr (.inl (by omega))⟩
  · cases trimmed

theorem trimmed_bounded (leveled : Leveled (size + 1) tree)
    (trimmed : intersectInitialPolicySet tree userSet (size + 1) = some final)
    (member : node ∈ final) : node.depth ≤ size + 1 := by
  rw [(trimmed_eq leveled trimmed).1] at member
  exact materialiseLeaves_bounded
    (deleteOutOfSet_bounded (Nat.succ_pos size) leveled.bounded) node
    (mem_prunePolicyTree_iff.mp member).1

/-- A node of the result was in the tree and stayed, or is a leaf made from the set. -/
theorem trimmed_cases (leveled : Leveled (size + 1) tree)
    (trimmed : intersectInitialPolicySet tree userSet (size + 1) = some final)
    (member : node ∈ final) :
    (node ∈ tree ∧ Stays tree userSet node) ∨
      (node.depth = size + 1 ∧ node.validPolicy ∈ userSet) := by
  rw [(trimmed_eq leveled trimmed).1] at member
  rcases mem_materialiseLeaves_cases (mem_prunePolicyTree_iff.mp member).1 with old | fresh
  · exact .inl ((mem_deleteOutOfSet_iff (Nat.succ_pos size) leveled.bounded).mp old)
  · exact .inr fresh

theorem trimmed_old (leveled : Leveled (size + 1) tree)
    (trimmed : intersectInitialPolicySet tree userSet (size + 1) = some final)
    (member : node ∈ final) (above : node.depth < size + 1) :
    node ∈ tree ∧ Stays tree userSet node := by
  rcases trimmed_cases leveled trimmed member with old | fresh
  · exact old
  · omega

theorem trimmed_hasRoot (leveled : Leveled (size + 1) tree)
    (trimmed : intersectInitialPolicySet tree userSet (size + 1) = some final) :
    rootNode ∈ final := by
  have stays : Stays tree userSet rootNode :=
    .inr ⟨fun doomed => doomed.2.2.1 rfl, .inl (Nat.zero_le 1)⟩
  have kept := (mem_deleteOutOfSet_iff (Nat.succ_pos size) leveled.bounded).mpr
    ⟨leveled.hasRoot, stays⟩
  rw [(trimmed_eq leveled trimmed).1, mem_prunePolicyTree_iff]
  refine ⟨?_, .inl rfl⟩
  by_cases present : PolicyAt (deleteOutOfSet tree userSet (size + 1)) (size + 1) oidAnyPolicy
  · rcases mem_materialiseLeaves_iff userSet present with ⟨qualifiers, rule⟩
    exact (rule rootNode).mpr (.inl ⟨kept, fun lowest => nomatch lowest.1⟩)
  · rw [materialiseLeaves_of_no_any present]
    exact kept

/-- For the result of an intersection only the parents are in question. -/
theorem trimmed_wellFormed_iff (leveled : Leveled (size + 1) tree)
    (trimmed : intersectInitialPolicySet tree userSet (size + 1) = some final) :
    WellFormed userSet (size + 1) final ↔ Parented final := by
  apply wellFormed_iff_parented
  · intro node member top
    exact leveled.root node (trimmed_old leveled trimmed member (by omega)).1 top
  · exact (trimmed_eq leveled trimmed).2
  · intro node member inner above
    rw [(trimmed_eq leveled trimmed).1, prunePolicyTree_eq] at member ⊢
    exact Levels.pruneAbove_child member inner above
  · intro _ _ node member parent inside next anyPolicy specific
    have limit := trimmed_bounded leveled trimmed member
    have old := (trimmed_old leveled trimmed inside (by omega)).1
    rcases trimmed_cases leveled trimmed member with ⟨present, stays⟩ | ⟨_, inSet⟩
    · by_contra outside
      exact stays.spared present ⟨by omega, ⟨parent, old, by omega, anyPolicy⟩, specific, outside⟩
    · exact inSet

theorem materialise_fixed (leveled : Leveled (size + 1) tree)
    (fixed : ¬PolicyAt tree (size + 1) oidAnyPolicy) :
    materialiseLeaves (deleteOutOfSet tree userSet (size + 1)) userSet (size + 1) =
      deleteOutOfSet tree userSet (size + 1) := by
  apply materialiseLeaves_of_no_any
  intro present
  rcases present with ⟨node, member, place, anyPolicy⟩
  have old := ((mem_deleteOutOfSet_iff (Nat.succ_pos size) leveled.bounded).mp member).1
  exact fixed ⟨node, old, place, anyPolicy⟩

/-- When nothing is deleted the result is the tree itself. -/
theorem trimmed_whole (leveled : Leveled (size + 1) tree)
    (fixed : ¬PolicyAt tree (size + 1) oidAnyPolicy)
    (whole : ∀ other ∈ tree, ¬Doomed tree userSet other)
    (trimmed : intersectInitialPolicySet tree userSet (size + 1) = some final) :
    node ∈ final ↔ node ∈ tree := by
  have kept {other : PolicyNode} :
      other ∈ deleteOutOfSet tree userSet (size + 1) ↔ other ∈ tree := by
    rw [mem_deleteOutOfSet_iff (Nat.succ_pos size) leveled.bounded]
    exact and_iff_left (.inl whole)
  rw [(trimmed_eq leveled trimmed).1, materialise_fixed leveled fixed, prunePolicyTree_eq,
    Levels.mem_pruneAbove_of_children, kept]
  intro other member inner above
  rcases leveled.parented other (kept.mp member) inner above with ⟨child, inside, next, expected⟩
  exact ⟨child, kept.mpr inside, next, expected⟩

/-- When something is deleted the cascade leaves only nodes with parents. -/
theorem trimmed_cascaded (leveled : Leveled (size + 1) tree)
    (fixed : ¬PolicyAt tree (size + 1) oidAnyPolicy)
    (doomed : ∃ other ∈ tree, Doomed tree userSet other)
    (trimmed : intersectInitialPolicySet tree userSet (size + 1) = some final) :
    Parented final := by
  have shape := (trimmed_eq leveled trimmed).1
  rw [materialise_fixed leveled fixed] at shape
  have limits (node : PolicyNode) (member : node ∈ final) : node.depth ≤ size + 1 :=
    trimmed_bounded leveled trimmed member
  rw [parented_iff_expects (trimmed_hasRoot leveled trimmed) limits]
  · intro node member deep bounded
    rw [shape] at member ⊢
    have kept := (mem_prunePolicyTree_iff.mp member).1
    rcases ((mem_deleteOutOfSet_iff (Nat.succ_pos size) leveled.bounded).mp kept).2 with
      whole | ⟨_, high | rooted⟩
    · rcases doomed with ⟨other, inside, lost⟩
      exact absurd lost (whole other inside)
    · omega
    · cases rooted with
      | here _ atTop => omega
      | @up _ parent _ above next parented =>
          have safe := mem_undoomed_iff.mp above.mem
          have low := above.le_depth
          have expected : expects parent node = true := by
            rcases isParent_iff.mp parented with listed | anyPolicy
            · exact expects_iff.mpr listed
            · exact absurd anyPolicy (leveled.specific fixed safe.1 (by omega))
          have stays := (mem_deleteOutOfSet_iff (Nat.succ_pos size) leveled.bounded).mpr
            ⟨safe.1, .inr ⟨safe.2, .inr above⟩⟩
          refine ⟨parent, ?_, next.symm, expected⟩
          rw [prunePolicyTree_eq] at member ⊢
          exact Levels.pruneAbove_parent member bounded stays next expected
  · intro node member inner
    rw [shape] at member
    have kept := (mem_prunePolicyTree_iff.mp member).1
    have old := ((mem_deleteOutOfSet_iff (Nat.succ_pos size) leveled.bounded).mp kept).1
    exact leveled.specific fixed old inner

end Trimmed

section WithinSet

variable {der : DerCodec} {length : Nat} {start : PolicyCounters}
variable {leaf : Certificate} {upper : List Certificate} {tree final : PolicyTree}
variable {userSet : List ObjectIdentifier} {index : Nat} {policy : ObjectIdentifier}

/-- The names of a level of the trimmed tree: policies of the set, and anyPolicy. -/
def HeldInSet (der : DerCodec) (length : Nat) (start : PolicyCounters)
    (userSet : List ObjectIdentifier) (upper : List Certificate) (index : Nat)
    (policy : ObjectIdentifier) : Prop :=
  Holds der length start (upper.drop index) policy ∧
    (policy = oidAnyPolicy ∨ policy ∈ userSet)

theorem dropped_allowed (allowed : ∀ cert ∈ upper, MappingsAllowed der cert) (index : Nat) :
    ∀ cert ∈ upper.drop index, MappingsAllowed der cert :=
  fun cert member => allowed cert (List.mem_of_mem_drop member)

/-- anyPolicy leads only to anyPolicy, so it ends in no policy of the set. -/
theorem EndsInSet.specific (allowed : ∀ cert ∈ upper, MappingsAllowed der cert)
    (ends : EndsInSet der length start userSet upper index policy) : policy ≠ oidAnyPolicy := by
  induction index generalizing policy with
  | zero => exact ends.2
  | succ index ih =>
      intro anyPolicy
      rcases ends with ⟨_, child, below, expected⟩
      rw [anyPolicy, expectedUnder_any (dropped_allowed allowed index), List.mem_singleton]
        at expected
      exact ih below expected

theorem EndsInSet.inSet (ends : EndsInSet der length start userSet upper index policy) :
    policy ∈ userSet := by
  cases index with
  | zero => exact ends.1
  | succ index => exact ends.1.2

theorem leads_heldInSet_iff (allowed : ∀ cert ∈ upper, MappingsAllowed der cert) :
    Levels.Leads (fun policy => policy ∈ userSet ∧ policy ≠ oidAnyPolicy)
        (HeldInSet der length start userSet upper)
        (fun index parent child => child ∈ expectedUnder der start (upper.drop index) parent)
        index policy ↔
      EndsInSet der length start userSet upper index policy := by
  constructor
  · intro leads
    induction index generalizing policy with
    | zero => exact leads
    | succ index ih =>
        rcases leads with ⟨⟨held, kind⟩, child, below, expected⟩
        have ends := ih below
        refine ⟨⟨held, ?_⟩, child, ends, expected⟩
        rcases kind with anyPolicy | inSet
        · rw [anyPolicy, expectedUnder_any (dropped_allowed allowed index), List.mem_singleton]
            at expected
          exact absurd expected (ends.specific allowed)
        · exact inSet
  · exact Levels.Leads.mono (fun _ bottom => bottom)
      (fun _ _ held => ⟨held.1, .inr held.2⟩)

/-- The tree with its leaves made from the set carries the levels of the set. -/
theorem LevelTree.materialised
    (levels : LevelTree der length start (Asserted der length start leaf upper)
      (fun policy => [policy]) upper tree)
    (present : PolicyAt tree (upper.length + 1) oidAnyPolicy) :
    Levels.Labelled PolicyNode.depth expects PolicyNode.validPolicy
      (fun policy => policy ∈ userSet ∧ policy ≠ oidAnyPolicy)
      (HeldInSet der length start userSet upper)
      (fun index parent child => child ∈ expectedUnder der start (upper.drop index) parent)
      upper.length
      (materialiseLeaves (deleteOutOfSet tree userSet (upper.length + 1)) userSet
        (upper.length + 1)) := by
  have kept {node : PolicyNode} : node ∈ deleteOutOfSet tree userSet (upper.length + 1) ↔
      node ∈ tree ∧ (node.validPolicy = oidAnyPolicy ∨ node.validPolicy ∈ userSet) :=
    mem_deleteOutOfSet_any_iff (Nat.succ_pos upper.length) levels.toLayered present
  have leafAny : PolicyAt (deleteOutOfSet tree userSet (upper.length + 1)) (upper.length + 1)
      oidAnyPolicy := by
    rcases present with ⟨node, member, place, anyPolicy⟩
    exact ⟨node, kept.mpr ⟨member, .inl anyPolicy⟩, place, anyPolicy⟩
  rcases mem_materialiseLeaves_iff userSet leafAny with ⟨qualifiers, rule⟩
  have old {node : PolicyNode}
      (member : node ∈ materialiseLeaves (deleteOutOfSet tree userSet (upper.length + 1)) userSet
        (upper.length + 1)) (above : node.depth < upper.length + 1) :
      node ∈ tree ∧ (node.validPolicy = oidAnyPolicy ∨ node.validPolicy ∈ userSet) := by
    rcases mem_materialiseLeaves_cases member with inside | fresh
    · exact kept.mp inside
    · omega
  refine ⟨?_, ?_, ?_, ?_⟩
  · intro policy
    constructor
    · intro found
      rcases found with ⟨node, member, place, rfl⟩
      rcases (rule node).mp member with ⟨inside, other⟩ | ⟨policy, inSet, absent, rfl⟩
      · have specific : node.validPolicy ≠ oidAnyPolicy := fun anyPolicy => other ⟨place, anyPolicy⟩
        exact ⟨(kept.mp inside).2.resolve_left specific, specific⟩
      · refine ⟨inSet, ?_⟩
        intro anyPolicy
        have same : policy = oidAnyPolicy := anyPolicy
        rw [same] at absent
        exact absent leafAny
    · intro wanted
      by_cases there : PolicyAt (deleteOutOfSet tree userSet (upper.length + 1))
          (upper.length + 1) policy
      · rcases there with ⟨node, member, place, same⟩
        refine ⟨node, (rule node).mpr (.inl ⟨member, ?_⟩), place, same⟩
        exact fun anyLeaf => wanted.2 (same.symm.trans anyLeaf.2)
      · exact ⟨_, (rule _).mpr (.inr ⟨policy, wanted.1, there, rfl⟩), rfl, rfl⟩
  · intro node member index inside place
    have inTree := old member (by omega)
    exact ⟨levels.holds inTree.1 inside place, inTree.2⟩
  · intro node member index inside place other
    rw [expects_iff, levels.upperExpects node (old member (by omega)).1 index inside place]
  · intro index inside policy leads
    have wide : Kept der length start (fun policy => policy ∈ userSet ∧ policy ≠ oidAnyPolicy)
        upper (index + 1) policy := leads.mono (fun _ bottom => bottom) (fun _ _ held => held.1)
    have asserted : Kept der length start (Asserted der length start leaf upper) upper
        (index + 1) policy := by
      apply Kept.of_expected _ wide
      -- an expanded anyPolicy at the leaf asserts whatever the level above expects
      intro child _ expected
      have lowest := levels.level 0 (Nat.zero_le _) oidAnyPolicy
      rw [Nat.sub_zero, kept_zero_iff] at lowest
      exact asserted_any (lowest.mp present) expected
    rcases (levels.level (index + 1) inside policy).mpr asserted with ⟨node, member, place, same⟩
    have kind := leads.1.2
    rw [← same] at kind
    refine ⟨node, (rule node).mpr (.inl ⟨kept.mpr ⟨member, kind⟩, ?_⟩), by omega, same⟩
    exact fun lowest => absurd lowest.1 (by omega)

theorem LevelTree.trimmed_level_iff
    (levels : LevelTree der length start (Asserted der length start leaf upper)
      (fun policy => [policy]) upper tree)
    (allowed : ∀ cert ∈ upper, MappingsAllowed der cert)
    (present : PolicyAt tree (upper.length + 1) oidAnyPolicy)
    (trimmed : intersectInitialPolicySet tree userSet (upper.length + 1) = some final)
    (inside : index ≤ upper.length) :
    PolicyAt final (upper.length + 1 - index) policy ↔
      EndsInSet der length start userSet upper index policy := by
  rw [(trimmed_eq levels.toLeveled trimmed).1, ← leads_heldInSet_iff allowed]
  exact pruned_level_iff (levels.materialised present) inside

/-- With anyPolicy throughout, the trimmed tree hangs together when the set does. -/
theorem LevelTree.trimmed_parented_iff
    (levels : LevelTree der length start (Asserted der length start leaf upper)
      (fun policy => [policy]) upper tree)
    (allowed : ∀ cert ∈ upper, MappingsAllowed der cert)
    (present : PolicyAt tree (upper.length + 1) oidAnyPolicy)
    (trimmed : intersectInitialPolicySet tree userSet (upper.length + 1) = some final) :
    Parented final ↔ RootedInSet der length start userSet upper := by
  have bounded (node : PolicyNode) (member : node ∈ final) : node.depth ≤ upper.length + 1 :=
    trimmed_bounded levels.toLeveled trimmed member
  have specific (node : PolicyNode) (member : node ∈ final) (inner : 0 < node.depth) :
      node.validPolicy ≠ oidAnyPolicy := by
    have limit := bounded node member
    have inside : upper.length + 1 - node.depth ≤ upper.length := by omega
    have ends := (levels.trimmed_level_iff allowed present trimmed inside).mp
      ⟨node, member, by omega, rfl⟩
    exact ends.specific allowed
  have parents := parented_iff_expects (trimmed_hasRoot levels.toLeveled trimmed) bounded specific
  have hangs := parents.trans (Levels.parents_iff PolicyNode.validPolicy
    (fun index policy => Holds der length start (upper.drop index) policy ∧ policy ∈ userSet)
    (fun index parent child => child ∈ expectedUnder der start (upper.drop index) parent)
    (fun index inside policy => levels.trimmed_level_iff allowed present trimmed inside)
    (by
      intro node member index inside place other
      have old := (trimmed_old levels.toLeveled trimmed member (by omega)).1
      rw [expects_iff, levels.upperExpects node old index inside place]))
  have reorder (index : Nat) (policy : ObjectIdentifier) :
      (∃ parent, (Holds der length start (upper.drop index) parent ∧ parent ∈ userSet) ∧
        policy ∈ expectedUnder der start (upper.drop index) parent) ↔
      ∃ parent ∈ userSet, Holds der length start (upper.drop index) parent ∧
        policy ∈ expectedUnder der start (upper.drop index) parent := by
    simp only [and_comm (b := _ ∈ userSet), and_assoc]
  rw [hangs]
  simp only [reorder]
  rfl

end WithinSet

section Verdict

variable {der : DerCodec} {policy : ValidationPolicy} {verifier : SignatureVerifier}
variable {leaf : Certificate} {upper : List Certificate} {tree final : PolicyTree}

/-- The tree at the end of the loop, and what the wrap-up makes of it. -/
theorem trimPolicyTree_wellFormed_iff {userSet : List ObjectIdentifier} {length : Nat}
    {start : PolicyCounters}
    (levels : LevelTree der length start (Asserted der length start leaf upper)
      (fun policy => [policy]) upper tree)
    (allowed : ∀ cert ∈ upper, MappingsAllowed der cert)
    (trimmed : trimPolicyTree userSet (upper.length + 1) (some tree) = some final) :
    WellFormed userSet (upper.length + 1) final ↔
      (AnyAlong der length start (leaf :: upper) →
        userSet = [] ∨ RootedInSet der length start userSet upper) ∧
      (¬AnyAlong der length start (leaf :: upper) →
        NoOrphans der length start leaf upper ∨
          (userSet ≠ [] ∧ ∃ top, EndsAt der length start leaf upper upper.length top ∧
            top ∉ userSet)) := by
  have leafAny := levels.any_leaf_iff allowed
  unfold trimPolicyTree at trimmed
  by_cases empty : userSet = []
  · subst empty
    cases Option.some.inj trimmed
    have formed : WellFormed [] (upper.length + 1) tree ↔ Parented tree := by
      apply wellFormed_iff_parented levels.root
      · rcases levels.lowest with ⟨node, member, place⟩
        exact ⟨node, member, by omega⟩
      · exact levels.parented
      · exact fun nonempty => absurd rfl nonempty
    rw [formed]
    by_cases everywhere : AnyAlong der length start (leaf :: upper)
    · simp [everywhere, levels.toLayered.parented_of_any (leafAny.mpr everywhere)]
    · simp [everywhere, levels.parented_iff (mt leafAny.mp everywhere)]
  · rw [List.isEmpty_eq_false_iff.mpr empty, if_neg (by decide), Option.bind_some] at trimmed
    rw [trimmed_wellFormed_iff levels.toLeveled trimmed]
    by_cases everywhere : AnyAlong der length start (leaf :: upper)
    · simp [everywhere, empty,
        levels.trimmed_parented_iff allowed (leafAny.mpr everywhere) trimmed]
    · have fixed := mt leafAny.mp everywhere
      have lost : (∃ other ∈ tree, Doomed tree userSet other) ↔
          ∃ top, EndsAt der length start leaf upper upper.length top ∧ top ∉ userSet := by
        have highest (top : ObjectIdentifier) := levels.level upper.length (Nat.le_refl _) top
        rw [Nat.add_sub_cancel_left] at highest
        constructor
        · intro found
          rcases found with ⟨other, member, doomed⟩
          have place := (levels.toLeveled.doomed_iff userSet fixed member).mp doomed
          exact ⟨other.validPolicy,
            (highest other.validPolicy).mp ⟨other, member, place.1, rfl⟩, place.2⟩
        · intro found
          rcases found with ⟨top, ends, outside⟩
          rcases (highest top).mpr ends with ⟨other, member, place, rfl⟩
          exact ⟨other, member, (levels.toLeveled.doomed_iff userSet fixed member).mpr ⟨place, outside⟩⟩
      simp only [everywhere, empty, false_imp_iff, true_and, not_false_iff, true_imp_iff, ne_eq,
        ← lost]
      by_cases doomed : ∃ other ∈ tree, Doomed tree userSet other
      · exact iff_of_true (trimmed_cascaded levels.toLeveled fixed doomed trimmed) (.inr doomed)
      · have whole : ∀ other ∈ tree, ¬Doomed tree userSet other :=
          fun other member lost => doomed ⟨other, member, lost⟩
        have same (node : PolicyNode) : node ∈ final ↔ node ∈ tree :=
          trimmed_whole levels.toLeveled fixed whole trimmed
        rw [or_iff_left doomed, ← levels.parented_iff fixed]
        unfold Parented
        simp only [same]

theorem chainWalk_tree {anchor : TrustAnchor}
    (walked : chainWalk der policy verifier (leaf :: upper) leaf anchor = .ok (some final)) :
    ∃ tree, LevelTree der (leaf :: upper).length (initialCounters policy (leaf :: upper))
        (Asserted der (leaf :: upper).length (initialCounters policy (leaf :: upper)) leaf upper)
        (fun policy => [policy]) upper tree ∧
      trimPolicyTree policy.initialPolicySet (upper.length + 1) (some tree) = some final ∧
      ∀ cert ∈ upper, MappingsAllowed der cert := by
  rcases chainWalk_accepts_iff.mp walked with ⟨_, state, looped, wrapped⟩
  rcases wrapUp_ok_iff.mp wrapped with ⟨_, _, same, _⟩
  have allowed := policyWalk_allowed looped
  rcases policyWalk_ok_iff.mp looped with ⟨_, _, rfl⟩
  have initial : (initialPolicyState policy (leaf :: upper)).policyTree = some initPolicyTree := rfl
  have levels := levels_processedUnder der (upper.length + 1) leaf initial upper allowed
  rw [Nat.sub_self] at levels
  cases current : (processed der leaf 0 (upper.length + 1)
      (policiesUnder der (upper.length + 1) (initialPolicyState policy (leaf :: upper))
        upper)).policyTree with
  | none =>
      rw [current] at same
      unfold trimPolicyTree at same
      split at same <;> cases same
  | some tree =>
      rw [current] at levels same
      exact ⟨tree, levels, same.symm, allowed⟩

end Verdict

/-- The returned tree is well formed exactly when the policies hang together. -/
theorem validatePath_tree_wellFormed_iff (der : DerCodec) (policy : ValidationPolicy)
    (verifier : SignatureVerifier) (chain : List Certificate) (anchors : List TrustAnchor)
    (path : ValidatedPath) (tree : PolicyTree)
    (accepted : validatePath der policy verifier chain anchors = .ok path)
    (returned : path.validPolicyTree = some tree) :
    WellFormed policy.initialPolicySet chain.length tree ↔ TreeRooted der policy chain := by
  rcases validatePath_ok accepted with ⟨leaf, lastCert, anchor, current, first, _, _, _, walked, made⟩
  have same : current = some tree := by
    rw [made] at returned
    exact returned
  cases chain with
  | nil => cases first
  | cons head upper =>
      cases Option.some.inj first
      rw [same] at walked
      rcases chainWalk_tree walked with ⟨before, levels, trimmed, allowed⟩
      have formed := trimPolicyTree_wellFormed_iff levels allowed trimmed
      rw [anyAlong_chain_iff] at formed
      exact formed

section ShapeExample

open Concrete

private def shapeCodec : DerCodec := policyCodec [[testPolicy 1], [oidAnyPolicy]]

theorem validatePath_tree_wellFormed_iff_example :
    ∃ path tree, validatePath shapeCodec (explicitPolicy [testPolicy 1]) keyCopyVerifier
        (policyChain [testPolicy 1] [testPolicy 1]) policyAnchors = .ok path ∧
      path.validPolicyTree = some tree ∧
      (WellFormed (explicitPolicy [testPolicy 1]).initialPolicySet
          (policyChain [testPolicy 1] [testPolicy 1]).length tree ↔
        TreeRooted shapeCodec (explicitPolicy [testPolicy 1])
          (policyChain [testPolicy 1] [testPolicy 1])) := by
  rcases (ok_of_isSome (by decide +kernel) : ∃ path, validatePath shapeCodec
    (explicitPolicy [testPolicy 1]) keyCopyVerifier (policyChain [testPolicy 1] [testPolicy 1])
    policyAnchors = .ok path) with ⟨path, accepted⟩
  have computed : ((validatePath shapeCodec (explicitPolicy [testPolicy 1]) keyCopyVerifier
      (policyChain [testPolicy 1] [testPolicy 1]) policyAnchors).toOption.bind
        (·.validPolicyTree)).isSome = true := by
    decide +kernel
  rw [accepted] at computed
  rcases Option.isSome_iff_exists.mp computed with ⟨tree, returned⟩
  exact ⟨path, tree, accepted, returned, validatePath_tree_wellFormed_iff shapeCodec
    (explicitPolicy [testPolicy 1]) keyCopyVerifier (policyChain [testPolicy 1] [testPolicy 1])
    policyAnchors path tree accepted returned⟩

/-- Under a CA that asserts anyPolicy the leaf's policy is left without a parent. -/
theorem validatePath_tree_orphan :
    ¬∀ (der : DerCodec) (policy : ValidationPolicy) (verifier : SignatureVerifier)
        (chain : List Certificate) (anchors : List TrustAnchor) (path : ValidatedPath)
        (tree : PolicyTree),
      validatePath der policy verifier chain anchors = .ok path →
      path.validPolicyTree = some tree →
      WellFormed policy.initialPolicySet chain.length tree := by
  intro wellFormed
  rcases (ok_of_isSome (by decide +kernel) : ∃ path, validatePath shapeCodec
    (explicitPolicy [testPolicy 1]) keyCopyVerifier (policyChain [testPolicy 1] [oidAnyPolicy])
    policyAnchors = .ok path) with ⟨path, accepted⟩
  have computed : (validatePath shapeCodec (explicitPolicy [testPolicy 1]) keyCopyVerifier
      (policyChain [testPolicy 1] [oidAnyPolicy]) policyAnchors).toOption.bind
        (·.validPolicyTree) = some [rootNode, ⟨2, testPolicy 1, [testPolicy 1], []⟩] := by
    decide +kernel
  rw [accepted] at computed
  have formed := wellFormed _ _ _ _ _ _ _ accepted computed
  exact absurd (formed.parents ⟨2, testPolicy 1, [testPolicy 1], []⟩) (by decide)

end ShapeExample

end Pkix.Path
