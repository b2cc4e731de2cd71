import Pkix.Path.PolicyInvariants

/-! The intersection of a policy tree with the initial policy set: which nodes stay,
and when anything is left. -/

namespace Pkix.Path

/-- The node is listed for deletion: it has an anyPolicy parent and a policy outside
the set. -/
def Doomed (tree : PolicyTree) (userSet : List ObjectIdentifier) (node : PolicyNode) : Prop :=
  1 ≤ node.depth ∧ PolicyAt tree (node.depth - 1) oidAnyPolicy ∧
    node.validPolicy ≠ oidAnyPolicy ∧ node.validPolicy ∉ userSet

def undoomed (tree : PolicyTree) (userSet : List ObjectIdentifier) : PolicyTree :=
  tree.filter (fun node =>
    !(nodesToDelete tree userSet).contains (node.depth, node.validPolicy))

/-- The node outlives the deletions and the cascade. -/
def Stays (tree : PolicyTree) (userSet : List ObjectIdentifier) (node : PolicyNode) : Prop :=
  (∀ other ∈ tree, ¬Doomed tree userSet other) ∨
    (¬Doomed tree userSet node ∧ (node.depth ≤ 1 ∨
      Levels.Rooted PolicyNode.depth isParent (undoomed tree userSet) 1 node))

section Delete

variable {tree : PolicyTree} {userSet : List ObjectIdentifier} {node : PolicyNode}

theorem mem_nodesToDelete_iff {depth : Nat} {policy : ObjectIdentifier} :
    (depth, policy) ∈ nodesToDelete tree userSet ↔
      ∃ node ∈ tree, node.depth = depth ∧ node.validPolicy = policy ∧
        Doomed tree userSet node := by
  unfold nodesToDelete validPolicyNodeSet Doomed
  simp only [List.mem_map, List.mem_filter, Bool.and_eq_true, decide_eq_true_eq,
    any_isAnyAt_iff, bne_iff_ne, ne_eq, Bool.not_eq_true', ← Bool.not_eq_true,
    List.contains_iff_mem, Prod.mk.injEq]
  constructor
  · rintro ⟨node, ⟨⟨member, inner, parented⟩, specific, outside⟩, level, same⟩
    exact ⟨node, member, level, same, inner, parented, specific, outside⟩
  · rintro ⟨node, member, level, same, inner, parented, specific, outside⟩
    exact ⟨node, ⟨⟨member, inner, parented⟩, specific, outside⟩, level, same⟩

theorem doomed_pair_iff (member : node ∈ tree) :
    (node.depth, node.validPolicy) ∈ nodesToDelete tree userSet ↔ Doomed tree userSet node := by
  rw [mem_nodesToDelete_iff]
  constructor
  · rintro ⟨other, _, level, same, doomed⟩
    unfold Doomed at doomed ⊢
    rw [level, same] at doomed
    exact doomed
  · intro doomed
    exact ⟨node, member, rfl, rfl, doomed⟩

theorem mem_undoomed_iff :
    node ∈ undoomed tree userSet ↔ node ∈ tree ∧ ¬Doomed tree userSet node := by
  unfold undoomed
  rw [List.mem_filter, Bool.not_eq_true', ← Bool.not_eq_true, List.contains_iff_mem]
  exact and_congr_right fun member => not_congr (doomed_pair_iff member)

theorem nodesToDelete_isEmpty_iff :
    (nodesToDelete tree userSet).isEmpty = true ↔
      ∀ other ∈ tree, ¬Doomed tree userSet other := by
  rw [List.isEmpty_iff, List.eq_nil_iff_forall_not_mem]
  constructor
  · intro empty other member doomed
    exact empty (other.depth, other.validPolicy) ((doomed_pair_iff member).mpr doomed)
  · intro safe pair listed
    obtain ⟨other, member, _, _, doomed⟩ := mem_nodesToDelete_iff.mp listed
    exact safe other member doomed

theorem mem_deleteOutOfSet_iff {leafDepth : Nat} (positive : 0 < leafDepth)
    (bounded : ∀ node ∈ tree, node.depth ≤ leafDepth) :
    node ∈ deleteOutOfSet tree userSet leafDepth ↔ node ∈ tree ∧ Stays tree userSet node := by
  unfold deleteOutOfSet Stays
  dsimp only
  by_cases safe : (nodesToDelete tree userSet).isEmpty = true
  · rw [if_pos safe, iff_self_and]
    exact fun _ => .inl (nodesToDelete_isEmpty_iff.mp safe)
  · rw [if_neg safe, cascadeDelete_eq]
    have unsafe_tree := mt nodesToDelete_isEmpty_iff.mpr safe
    refine Levels.mem_cascadeBelow_iff.trans ?_
    rw [show tree.filter _ = undoomed tree userSet from rfl, mem_undoomed_iff]
    constructor
    · rintro ⟨⟨member, spared⟩, place⟩
      refine ⟨member, .inr ⟨spared, ?_⟩⟩
      rcases place with high | low | rooted
      · exact .inl high
      · have limit := bounded node member
        omega
      · exact .inr rooted
    · rintro ⟨member, whole | ⟨spared, place⟩⟩
      · exact absurd whole unsafe_tree
      · refine ⟨⟨member, spared⟩, ?_⟩
        rcases place with high | rooted
        · exact .inl high
        · exact .inr (.inr rooted)

/-- A larger set dooms fewer nodes, so what stays under a set stays under a larger one. -/
theorem Stays.mono {larger : List ObjectIdentifier} (included : userSet ⊆ larger)
    (stays : Stays tree userSet node) : Stays tree larger node := by
  have fewer {other : PolicyNode} (doomed : Doomed tree larger other) :
      Doomed tree userSet other :=
    ⟨doomed.1, doomed.2.1, doomed.2.2.1, fun inside => doomed.2.2.2 (included inside)⟩
  rcases stays with whole | ⟨spared, place⟩
  · exact .inl fun other member doomed => whole other member (fewer doomed)
  · refine .inr ⟨fun doomed => spared (fewer doomed), ?_⟩
    rcases place with high | rooted
    · exact .inl high
    · refine .inr (rooted.mono ?_)
      intro other inside
      obtain ⟨member, safe⟩ := mem_undoomed_iff.mp inside
      exact mem_undoomed_iff.mpr ⟨member, fun doomed => safe (fewer doomed)⟩

theorem Stays.spared (stays : Stays tree userSet node) (member : node ∈ tree) :
    ¬Doomed tree userSet node := by
  rcases stays with whole | ⟨safe, _⟩
  · exact whole node member
  · exact safe

/-- Without anyPolicy under the root only the top level has anyPolicy parents. -/
theorem Leveled.doomed_iff {depth : Nat} (leveled : Leveled depth tree)
    (userSet : List ObjectIdentifier)
    (fixed : ¬PolicyAt tree depth oidAnyPolicy) (member : node ∈ tree) :
    Doomed tree userSet node ↔ node.depth = 1 ∧ node.validPolicy ∉ userSet := by
  constructor
  · rintro ⟨inner, parented, _, outside⟩
    refine ⟨?_, outside⟩
    by_contra deep
    exact fixed (leveled.any_descends (by omega) parented)
  · rintro ⟨top, outside⟩
    have under : PolicyAt tree (node.depth - 1) oidAnyPolicy :=
      ⟨rootNode, leveled.hasRoot, by rw [top]; rfl, rfl⟩
    exact ⟨by omega, under, leveled.specific fixed member (by omega), outside⟩

/-- The anyPolicy nodes down to an anyPolicy leaf outlive the deletions. -/
theorem Layered.rooted_any {depth : Nat} (layered : Layered depth tree)
    (userSet : List ObjectIdentifier) (present : PolicyAt tree depth oidAnyPolicy) (level : Nat) (inner : 1 ≤ level)
    (bounded : level ≤ depth) :
    ∃ node, node.depth = level ∧ node.validPolicy = oidAnyPolicy ∧
      Levels.Rooted PolicyNode.depth isParent (undoomed tree userSet) 1 node := by
  have safe {node : PolicyNode} (member : node ∈ tree)
      (anyPolicy : node.validPolicy = oidAnyPolicy) : node ∈ undoomed tree userSet :=
    mem_undoomed_iff.mpr ⟨member, fun doomed => doomed.2.2.1 anyPolicy⟩
  induction level with
  | zero => omega
  | succ level ih =>
      obtain ⟨node, member, place, anyPolicy⟩ : PolicyAt tree (level + 1) oidAnyPolicy := by
        apply layered.any_climbs (level + 1) (depth - (level + 1))
        rw [Nat.add_sub_cancel' bounded]
        exact present
      refine ⟨node, place, anyPolicy, ?_⟩
      by_cases top : level = 0
      · exact .here (safe member anyPolicy) (by omega)
      · obtain ⟨parent, above, parentAny, rooted⟩ := ih (by omega) (by omega)
        exact .up (safe member anyPolicy) rooted (by omega) (isParent_iff.mpr (.inr parentAny))

/-- With an anyPolicy leaf, what stays is anyPolicy and the policies of the set. -/
theorem mem_deleteOutOfSet_any_iff {leafDepth : Nat} (positive : 0 < leafDepth)
    (layered : Layered leafDepth tree) (present : PolicyAt tree leafDepth oidAnyPolicy) :
    node ∈ deleteOutOfSet tree userSet leafDepth ↔
      node ∈ tree ∧ (node.validPolicy = oidAnyPolicy ∨ node.validPolicy ∈ userSet) := by
  rw [mem_deleteOutOfSet_iff positive layered.bounded]
  apply and_congr_right
  intro member
  have limit := layered.bounded node member
  constructor
  · intro stays
    by_contra outside
    rw [not_or] at outside
    have inner : 1 ≤ node.depth := by
      by_contra top
      rw [layered.root node member (by omega)] at outside
      exact outside.1 rfl
    have parented : PolicyAt tree (node.depth - 1) oidAnyPolicy := by
      apply layered.any_climbs (node.depth - 1) (leafDepth - (node.depth - 1))
      rw [Nat.add_sub_cancel' (by omega)]
      exact present
    exact stays.spared member ⟨inner, parented, outside.1, outside.2⟩
  · intro kind
    have spared : ¬Doomed tree userSet node :=
      fun doomed => kind.elim doomed.2.2.1 doomed.2.2.2
    refine .inr ⟨spared, ?_⟩
    by_cases high : node.depth ≤ 1
    · exact .inl high
    · rcases layered.rooted_any userSet present (node.depth - 1) (by omega) (by omega)
        with ⟨parent, place, anyPolicy, rooted⟩
      exact .inr (.up (mem_undoomed_iff.mpr ⟨member, spared⟩) rooted (by omega)
        (isParent_iff.mpr (.inr anyPolicy)))

end Delete

section Materialise

variable {tree : PolicyTree} {userSet : List ObjectIdentifier} {node : PolicyNode}
variable {leafDepth : Nat}

theorem materialiseLeaves_of_no_any (absent : ¬PolicyAt tree leafDepth oidAnyPolicy) :
    materialiseLeaves tree userSet leafDepth = tree := by
  unfold materialiseLeaves
  cases found : tree.find? (isAnyAt leafDepth) with
  | none => rfl
  | some leafAny =>
      have holds : tree.any (isAnyAt leafDepth) = true := by
        rw [List.any_eq_true]
        exact ⟨leafAny, List.mem_of_find?_eq_some found, List.find?_some found⟩
      exact absurd (any_isAnyAt_iff.mp holds) absent

/-- The anyPolicy leaf is replaced by a leaf for each policy of the set that has none. -/
theorem mem_materialiseLeaves_iff (userSet : List ObjectIdentifier)
    (present : PolicyAt tree leafDepth oidAnyPolicy) :
    ∃ qualifiers, ∀ node, node ∈ materialiseLeaves tree userSet leafDepth ↔
      (node ∈ tree ∧ ¬(node.depth = leafDepth ∧ node.validPolicy = oidAnyPolicy)) ∨
      ∃ policy ∈ userSet, ¬PolicyAt tree leafDepth policy ∧
        node = freshNode leafDepth policy qualifiers := by
  cases found : tree.find? (isAnyAt leafDepth) with
  | none =>
      have missing := List.find?_eq_none.mp found
      obtain ⟨leaf, member, level, anyPolicy⟩ := present
      exact absurd (by simp [isAnyAt, level, anyPolicy]) (missing leaf member)
  | some leafAny =>
      refine ⟨leafAny.qualifiers, fun node => ?_⟩
      have fresh {policy : ObjectIdentifier} :
          (!(((tree.filter (fun node => node.depth == leafDepth)).map (·.validPolicy)).contains
            policy)) = true ↔ ¬PolicyAt tree leafDepth policy := by
        rw [Bool.not_eq_true', ← Bool.not_eq_true, List.contains_iff_mem]
        simp [PolicyAt, and_assoc]
      unfold materialiseLeaves
      rw [found]
      simp only [List.mem_filter, List.mem_append, List.mem_map, fresh]
      have isAny : (!isAnyAt leafDepth node) = true ↔
          ¬(node.depth = leafDepth ∧ node.validPolicy = oidAnyPolicy) := by
        rw [Bool.not_eq_true', ← Bool.not_eq_true, isAnyAt, Bool.and_eq_true, beq_iff_eq,
          beq_iff_eq]
      rw [isAny]
      constructor
      · rintro ⟨member | ⟨policy, ⟨inside, absent⟩, rfl⟩, other⟩
        · exact .inl ⟨member, other⟩
        · exact .inr ⟨policy, inside, absent, rfl⟩
      · rintro (⟨member, other⟩ | ⟨policy, inside, absent, rfl⟩)
        · exact ⟨.inl member, other⟩
        · refine ⟨.inr ⟨policy, ⟨inside, absent⟩, rfl⟩, ?_⟩
          rintro ⟨_, rfl⟩
          exact absent present

theorem mem_materialiseLeaves_cases (member : node ∈ materialiseLeaves tree userSet leafDepth) :
    node ∈ tree ∨ (node.depth = leafDepth ∧ node.validPolicy ∈ userSet) := by
  by_cases present : PolicyAt tree leafDepth oidAnyPolicy
  · obtain ⟨qualifiers, rule⟩ := mem_materialiseLeaves_iff userSet present
    rcases (rule node).mp member with ⟨inside, _⟩ | ⟨policy, inSet, _, rfl⟩
    · exact .inl inside
    · exact .inr ⟨rfl, inSet⟩
  · rw [materialiseLeaves_of_no_any present] at member
    exact .inl member

theorem materialiseLeaves_bounded (bounded : ∀ node ∈ tree, node.depth ≤ leafDepth) :
    ∀ node ∈ materialiseLeaves tree userSet leafDepth, node.depth ≤ leafDepth := by
  intro node member
  rcases mem_materialiseLeaves_cases member with inside | ⟨lowest, _⟩
  · exact bounded node inside
  · exact Nat.le_of_eq lowest

/-- A leaf level is left when a specific leaf is there, or an anyPolicy leaf and a
specific policy to put in its place. -/
theorem materialiseLeaves_leaf_iff :
    (∃ node ∈ materialiseLeaves tree userSet leafDepth, node.depth = leafDepth) ↔
      ∃ leaf ∈ tree, leaf.depth = leafDepth ∧
        (leaf.validPolicy ≠ oidAnyPolicy ∨ ∃ policy ∈ userSet, policy ≠ oidAnyPolicy) := by
  by_cases present : PolicyAt tree leafDepth oidAnyPolicy
  · obtain ⟨qualifiers, rule⟩ := mem_materialiseLeaves_iff userSet present
    simp only [rule]
    constructor
    · rintro ⟨node, ⟨member, other⟩ | ⟨policy, inside, absent, rfl⟩, level⟩
      · exact ⟨node, member, level, .inl fun anyPolicy => other ⟨level, anyPolicy⟩⟩
      · obtain ⟨leafAny, member, leafLevel, anyPolicy⟩ := present
        refine ⟨leafAny, member, leafLevel, .inr ⟨policy, inside, ?_⟩⟩
        rintro rfl
        exact absent ⟨leafAny, member, leafLevel, anyPolicy⟩
    · rintro ⟨leaf, member, level, specific | ⟨policy, inside, specific⟩⟩
      · exact ⟨leaf, .inl ⟨member, fun anyLeaf => specific anyLeaf.2⟩, level⟩
      · by_cases there : PolicyAt tree leafDepth policy
        · obtain ⟨node, member, level, same⟩ := there
          refine ⟨node, .inl ⟨member, fun anyLeaf => specific ?_⟩, level⟩
          rw [← same]
          exact anyLeaf.2
        · exact ⟨_, .inr ⟨policy, inside, there, rfl⟩, rfl⟩
  · rw [materialiseLeaves_of_no_any present]
    constructor
    · rintro ⟨node, member, level⟩
      refine ⟨node, member, level, .inl ?_⟩
      intro anyPolicy
      exact present ⟨node, member, level, anyPolicy⟩
    · rintro ⟨node, member, level, _⟩
      exact ⟨node, member, level⟩

/-- A leaf of the tree carries the intersection: it stays, and it is specific or can be
replaced by a specific policy of the set. -/
def CarriesIntersection (tree : PolicyTree) (userSet : List ObjectIdentifier)
    (leafDepth : Nat) (leaf : PolicyNode) : Prop :=
  leaf ∈ tree ∧ leaf.depth = leafDepth ∧ Stays tree userSet leaf ∧
    (leaf.validPolicy ≠ oidAnyPolicy ∨ ∃ policy ∈ userSet, policy ≠ oidAnyPolicy)

theorem deleteOutOfSet_bounded (positive : 0 < leafDepth)
    (bounded : ∀ node ∈ tree, node.depth ≤ leafDepth) :
    ∀ node ∈ deleteOutOfSet tree userSet leafDepth, node.depth ≤ leafDepth :=
  fun node member => bounded node ((mem_deleteOutOfSet_iff positive bounded).mp member).1

theorem intersectInitialPolicySet_eq (positive : 0 < leafDepth)
    (bounded : ∀ node ∈ tree, node.depth ≤ leafDepth) :
    intersectInitialPolicySet tree userSet leafDepth =
      if (materialiseLeaves (deleteOutOfSet tree userSet leafDepth) userSet leafDepth).any
          (fun node => node.depth == leafDepth) then
        some (prunePolicyTree leafDepth
          (materialiseLeaves (deleteOutOfSet tree userSet leafDepth) userSet leafDepth))
      else none :=
  policyTreePostOpPrune_eq positive
    (materialiseLeaves_bounded (deleteOutOfSet_bounded positive bounded))

/-- The intersection is not NULL exactly when some leaf carries it. -/
theorem intersectInitialPolicySet_isSome_iff (userSet : List ObjectIdentifier)
    (positive : 0 < leafDepth)
    (bounded : ∀ node ∈ tree, node.depth ≤ leafDepth) :
    (intersectInitialPolicySet tree userSet leafDepth).isSome = true ↔
      ∃ leaf, CarriesIntersection tree userSet leafDepth leaf := by
  have kept : (materialiseLeaves (deleteOutOfSet tree userSet leafDepth) userSet leafDepth).any
        (fun node => node.depth == leafDepth) = true ↔
      ∃ leaf, CarriesIntersection tree userSet leafDepth leaf := by
    rw [List.any_eq_true]
    simp only [beq_iff_eq, materialiseLeaves_leaf_iff, mem_deleteOutOfSet_iff positive bounded,
      CarriesIntersection, and_assoc]
    exact exists_congr fun leaf => and_congr_right fun _ => and_left_comm
  rw [intersectInitialPolicySet_eq positive bounded, ← kept]
  split
  · rename_i present
    simp [present]
  · rename_i absent
    simp [absent]

theorem CarriesIntersection.mono {larger : List ObjectIdentifier} {leaf : PolicyNode}
    (included : userSet ⊆ larger) (carries : CarriesIntersection tree userSet leafDepth leaf) :
    CarriesIntersection tree larger leafDepth leaf := by
  obtain ⟨member, level, stays, specific | ⟨policy, inside, specific⟩⟩ := carries
  · exact ⟨member, level, stays.mono included, .inl specific⟩
  · exact ⟨member, level, stays.mono included, .inr ⟨policy, included inside, specific⟩⟩

end Materialise

end Pkix.Path
