import Mathlib.Data.List.Perm.Basic
import Pkix.Path.PolicyLevelWalk

/-! What a list of policy mappings does to a tree: the expected sets it leaves behind and the
nodes it adds below an anyPolicy node. -/

namespace Pkix.Path

/-- The policies that the mappings pair with one issuer policy, in their order. -/
def subjectsOf (mappings : PolicyMappings) (policy : ObjectIdentifier) : List ObjectIdentifier :=
  (mappings.filter (fun mapping => mapping.issuerDomainPolicy == policy)).map
    (·.subjectDomainPolicy)

def remapAll (mappings : PolicyMappings) (policy : ObjectIdentifier)
    (expected : List ObjectIdentifier) : List ObjectIdentifier :=
  mappings.foldl (remap policy) expected

/-- One node after all mappings. -/
def mappedFrom (depth : Nat) (mappings : PolicyMappings) (node : PolicyNode) : PolicyNode :=
  mappings.foldl (fun node mapping => expectMapped depth mapping node) node

/-- The node that a mapping below anyPolicy fills in. -/
def blankNode (depth : Nat) (qualifiers : List PolicyQualifierInfo) (policy : ObjectIdentifier) :
    PolicyNode :=
  { depth, validPolicy := policy, expectedPolicySet := [], qualifiers }

section Subjects

variable {mappings : PolicyMappings} {policy : ObjectIdentifier}

theorem mem_subjectsOf {subject : ObjectIdentifier} :
    subject ∈ subjectsOf mappings policy ↔
      ∃ mapping ∈ mappings, mapping.issuerDomainPolicy = policy ∧
        mapping.subjectDomainPolicy = subject := by
  simp [subjectsOf, and_assoc]

theorem subjectsOf_append (first second : PolicyMappings) (policy : ObjectIdentifier) :
    subjectsOf (first ++ second) policy = subjectsOf first policy ++ subjectsOf second policy := by
  simp [subjectsOf]

theorem subjectsOf_issuer (mapping : PolicyMapping) :
    subjectsOf [mapping] mapping.issuerDomainPolicy = [mapping.subjectDomainPolicy] := by
  simp [subjectsOf]

theorem subjectsOf_other {mapping : PolicyMapping} (other : mapping.issuerDomainPolicy ≠ policy) :
    subjectsOf [mapping] policy = [] := by
  simp [subjectsOf, other]

end Subjects

section ExpectedSet

variable {policy : ObjectIdentifier} {expected : List ObjectIdentifier}

theorem mem_remap_issuer {mapping : PolicyMapping} {other : ObjectIdentifier} :
    other ∈ remap mapping.issuerDomainPolicy expected mapping ↔
      (other ∈ expected ∧ other ≠ mapping.issuerDomainPolicy) ∨
        other = mapping.subjectDomainPolicy := by
  have kept : other ∈ expected.filter (fun policy => policy != mapping.issuerDomainPolicy) ↔
      other ∈ expected ∧ other ≠ mapping.issuerDomainPolicy := by
    rw [List.mem_filter, bne_iff_ne]
  rw [remap, if_pos rfl, ← kept]
  dsimp only
  split
  · rename_i present
    rw [List.contains_iff_mem] at present
    constructor
    · exact .inl
    · intro either
      rcases either with inside | same
      · exact inside
      · rw [same]
        exact present
  · rw [List.mem_append, List.mem_singleton]

theorem remapAll_snoc (done : PolicyMappings) (mapping : PolicyMapping) :
    remapAll (done ++ [mapping]) policy expected =
      remap policy (remapAll done policy expected) mapping := by
  rw [remapAll, List.foldl_append]
  rfl

/-- Every policy but the node's own is only ever added. -/
theorem mem_remapAll_other (mappings : PolicyMappings) {other : ObjectIdentifier}
    (apart : other ≠ policy) :
    other ∈ remapAll mappings policy expected ↔
      other ∈ expected ∨ other ∈ subjectsOf mappings policy := by
  induction mappings using List.reverseRecOn with
  | nil => simp [remapAll, subjectsOf]
  | append_singleton done mapping ih =>
      rw [remapAll_snoc, subjectsOf_append, List.mem_append]
      by_cases issuer : mapping.issuerDomainPolicy = policy
      · subst issuer
        rw [mem_remap_issuer, subjectsOf_issuer, List.mem_singleton, ih]
        simp [apart, or_assoc]
      · rw [remap, if_neg (Ne.symm issuer), subjectsOf_other issuer, ih]
        simp

/-- The node's own policy is removed by every mapping of it, so the last one decides. -/
theorem mem_remapAll_own {mappings : PolicyMappings} (issuer : IssuerPolicy mappings policy) :
    policy ∈ remapAll mappings policy expected ↔
      (subjectsOf mappings policy).getLast? = some policy := by
  induction mappings using List.reverseRecOn with
  | nil =>
      obtain ⟨_, member, _⟩ := issuer
      cases member
  | append_singleton done mapping ih =>
      rw [remapAll_snoc, subjectsOf_append]
      by_cases last : mapping.issuerDomainPolicy = policy
      · subst last
        rw [mem_remap_issuer, subjectsOf_issuer, List.getLast?_concat]
        simp [eq_comm]
      · have before : IssuerPolicy done policy := by
          obtain ⟨found, member, same⟩ := issuer
          rcases List.mem_append.mp member with inside | added
          · exact ⟨found, inside, same⟩
          · rw [List.mem_singleton.mp added] at same
            exact absurd same last
        rw [remap, if_neg (Ne.symm last), subjectsOf_other last, List.append_nil]
        exact ih before

end ExpectedSet

section Nodes

variable {depth : Nat} {mappings : PolicyMappings} {node : PolicyNode}

theorem mappedFrom_snoc (done : PolicyMappings) (mapping : PolicyMapping) (node : PolicyNode) :
    mappedFrom depth (done ++ [mapping]) node =
      expectMapped depth mapping (mappedFrom depth done node) := by
  rw [mappedFrom, List.foldl_append]
  rfl

@[simp] theorem expectMapped_qualifiers (mapping : PolicyMapping) (node : PolicyNode) :
    (expectMapped depth mapping node).qualifiers = node.qualifiers := by
  unfold expectMapped
  split <;> rfl

@[simp] theorem mappedFrom_depth : (mappedFrom depth mappings node).depth = node.depth := by
  induction mappings using List.reverseRecOn with
  | nil => rfl
  | append_singleton done mapping ih => rw [mappedFrom_snoc, expectMapped_depth, ih]

@[simp] theorem mappedFrom_validPolicy :
    (mappedFrom depth mappings node).validPolicy = node.validPolicy := by
  induction mappings using List.reverseRecOn with
  | nil => rfl
  | append_singleton done mapping ih => rw [mappedFrom_snoc, expectMapped_validPolicy, ih]

@[simp] theorem mappedFrom_qualifiers :
    (mappedFrom depth mappings node).qualifiers = node.qualifiers := by
  induction mappings using List.reverseRecOn with
  | nil => rfl
  | append_singleton done mapping ih => rw [mappedFrom_snoc, expectMapped_qualifiers, ih]

theorem mappedFrom_expected (lowest : node.depth = depth) :
    (mappedFrom depth mappings node).expectedPolicySet =
      remapAll mappings node.validPolicy node.expectedPolicySet := by
  induction mappings using List.reverseRecOn with
  | nil => rfl
  | append_singleton done mapping ih =>
      have place : (mappedFrom depth done node).depth = depth := by rw [mappedFrom_depth, lowest]
      rw [mappedFrom_snoc, expectMapped_expected place, mappedFrom_validPolicy, ih, remapAll_snoc]

theorem mappedFrom_untouched
    (untouched : ¬ (node.depth = depth ∧ IssuerPolicy mappings node.validPolicy)) :
    mappedFrom depth mappings node = node := by
  induction mappings with
  | nil => rfl
  | cons mapping mappings ih =>
      have other : ¬ (node.depth = depth ∧ node.validPolicy = mapping.issuerDomainPolicy) :=
        fun both => untouched ⟨both.1, mapping, List.mem_cons_self, both.2.symm⟩
      rw [mappedFrom, List.foldl_cons, expectMapped_of_ne other]
      apply ih
      intro both
      obtain ⟨lowest, later, member, same⟩ := both
      exact untouched ⟨lowest, later, List.mem_cons_of_mem _ member, same⟩

end Nodes

section Tree

variable {depth : Nat} {qualifiers : List PolicyQualifierInfo} {tree : PolicyTree}

/-- A node of the policy is there, or can be made below an anyPolicy node. -/
def Reachable (depth : Nat) (tree : PolicyTree) (policy : ObjectIdentifier) : Prop :=
  PolicyAt tree depth policy ∨ PolicyAt tree depth oidAnyPolicy

/-- The policies that the mappings add to the level. -/
def AddsPolicy (depth : Nat) (mappings : PolicyMappings) (tree : PolicyTree)
    (policy : ObjectIdentifier) : Prop :=
  IssuerPolicy mappings policy ∧ ¬ PolicyAt tree depth policy ∧ PolicyAt tree depth oidAnyPolicy

/-- The tree with a blank node for each policy added, all of them mapped. -/
structure MappedTree (depth : Nat) (qualifiers : List PolicyQualifierInfo)
    (mappings : PolicyMappings) (tree : PolicyTree) (added : List ObjectIdentifier)
    (result : PolicyTree) : Prop where
  distinct : added.Nodup
  adds : ∀ policy, policy ∈ added ↔ AddsPolicy depth mappings tree policy
  nodes : result =
    (tree ++ added.map (blankNode depth qualifiers)).map (mappedFrom depth mappings)

theorem policyAt_map {image : PolicyNode → PolicyNode} {policy : ObjectIdentifier}
    (places : ∀ node, (image node).depth = node.depth)
    (policies : ∀ node, (image node).validPolicy = node.validPolicy) :
    PolicyAt (tree.map image) depth policy ↔ PolicyAt tree depth policy := by
  simp [PolicyAt, places, policies]

theorem policyAt_blank {added : List ObjectIdentifier} {policy : ObjectIdentifier} :
    PolicyAt (tree ++ added.map (blankNode depth qualifiers)) depth policy ↔
      PolicyAt tree depth policy ∨ policy ∈ added := by
  simp [PolicyAt, blankNode, or_and_right, exists_or]

theorem MappedTree.policyAt_iff {mappings : PolicyMappings} {added : List ObjectIdentifier}
    {result : PolicyTree} (mapped : MappedTree depth qualifiers mappings tree added result)
    (policy : ObjectIdentifier) :
    PolicyAt result depth policy ↔
      PolicyAt tree depth policy ∨ AddsPolicy depth mappings tree policy := by
  rw [mapped.nodes, policyAt_map (fun _ => mappedFrom_depth) (fun _ => mappedFrom_validPolicy),
    policyAt_blank, mapped.adds]

theorem map_expectMapped_of_missing {mapping : PolicyMapping}
    (missing : ¬ PolicyAt tree depth mapping.issuerDomainPolicy) :
    tree.map (expectMapped depth mapping) = tree := by
  calc
    tree.map (expectMapped depth mapping) = tree.map id := by
      apply List.map_congr_left
      intro node member
      exact expectMapped_of_ne (fun both => missing ⟨node, member, both⟩)
    _ = tree := List.map_id tree

theorem addsPolicy_snoc {done : PolicyMappings} {mapping : PolicyMapping}
    {policy : ObjectIdentifier} :
    AddsPolicy depth (done ++ [mapping]) tree policy ↔
      AddsPolicy depth done tree policy ∨
        (mapping.issuerDomainPolicy = policy ∧ ¬ PolicyAt tree depth policy ∧
          PolicyAt tree depth oidAnyPolicy) := by
  rw [AddsPolicy, AddsPolicy, issuerPolicy_snoc, or_and_right]

theorem map_mappedFrom_snoc (done : PolicyMappings) (mapping : PolicyMapping)
    (nodes : PolicyTree) :
    nodes.map (mappedFrom depth (done ++ [mapping])) =
      (nodes.map (mappedFrom depth done)).map (expectMapped depth mapping) := by
  rw [List.map_map]
  apply List.map_congr_left
  intro node _
  exact mappedFrom_snoc done mapping node

/-- A mapping adds nothing where its policy is there, or no anyPolicy is. -/
theorem MappedTree.snoc {done : PolicyMappings} {added : List ObjectIdentifier}
    {result : PolicyTree} (mapped : MappedTree depth qualifiers done tree added result)
    (mapping : PolicyMapping) (settled : PolicyAt result depth mapping.issuerDomainPolicy ∨
      ¬ PolicyAt result depth oidAnyPolicy) :
    MappedTree depth qualifiers (done ++ [mapping]) tree added
      (result.map (expectMapped depth mapping)) := by
  refine ⟨mapped.distinct, ?_, ?_⟩
  · intro policy
    rw [mapped.adds, addsPolicy_snoc]
    constructor
    · exact .inl
    · intro either
      rcases either with before | ⟨same, absent, anyPolicy⟩
      · exact before
      · rcases settled with present | noAny
        · rw [same] at present
          exact ((mapped.policyAt_iff policy).mp present).resolve_left absent
        · exact absurd ((mapped.policyAt_iff _).mpr (.inl anyPolicy)) noAny
  · rw [map_mappedFrom_snoc, ← mapped.nodes]

theorem MappedTree.mappedNode {done : PolicyMappings} {added : List ObjectIdentifier}
    {result : PolicyTree} (mapped : MappedTree depth qualifiers done tree added result)
    {mapping : PolicyMapping} (missing : ¬ PolicyAt result depth mapping.issuerDomainPolicy)
    (anyPolicy : PolicyAt result depth oidAnyPolicy) :
    MappedTree depth qualifiers (done ++ [mapping]) tree (added ++ [mapping.issuerDomainPolicy])
      (result ++ [mappedNode depth qualifiers mapping]) := by
  have anyInTree : PolicyAt tree depth oidAnyPolicy :=
    ((mapped.policyAt_iff _).mp anyPolicy).elim id (·.2.2)
  rw [mapped.policyAt_iff, not_or] at missing
  have unmapped : ¬ IssuerPolicy done mapping.issuerDomainPolicy :=
    fun issuer => missing.2 ⟨issuer, missing.1, anyInTree⟩
  have fresh : mapping.issuerDomainPolicy ∉ added := by
    rw [mapped.adds]
    exact missing.2
  refine ⟨?_, ?_, ?_⟩
  · rw [List.nodup_append]
    refine ⟨mapped.distinct, by simp, ?_⟩
    intro policy inside other same
    rw [List.mem_singleton.mp same]
    exact fun equal => fresh (equal ▸ inside)
  · intro policy
    rw [List.mem_append, mapped.adds, addsPolicy_snoc, List.mem_singleton]
    constructor
    · intro either
      rcases either with before | same
      · exact .inl before
      · exact .inr ⟨same.symm, same ▸ missing.1, anyInTree⟩
    · intro either
      rcases either with before | ⟨same, _⟩
      · exact .inl before
      · exact .inr same.symm
  · have kept : result.map (Path.expectMapped depth mapping) = result := by
      apply map_expectMapped_of_missing
      rw [mapped.policyAt_iff, not_or]
      exact missing
    have filled : mappedFrom depth (done ++ [mapping])
        (blankNode depth qualifiers mapping.issuerDomainPolicy) =
          Path.mappedNode depth qualifiers mapping := by
      rw [mappedFrom_snoc, mappedFrom_untouched (fun both => unmapped both.2)]
      simp [Path.expectMapped, blankNode, Path.mappedNode]
    have longer : tree ++ (added ++ [mapping.issuerDomainPolicy]).map (blankNode depth qualifiers) =
        (tree ++ added.map (blankNode depth qualifiers)) ++
          [blankNode depth qualifiers mapping.issuerDomainPolicy] := by
      simp
    rw [longer, List.map_append, map_mappedFrom_snoc, ← mapped.nodes, kept, List.map_singleton,
      filled]

/-- The rule for a whole list of mappings. -/
theorem foldl_applyMapping_mapped (depth : Nat) (qualifiers : List PolicyQualifierInfo)
    (mappings : PolicyMappings) (tree : PolicyTree) :
    ∃ added, MappedTree depth qualifiers mappings tree added
      (mappings.foldl (applyMapping depth qualifiers) tree) := by
  induction mappings using List.reverseRecOn with
  | nil =>
      refine ⟨[], List.nodup_nil, ?_, ?_⟩
      · intro policy
        simp [AddsPolicy, IssuerPolicy]
      · rw [List.map_nil, List.append_nil]
        exact (List.map_id tree).symm
  | append_singleton done mapping ih =>
      obtain ⟨added, mapped⟩ := ih
      rw [List.foldl_append, List.foldl_cons, List.foldl_nil]
      rcases applyMapping_cases depth qualifiers (done.foldl (applyMapping depth qualifiers) tree)
        mapping with ⟨present, result⟩ | ⟨missing, anyPolicy, result⟩ | ⟨missing, noAny, result⟩
      · rw [result]
        exact ⟨added, mapped.snoc mapping (.inl present)⟩
      · rw [result]
        exact ⟨_, mapped.mappedNode missing anyPolicy⟩
      · have kept := mapped.snoc mapping (.inr noAny)
        rw [map_expectMapped_of_missing missing] at kept
        rw [result]
        exact ⟨added, kept⟩

end Tree

end Pkix.Path
