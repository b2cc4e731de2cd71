import Pkix.Path.PolicyInvariants

/-! The policy tree as levels of policies: what each level holds is read off the
certificates, and the tree of the walk holds what reaches its lowest level. -/

namespace Pkix.Path

section Levels

variable (der : DerCodec) (length : Nat) (start : PolicyCounters)

def countersUnder (upper : List Certificate) : PolicyCounters :=
  upper.foldr (countersAfter der) start

def ListsPolicy (cert : Certificate) (policy : ObjectIdentifier) : Prop :=
  ∃ policies, listedPolicies der cert = some policies ∧ lists policies policy

/-- The certificate lists anyPolicy and may expand it. -/
def ExpandsAny (cert : Certificate) (above : List Certificate) : Prop :=
  ListsPolicy der cert oidAnyPolicy ∧
    mayExpandAnyPolicy cert (length - (above.length + 1))
      (countersUnder der start above).inhibitAny = true

def AnyAlong : List Certificate → Prop
  | [] => True
  | cert :: above => ExpandsAny der length start cert above ∧ AnyAlong above

def remap (policy : ObjectIdentifier) (expected : List ObjectIdentifier)
    (mapping : PolicyMapping) : List ObjectIdentifier :=
  if policy = mapping.issuerDomainPolicy then
    let kept := expected.filter (fun other => other != mapping.issuerDomainPolicy)
    if kept.contains mapping.subjectDomainPolicy then kept
    else kept ++ [mapping.subjectDomainPolicy]
  else expected

def remapped (mappings : PolicyMappings) (policy : ObjectIdentifier) : List ObjectIdentifier :=
  mappings.foldl (remap policy) [policy]

/-- What a policy of the level that the lowest certificate creates is expected as. -/
def expectedUnder : List Certificate → ObjectIdentifier → List ObjectIdentifier
  | [], policy => [policy]
  | cert :: above, policy =>
      match certMappings der cert with
      | none => [policy]
      | some mappings =>
          if 0 < (countersUnder der start above).policyMapping then remapped mappings policy
          else [policy]

/-- The level below a level that holds some policies, each with its expected set. -/
def assertedBelow (cert : Certificate) (expands : Prop) (held : ObjectIdentifier → Prop)
    (expected : ObjectIdentifier → List ObjectIdentifier) (policy : ObjectIdentifier) : Prop :=
  (policy ≠ oidAnyPolicy ∧ ListsPolicy der cert policy ∧
    ((∃ parent, held parent ∧ policy ∈ expected parent) ∨ held oidAnyPolicy)) ∨
  (expands ∧ ∃ parent, held parent ∧ policy ∈ expected parent)

def IssuerPolicy (mappings : PolicyMappings) (policy : ObjectIdentifier) : Prop :=
  ∃ mapping ∈ mappings, mapping.issuerDomainPolicy = policy

/-- Mappings add the mapped policies under anyPolicy, or remove them when inhibited. -/
def afterMappings (cert : Certificate) (policyMapping : Nat)
    (asserted : ObjectIdentifier → Prop) (policy : ObjectIdentifier) : Prop :=
  match certMappings der cert with
  | none => asserted policy
  | some mappings =>
      if 0 < policyMapping then
        asserted policy ∨ (asserted oidAnyPolicy ∧ IssuerPolicy mappings policy)
      else asserted policy ∧ ¬IssuerPolicy mappings policy

/-- The policies of the level that the lowest certificate of the list creates. -/
def Holds : List Certificate → ObjectIdentifier → Prop
  | [] => fun policy => policy = oidAnyPolicy
  | cert :: above =>
      afterMappings der cert (countersUnder der start above).policyMapping
        (assertedBelow der cert (ExpandsAny der length start cert above) (Holds above)
          (expectedUnder der start above))

/-- The policies of the certificate's level before its mappings. -/
def Asserted (cert : Certificate) (above : List Certificate) : ObjectIdentifier → Prop :=
  assertedBelow der cert (ExpandsAny der length start cert above) (Holds der length start above)
    (expectedUnder der start above)

def ExpectedBelow (above : List Certificate) (policy : ObjectIdentifier) : Prop :=
  ∃ parent, Holds der length start above parent ∧ policy ∈ expectedUnder der start above parent

/-- The policies that lead down to the bottom level, counting levels upwards from it. -/
def Kept (bottom : ObjectIdentifier → Prop) (above : List Certificate) :
    Nat → ObjectIdentifier → Prop :=
  Levels.Leads bottom (fun index => Holds der length start (above.drop index))
    (fun index parent child => child ∈ expectedUnder der start (above.drop index) parent)

end Levels

section Rules

variable {der : DerCodec} {length : Nat} {start : PolicyCounters}
variable {cert : Certificate} {above upper : List Certificate} {policy : ObjectIdentifier}

theorem asserted_iff :
    Asserted der length start cert above policy ↔
      (policy ≠ oidAnyPolicy ∧ ListsPolicy der cert policy ∧
        (ExpectedBelow der length start above policy ∨
          Holds der length start above oidAnyPolicy)) ∨
      (ExpandsAny der length start cert above ∧ ExpectedBelow der length start above policy) :=
  Iff.rfl

theorem kept_zero_iff {bottom : ObjectIdentifier → Prop} :
    Kept der length start bottom above 0 policy ↔ bottom policy :=
  Iff.rfl

theorem kept_succ_iff {bottom : ObjectIdentifier → Prop} {index : Nat} :
    Kept der length start bottom above (index + 1) policy ↔
      Holds der length start (above.drop index) policy ∧
      ∃ child, Kept der length start bottom above index child ∧
        child ∈ expectedUnder der start (above.drop index) policy :=
  Iff.rfl

/-- A policy that leads to the level below leads to this one. -/
theorem Kept.weaken {cert : Certificate} {above : List Certificate} {index : Nat}
    {bottom : ObjectIdentifier → Prop}
    (kept : Kept der length start bottom (cert :: above) (index + 1) policy) :
    Kept der length start (Holds der length start (cert :: above)) above index policy := by
  induction index generalizing policy with
  | zero => exact kept.1
  | succ index ih =>
      obtain ⟨held, child, below, expected⟩ := kept
      exact ⟨held, child, ih below, expected⟩

theorem expectMapped_expected {depth : Nat} {mapping : PolicyMapping} {node : PolicyNode}
    (lowest : node.depth = depth) :
    (expectMapped depth mapping node).expectedPolicySet =
      remap node.validPolicy node.expectedPolicySet mapping := by
  unfold expectMapped remap
  by_cases issuer : node.validPolicy = mapping.issuerDomainPolicy
  · rw [if_pos ⟨lowest, issuer⟩, if_pos issuer]
  · rw [if_neg (fun both => issuer both.2), if_neg issuer]

theorem remapped_snoc (done : PolicyMappings) (mapping : PolicyMapping) :
    remapped (done ++ [mapping]) policy = remap policy (remapped done policy) mapping := by
  unfold remapped
  rw [List.foldl_append]
  rfl

theorem remapped_of_not_issuer {mappings : PolicyMappings}
    (unmapped : ¬IssuerPolicy mappings policy) : remapped mappings policy = [policy] := by
  unfold remapped
  induction mappings with
  | nil => rfl
  | cons mapping mappings ih =>
      have other : policy ≠ mapping.issuerDomainPolicy :=
        fun same => unmapped ⟨mapping, List.mem_cons_self, same.symm⟩
      rw [List.foldl_cons, remap, if_neg other]
      exact ih fun ⟨later, member, same⟩ =>
        unmapped ⟨later, List.mem_cons_of_mem _ member, same⟩

end Rules

/-- The tree holds, above a bottom level, what leads down to that level. -/
structure LevelTree (der : DerCodec) (length : Nat) (start : PolicyCounters)
    (bottom : ObjectIdentifier → Prop) (expected : ObjectIdentifier → List ObjectIdentifier)
    (above : List Certificate) (tree : PolicyTree) : Prop
    extends Leveled (above.length + 1) tree where
  level : ∀ index, index ≤ above.length → ∀ policy,
    PolicyAt tree (above.length + 1 - index) policy ↔
      Kept der length start bottom above index policy
  lowestExpects : ∀ node ∈ tree, node.depth = above.length + 1 →
    node.expectedPolicySet = expected node.validPolicy
  upperExpects : ∀ node ∈ tree, ∀ index, index < above.length →
    node.depth = above.length - index →
    node.expectedPolicySet = expectedUnder der start (above.drop index) node.validPolicy

def LevelsAt (der : DerCodec) (length : Nat) (start : PolicyCounters)
    (bottom : ObjectIdentifier → Prop) (expected : ObjectIdentifier → List ObjectIdentifier)
    (above : List Certificate) : Option PolicyTree → Prop
  | none => ∀ policy, ¬bottom policy
  | some tree => LevelTree der length start bottom expected above tree

/-- The tree under a list of certificates, its lowest level being the last one's. -/
def LevelsUnder (der : DerCodec) (length : Nat) (start : PolicyCounters) :
    List Certificate → Option PolicyTree → Prop
  | [], current => current = some initPolicyTree
  | cert :: above, current =>
      LevelsAt der length start (Holds der length start (cert :: above))
        (expectedUnder der start (cert :: above)) above current

/-- The prune leaves on every level what leads down to the lowest one. -/
theorem pruned_level_iff {tree : PolicyTree} {bottom : ObjectIdentifier → Prop}
    {held : Nat → ObjectIdentifier → Prop}
    {expected : Nat → ObjectIdentifier → ObjectIdentifier → Prop} {size index : Nat}
    {policy : ObjectIdentifier}
    (labelled : Levels.Labelled PolicyNode.depth expects PolicyNode.validPolicy bottom held
      expected size tree) (inside : index ≤ size) :
    PolicyAt (prunePolicyTree (size + 1) tree) (size + 1 - index) policy ↔
      Levels.Leads bottom held expected index policy := by
  rw [prunePolicyTree_eq]
  exact Levels.pruneAbove_labels labelled inside

section Under

variable {der : DerCodec} {length : Nat} {start : PolicyCounters}
variable {upper : List Certificate} {tree : PolicyTree}

theorem LevelTree.holds {bottom : ObjectIdentifier → Prop}
    {expected : ObjectIdentifier → List ObjectIdentifier} {above : List Certificate}
    (levels : LevelTree der length start bottom expected above tree) {node : PolicyNode}
    (member : node ∈ tree) {index : Nat} (inside : index < above.length)
    (place : node.depth = above.length - index) :
    Holds der length start (above.drop index) node.validPolicy :=
  ((levels.level (index + 1) inside _).mp ⟨node, member, by omega, rfl⟩).1

theorem levelsUnder_leveled (levels : LevelsUnder der length start upper (some tree)) :
    Leveled upper.length tree := by
  cases upper with
  | nil =>
      cases levels
      exact leveled_init
  | cons cert above => exact LevelTree.toLeveled levels

theorem levelsUnder_lowest (levels : LevelsUnder der length start upper (some tree))
    {policy : ObjectIdentifier} :
    PolicyAt tree upper.length policy ↔ Holds der length start upper policy := by
  cases upper with
  | nil =>
      cases levels
      simp [PolicyAt, initPolicyTree, rootNode, Holds, eq_comm]
  | cons cert above => exact LevelTree.level levels 0 (Nat.zero_le _) policy

theorem levelsUnder_lowestExpects (levels : LevelsUnder der length start upper (some tree))
    {node : PolicyNode} (member : node ∈ tree) (place : node.depth = upper.length) :
    node.expectedPolicySet = expectedUnder der start upper node.validPolicy := by
  cases upper with
  | nil =>
      cases levels
      rw [List.mem_singleton.mp member]
      rfl
  | cons cert above => exact LevelTree.lowestExpects levels node member place

theorem levelsUnder_upper (levels : LevelsUnder der length start upper (some tree))
    {node : PolicyNode} (member : node ∈ tree) {index : Nat} (inside : index < upper.length)
    (place : node.depth = upper.length - index) :
    Holds der length start (upper.drop index) node.validPolicy ∧
      node.expectedPolicySet = expectedUnder der start (upper.drop index) node.validPolicy := by
  cases index with
  | zero =>
      exact ⟨(levelsUnder_lowest levels).mp ⟨node, member, place, rfl⟩,
        levelsUnder_lowestExpects levels member place⟩
  | succ index =>
      cases upper with
      | nil => cases inside
      | cons cert above =>
          rw [List.length_cons] at inside place
          rw [List.drop_succ_cons]
          exact ⟨LevelTree.holds levels member (by omega) (by omega),
            LevelTree.upperExpects levels node member index (by omega) (by omega)⟩

theorem levelsUnder_present (levels : LevelsUnder der length start upper (some tree))
    {bottom : ObjectIdentifier → Prop} {index : Nat} (inside : index < upper.length)
    {policy : ObjectIdentifier}
    (kept : Kept der length start bottom upper (index + 1) policy) :
    PolicyAt tree (upper.length - index) policy := by
  cases upper with
  | nil => cases inside
  | cons cert above =>
      have place : (cert :: above).length - index = above.length + 1 - index := by
        rw [List.length_cons]
      rw [List.length_cons] at inside
      rw [place]
      exact (LevelTree.level levels index (by omega) policy).mpr kept.weaken

theorem levelsUnder_expected_iff (levels : LevelsUnder der length start upper (some tree))
    {policy : ObjectIdentifier} :
    ExpectedAt tree upper.length policy ↔ ExpectedBelow der length start upper policy := by
  constructor
  · rintro ⟨node, member, place, expected⟩
    rw [levelsUnder_lowestExpects levels member place] at expected
    exact ⟨node.validPolicy, (levelsUnder_lowest levels).mp ⟨node, member, place, rfl⟩, expected⟩
  · rintro ⟨parent, held, expected⟩
    obtain ⟨node, member, place, rfl⟩ := (levelsUnder_lowest levels).mpr held
    refine ⟨node, member, place, ?_⟩
    rw [levelsUnder_lowestExpects levels member place]
    exact expected

end Under

section Process

variable {der : DerCodec} {length : Nat} {start : PolicyCounters}
variable {cert : Certificate} {above : List Certificate} {tree : PolicyTree}

theorem levelsUnder_none (levels : LevelsUnder der length start above none)
    (policy : ObjectIdentifier) : ¬Holds der length start above policy := by
  cases above with
  | nil => cases levels
  | cons cert above => exact levels policy

theorem newNodes_asserted_iff (levels : LevelsUnder der length start above (some tree))
    {policies : CertificatePolicies} (listed : listedPolicies der cert = some policies)
    (policy : ObjectIdentifier) :
    (∃ node ∈ newNodes tree (above.length + 1)
        (mayExpandAnyPolicy cert (length - (above.length + 1))
          (countersUnder der start above).inhibitAny) policies, node.validPolicy = policy) ↔
      Asserted der length start cert above policy := by
  have own (wanted : ObjectIdentifier) : ListsPolicy der cert wanted ↔ lists policies wanted := by
    unfold ListsPolicy
    rw [listed]
    simp
  rw [newNodes_policy_iff, asserted_iff, Nat.add_sub_cancel, levelsUnder_expected_iff levels,
    levelsUnder_lowest levels]
  unfold ExpandsAny
  rw [own, own, and_assoc]

theorem asserted_needs_list {policy : ObjectIdentifier}
    (asserted : Asserted der length start cert above policy) :
    ∃ policies, listedPolicies der cert = some policies := by
  rcases asserted with ⟨_, ⟨policies, listed, _⟩, _⟩ | ⟨⟨⟨policies, listed, _⟩, _⟩, _⟩
  · exact ⟨policies, listed⟩
  · exact ⟨policies, listed⟩

/-- The pruned tree of old and new nodes, where something was made. -/
theorem levelTree_grown {tree next : PolicyTree} {policies : CertificatePolicies}
    (current : LevelsUnder der length start above (some tree))
    (listed : listedPolicies der cert = some policies)
    (grown : processPolicies tree (above.length + 1)
      (mayExpandAnyPolicy cert (length - (above.length + 1))
        (countersUnder der start above).inhibitAny) (some policies) = some next) :
    LevelTree der length start (Asserted der length start cert above) (fun policy => [policy])
      above next := by
  have leveled := levelsUnder_leveled current
  have created := newNodes_asserted_iff current listed
  rcases leveled_processPolicies leveled grown with ⟨_, same, rule, nextLeveled⟩
  cases same
  have old {node : PolicyNode} (member : node ∈ tree ++ newNodes tree
      (above.length + 1) (mayExpandAnyPolicy cert (length - (above.length + 1))
        (countersUnder der start above).inhibitAny) policies)
      (high : node.depth ≠ above.length + 1) : node ∈ tree := by
    rcases List.mem_append.mp member with old | new
    · exact old
    · exact absurd (newNodes_shape new).1 high
  have kept {node : PolicyNode} (member : node ∈ next) :
      node ∈ tree ++ newNodes tree (above.length + 1)
        (mayExpandAnyPolicy cert (length - (above.length + 1))
          (countersUnder der start above).inhibitAny) policies := by
    rw [rule] at member
    exact (mem_prunePolicyTree_iff.mp member).1
  refine ⟨nextLeveled, ?_, ?_, ?_⟩
  · intro index inside policy
    rw [rule]
    refine pruned_level_iff ⟨?_, ?_, ?_, ?_⟩ inside
    · intro policy
      rw [← created]
      constructor
      · intro found
        rcases found with ⟨node, member, place, same⟩
        rcases List.mem_append.mp member with inTree | new
        · have limit := leveled.bounded node inTree
          omega
        · exact ⟨node, new, same⟩
      · intro made
        rcases made with ⟨node, new, same⟩
        exact ⟨node, List.mem_append_right _ new, (newNodes_shape new).1, same⟩
    · intro node member index inside place
      exact (levelsUnder_upper current (old member (by omega)) inside place).1
    · intro node member index inside place other
      have expectation := (levelsUnder_upper current (old member (by omega)) inside place).2
      rw [expects_iff, expectation]
    · intro index inside policy kept
      rcases levelsUnder_present current inside kept with ⟨node, member, place, same⟩
      exact ⟨node, List.mem_append_left _ member, place, same⟩
  · intro node member place
    rcases List.mem_append.mp (kept member) with inTree | new
    · have limit := leveled.bounded node inTree
      omega
    · exact (newNodes_shape new).2
  · intro node member index inside place
    exact (levelsUnder_upper current (old (kept member) (by omega)) inside place).2

/-- A certificate's own policies make its level below those of the certificates above. -/
theorem levels_processed {state : PolicyState}
    (current : LevelsUnder der length start above state.policyTree)
    (counted : state.counters = countersUnder der start above) :
    LevelsAt der length start (Asserted der length start cert above) (fun policy => [policy]) above
      (processed der cert (length - (above.length + 1)) (above.length + 1) state).policyTree := by
  unfold processed processCertPolicies
  rw [counted]
  cases before : state.policyTree with
  | none =>
      rw [before] at current
      intro policy asserted
      rcases asserted with ⟨_, _, ⟨parent, held, _⟩ | anyAbove⟩ | ⟨_, parent, held, _⟩
      · exact levelsUnder_none current parent held
      · exact levelsUnder_none current oidAnyPolicy anyAbove
      · exact levelsUnder_none current parent held
  | some tree =>
      rw [before] at current
      rw [Option.bind_some]
      cases listed : listedPolicies der cert with
      | none =>
          intro policy asserted
          rcases asserted_needs_list asserted with ⟨policies, found⟩
          rw [listed] at found
          cases found
      | some policies =>
          cases grown : processPolicies tree (above.length + 1)
              (mayExpandAnyPolicy cert (length - (above.length + 1))
                (countersUnder der start above).inhibitAny) (some policies) with
          | none =>
              intro policy asserted
              rcases (newNodes_asserted_iff current listed policy).mpr asserted with
                ⟨node, new, _⟩
              exact processPolicies_ne_none (levelsUnder_leveled current) ⟨node, new⟩ grown
          | some next => exact levelTree_grown current listed grown

end Process

end Pkix.Path
