import Pkix.Path.PolicyLevels

/-! Mappings on the levels, and the run lemma: the tree of the walk is the tree of the
levels. -/

namespace Pkix.Path

/-- The lowest level after some mappings; the levels above are as before. -/
structure MappedLevel (depth : Nat) (bottom : ObjectIdentifier → Prop) (done : PolicyMappings)
    (original tree : PolicyTree) : Prop where
  lowest : ∀ policy, PolicyAt tree depth policy ↔
    bottom policy ∨ (bottom oidAnyPolicy ∧ IssuerPolicy done policy)
  expected : ∀ node ∈ tree, node.depth = depth →
    node.expectedPolicySet = remapped done node.validPolicy
  others : ∀ node, node.depth ≠ depth → (node ∈ tree ↔ node ∈ original)

section Map

variable {depth : Nat} {bottom : ObjectIdentifier → Prop} {done : PolicyMappings}
variable {original tree : PolicyTree}

theorem issuerPolicy_snoc {mapping : PolicyMapping} {policy : ObjectIdentifier} :
    IssuerPolicy (done ++ [mapping]) policy ↔
      IssuerPolicy done policy ∨ mapping.issuerDomainPolicy = policy := by
  simp [IssuerPolicy, or_and_right, exists_or]

theorem remap_other {mapping : PolicyMapping} {policy : ObjectIdentifier}
    {expected : List ObjectIdentifier} (other : policy ≠ mapping.issuerDomainPolicy) :
    remap policy expected mapping = expected :=
  if_neg other

theorem remap_fresh {mapping : PolicyMapping} :
    remap mapping.issuerDomainPolicy [mapping.issuerDomainPolicy] mapping =
      [mapping.subjectDomainPolicy] := by
  simp [remap]

theorem MappedLevel.any_iff (mapped : MappedLevel depth bottom done original tree) :
    PolicyAt tree depth oidAnyPolicy ↔ bottom oidAnyPolicy := by
  rw [mapped.lowest]
  exact ⟨fun either => either.elim id (·.1), .inl⟩

theorem MappedLevel.expectMapped (mapped : MappedLevel depth bottom done original tree)
    {mapping : PolicyMapping} (present : PolicyAt tree depth mapping.issuerDomainPolicy) :
    MappedLevel depth bottom (done ++ [mapping]) original
      (tree.map (expectMapped depth mapping)) := by
  refine ⟨?_, ?_, ?_⟩
  · intro policy
    have same : PolicyAt (tree.map (Path.expectMapped depth mapping)) depth policy ↔
        PolicyAt tree depth policy := by
      simp [PolicyAt]
    rw [same, issuerPolicy_snoc, mapped.lowest]
    constructor
    · intro held
      rcases held with own | ⟨anyPolicy, issuer⟩
      · exact .inl own
      · exact .inr ⟨anyPolicy, .inl issuer⟩
    · intro held
      rcases held with own | ⟨anyPolicy, issuer | rfl⟩
      · exact .inl own
      · exact .inr ⟨anyPolicy, issuer⟩
      · exact (mapped.lowest _).mp present
  · intro node member place
    rcases List.mem_map.mp member with ⟨old, inside, rfl⟩
    rw [expectMapped_depth] at place
    rw [expectMapped_expected place, expectMapped_validPolicy, remapped_snoc,
      mapped.expected old inside place]
  · intro node other
    rw [← mapped.others node other, List.mem_map]
    constructor
    · intro image
      rcases image with ⟨old, inside, rfl⟩
      rw [expectMapped_depth] at other
      rw [expectMapped_of_ne (fun both => other both.1)]
      exact inside
    · intro inside
      exact ⟨node, inside, expectMapped_of_ne (fun both => other both.1)⟩

/-- The nodes that are there keep their sets: none has the policy that is mapped. -/
theorem MappedLevel.expected_of_missing (mapped : MappedLevel depth bottom done original tree)
    {mapping : PolicyMapping} (missing : ¬PolicyAt tree depth mapping.issuerDomainPolicy)
    {node : PolicyNode} (member : node ∈ tree) (place : node.depth = depth) :
    node.expectedPolicySet = remapped (done ++ [mapping]) node.validPolicy := by
  have other : node.validPolicy ≠ mapping.issuerDomainPolicy :=
    fun same => missing ⟨node, member, place, same⟩
  rw [remapped_snoc, remap_other other]
  exact mapped.expected node member place

theorem MappedLevel.mappedNode (mapped : MappedLevel depth bottom done original tree)
    (qualifiers : List PolicyQualifierInfo) {mapping : PolicyMapping}
    (missing : ¬PolicyAt tree depth mapping.issuerDomainPolicy)
    (anyHeld : bottom oidAnyPolicy) :
    MappedLevel depth bottom (done ++ [mapping]) original
      (tree ++ [mappedNode depth qualifiers mapping]) := by
  have unmapped : ¬IssuerPolicy done mapping.issuerDomainPolicy :=
    fun issuer => missing ((mapped.lowest _).mpr (.inr ⟨anyHeld, issuer⟩))
  refine ⟨?_, ?_, ?_⟩
  · intro policy
    have grown : PolicyAt (tree ++ [Path.mappedNode depth qualifiers mapping]) depth policy ↔
        PolicyAt tree depth policy ∨ mapping.issuerDomainPolicy = policy := by
      simp [PolicyAt, Path.mappedNode, or_and_right, exists_or]
    rw [grown, issuerPolicy_snoc, mapped.lowest]
    simp only [anyHeld, true_and, or_assoc]
  · intro node member place
    rcases List.mem_append.mp member with old | new
    · exact mapped.expected_of_missing missing old place
    · have fresh : remapped (done ++ [mapping]) mapping.issuerDomainPolicy =
          [mapping.subjectDomainPolicy] := by
        rw [remapped_snoc, remapped_of_not_issuer unmapped, remap_fresh]
      rw [List.mem_singleton.mp new]
      exact fresh.symm
  · intro node other
    rw [← mapped.others node other, List.mem_append, List.mem_singleton, or_iff_left]
    intro same
    rw [same] at other
    exact other rfl

/-- One mapping: its policy's nodes are remapped, or a node appears under anyPolicy. -/
theorem MappedLevel.applyMapping (mapped : MappedLevel depth bottom done original tree)
    (qualifiers : List PolicyQualifierInfo) (mapping : PolicyMapping) :
    MappedLevel depth bottom (done ++ [mapping]) original
      (applyMapping depth qualifiers tree mapping) := by
  rcases applyMapping_cases depth qualifiers tree mapping with
    ⟨present, result⟩ | ⟨missing, anyPolicy, result⟩ | ⟨missing, noAny, result⟩
  · rw [result]
    exact mapped.expectMapped present
  · rw [result]
    exact mapped.mappedNode qualifiers missing (mapped.any_iff.mp anyPolicy)
  · rw [result]
    have anyUnheld := mt mapped.any_iff.mpr noAny
    refine ⟨?_, fun node member place => mapped.expected_of_missing missing member place,
      mapped.others⟩
    intro policy
    rw [mapped.lowest]
    simp only [anyUnheld, false_and]

theorem MappedLevel.foldl_applyMapping (qualifiers : List PolicyQualifierInfo)
    (mappings : PolicyMappings) (mapped : MappedLevel depth bottom done original tree) :
    MappedLevel depth bottom (done ++ mappings) original
      (mappings.foldl (Path.applyMapping depth qualifiers) tree) := by
  induction mappings generalizing done tree with
  | nil =>
      rw [List.append_nil]
      exact mapped
  | cons mapping mappings ih =>
      have later := ih (mapped.applyMapping qualifiers mapping)
      rw [List.append_assoc] at later
      exact later

end Map

section Advance

variable {der : DerCodec} {length : Nat} {start : PolicyCounters}
variable {cert : Certificate} {above : List Certificate} {tree : PolicyTree}

/-- Policies of the bottom level that no policy above expects keep nothing alive. -/
theorem Kept.of_expected {bottom larger : ObjectIdentifier → Prop} {index : Nat}
    {policy : ObjectIdentifier}
    (included : ∀ child, larger child → ExpectedBelow der length start above child →
      bottom child)
    (kept : Kept der length start larger above (index + 1) policy) :
    Kept der length start bottom above (index + 1) policy := by
  induction index generalizing policy with
  | zero =>
      obtain ⟨held, child, below, expected⟩ := kept
      exact ⟨held, child, included child below ⟨policy, held, expected⟩, expected⟩
  | succ index ih =>
      obtain ⟨held, child, below, expected⟩ := kept
      exact ⟨held, child, ih below, expected⟩

theorem asserted_any {policy : ObjectIdentifier}
    (asserted : Asserted der length start cert above oidAnyPolicy)
    (expected : ExpectedBelow der length start above policy) :
    Asserted der length start cert above policy := by
  rcases asserted with listed | expanded
  · exact absurd rfl listed.1
  · exact .inr ⟨expanded.1, expected⟩

theorem holds_active_iff {mappings : PolicyMappings}
    (found : certMappings der cert = some mappings)
    (active : 0 < (countersUnder der start above).policyMapping)
    {policy : ObjectIdentifier} :
    Holds der length start (cert :: above) policy ↔
      Asserted der length start cert above policy ∨
        (Asserted der length start cert above oidAnyPolicy ∧ IssuerPolicy mappings policy) := by
  show afterMappings der cert _ _ policy ↔ _
  unfold afterMappings
  rw [found]
  simp only [if_pos active]
  rfl

theorem LevelTree.mapped
    (levels : LevelTree der length start (Asserted der length start cert above)
      (fun policy => [policy]) above tree)
    {mappings : PolicyMappings} (found : certMappings der cert = some mappings)
    (allowed : mapsAnyPolicy mappings = false)
    (active : 0 < (countersUnder der start above).policyMapping)
    (qualifiers : List PolicyQualifierInfo) :
    LevelTree der length start (Holds der length start (cert :: above))
      (expectedUnder der start (cert :: above)) above
      (mappings.foldl (applyMapping (above.length + 1) qualifiers) tree) := by
  have initial : MappedLevel (above.length + 1) (Asserted der length start cert above) [] tree
      tree := by
    refine ⟨?_, fun node member place => levels.lowestExpects node member place,
      fun node _ => Iff.rfl⟩
    intro policy
    have lowest := levels.level 0 (Nat.zero_le _) policy
    rw [Nat.sub_zero, kept_zero_iff] at lowest
    simp [lowest, IssuerPolicy]
  have mapped := initial.foldl_applyMapping qualifiers mappings
  rw [List.nil_append] at mapped
  have holds (policy : ObjectIdentifier) : Holds der length start (cert :: above) policy ↔
      Asserted der length start cert above policy ∨
        (Asserted der length start cert above oidAnyPolicy ∧ IssuerPolicy mappings policy) :=
    holds_active_iff found active
  have expects (policy : ObjectIdentifier) :
      expectedUnder der start (cert :: above) policy = remapped mappings policy := by
    rw [expectedUnder, found]
    simp only [if_pos active]
  refine ⟨levels.toLeveled.foldl_applyMapping (Nat.succ_pos _) qualifiers mappings allowed,
    ?_, ?_, ?_⟩
  · intro index inside policy
    cases index with
    | zero =>
        rw [kept_zero_iff, holds, Nat.sub_zero]
        exact mapped.lowest policy
    | succ index =>
        have same : PolicyAt (mappings.foldl (applyMapping (above.length + 1) qualifiers) tree)
            (above.length + 1 - (index + 1)) policy ↔
            PolicyAt tree (above.length + 1 - (index + 1)) policy := by
          constructor
          · rintro ⟨node, member, place, named⟩
            exact ⟨node, (mapped.others node (by omega)).mp member, place, named⟩
          · rintro ⟨node, member, place, named⟩
            exact ⟨node, (mapped.others node (by omega)).mpr member, place, named⟩
        rw [same, levels.level (index + 1) inside policy]
        constructor
        · exact Levels.Leads.mono (fun child asserted => (holds child).mpr (.inl asserted))
            (fun _ _ held => held)
        · apply Kept.of_expected
          intro child held expected
          rcases (holds child).mp held with asserted | ⟨anyPolicy, _⟩
          · exact asserted
          · exact asserted_any anyPolicy expected
  · intro node member place
    rw [expects]
    exact mapped.expected node member place
  · intro node member index inside place
    exact levels.upperExpects node ((mapped.others node (by omega)).mp member) index inside place

theorem holds_inhibited_iff {mappings : PolicyMappings}
    (found : certMappings der cert = some mappings)
    (inhibited : ¬0 < (countersUnder der start above).policyMapping)
    {policy : ObjectIdentifier} :
    Holds der length start (cert :: above) policy ↔
      Asserted der length start cert above policy ∧ ¬IssuerPolicy mappings policy := by
  show afterMappings der cert _ _ policy ↔ _
  unfold afterMappings
  rw [found]
  simp only [if_neg inhibited]
  rfl

theorem deleteMapped_lowest_iff
    (levels : LevelTree der length start (Asserted der length start cert above)
      (fun policy => [policy]) above tree)
    {mappings : PolicyMappings} (found : certMappings der cert = some mappings)
    (inhibited : ¬0 < (countersUnder der start above).policyMapping)
    {policy : ObjectIdentifier} :
    PolicyAt (deleteMapped (above.length + 1) mappings tree) (above.length + 1) policy ↔
      Holds der length start (cert :: above) policy := by
  have lowest := levels.level 0 (Nat.zero_le _) policy
  rw [holds_inhibited_iff found inhibited]
  constructor
  · rintro ⟨node, member, place, rfl⟩
    obtain ⟨inside, spared⟩ := mem_deleteMapped_iff.mp member
    exact ⟨lowest.mp ⟨node, inside, place, rfl⟩, fun issuer => spared ⟨place, issuer⟩⟩
  · rintro ⟨asserted, spared⟩
    obtain ⟨node, inside, place, rfl⟩ := lowest.mpr asserted
    exact ⟨node, mem_deleteMapped_iff.mpr ⟨inside, fun both => spared both.2⟩, place, rfl⟩

theorem LevelTree.deleted
    (levels : LevelTree der length start (Asserted der length start cert above)
      (fun policy => [policy]) above tree)
    {mappings : PolicyMappings} (found : certMappings der cert = some mappings)
    (inhibited : ¬0 < (countersUnder der start above).policyMapping)
    (leveled : Leveled (above.length + 1)
      (prunePolicyTree (above.length + 1) (deleteMapped (above.length + 1) mappings tree))) :
    LevelTree der length start (Holds der length start (cert :: above))
      (expectedUnder der start (cert :: above)) above
      (prunePolicyTree (above.length + 1) (deleteMapped (above.length + 1) mappings tree)) := by
  have expects (policy : ObjectIdentifier) :
      expectedUnder der start (cert :: above) policy = [policy] := by
    rw [expectedUnder, found]
    simp only [if_neg inhibited]
  have old {node : PolicyNode} (member : node ∈ deleteMapped (above.length + 1) mappings tree) :
      node ∈ tree := (mem_deleteMapped_iff.mp member).1
  have kept {node : PolicyNode} (member : node ∈
      prunePolicyTree (above.length + 1) (deleteMapped (above.length + 1) mappings tree)) :
      node ∈ tree := old (mem_prunePolicyTree_iff.mp member).1
  refine ⟨leveled, ?_, ?_, ?_⟩
  · intro index inside policy
    refine pruned_level_iff ⟨?_, ?_, ?_, ?_⟩ inside
    · intro policy
      exact deleteMapped_lowest_iff levels found inhibited
    · intro node member index inside place
      exact levels.holds (old member) inside place
    · intro node member index inside place other
      rw [expects_iff, levels.upperExpects node (old member) index inside place]
    · intro index inside policy keptPolicy
      have asserted : Kept der length start (Asserted der length start cert above) above
          (index + 1) policy :=
        keptPolicy.mono (fun child held => ((holds_inhibited_iff found inhibited).mp held).1)
          (fun _ _ held => held)
      obtain ⟨node, member, place, same⟩ := (levels.level (index + 1) inside policy).mpr asserted
      refine ⟨node, mem_deleteMapped_iff.mpr ⟨member, fun both => ?_⟩, by omega, same⟩
      have lowest := both.1
      omega
  · intro node member place
    rw [expects]
    exact levels.lowestExpects node (kept member) place
  · intro node member index inside place
    exact levels.upperExpects node (kept member) index inside place

theorem levels_unmapped {current : Option PolicyTree} (found : certMappings der cert = none)
    (levels : LevelsAt der length start (Asserted der length start cert above)
      (fun policy => [policy]) above current) :
    LevelsUnder der length start (cert :: above) (collapseNullTree current) := by
  have holds : Holds der length start (cert :: above) =
      Asserted der length start cert above := by
    funext policy
    show afterMappings der cert _ _ policy = _
    unfold afterMappings
    rw [found]
    rfl
  have expects : expectedUnder der start (cert :: above) = fun policy => [policy] := by
    funext policy
    rw [expectedUnder, found]
  show LevelsAt der length start (Holds der length start (cert :: above))
    (expectedUnder der start (cert :: above)) above (collapseNullTree current)
  rw [holds, expects]
  cases current with
  | none => exact levels
  | some tree =>
      have alive := (LevelTree.toLeveled levels).notNull (Nat.succ_pos _)
      rw [collapseNullTree, Option.bind_some, policyTreePostOpPrune_zero_eq, alive]
      exact levels

theorem levels_active
    (levels : LevelTree der length start (Asserted der length start cert above)
      (fun policy => [policy]) above tree)
    {mappings : PolicyMappings} (found : certMappings der cert = some mappings)
    (allowed : mapsAnyPolicy mappings = false)
    (active : 0 < (countersUnder der start above).policyMapping)
    {policies : Option CertificatePolicies} :
    LevelsUnder der length start (cert :: above)
      (policyTreePostOpPrune (applyPolicyMappings (above.length + 1)
        (countersUnder der start above).policyMapping policies mappings tree) 0) := by
  have mapped := levels.mapped found allowed active
    ((policies.map certAnyPolicyQualifiers).getD [])
  have alive := mapped.toLeveled.notNull (Nat.succ_pos _)
  unfold applyPolicyMappings
  rw [if_pos active, policyTreePostOpPrune_zero_eq, alive]
  exact mapped

theorem levels_inhibited
    (levels : LevelTree der length start (Asserted der length start cert above)
      (fun policy => [policy]) above tree)
    {mappings : PolicyMappings} (found : certMappings der cert = some mappings)
    (allowed : mapsAnyPolicy mappings = false)
    (inhibited : ¬0 < (countersUnder der start above).policyMapping)
    {policies : Option CertificatePolicies} :
    LevelsUnder der length start (cert :: above)
      (policyTreePostOpPrune (applyPolicyMappings (above.length + 1)
        (countersUnder der start above).policyMapping policies mappings tree) 0) := by
  have applied : applyPolicyMappings (above.length + 1)
      (countersUnder der start above).policyMapping policies mappings tree =
        prunePolicyTree (above.length + 1)
          (deleteMapped (above.length + 1) mappings tree) := by
    unfold applyPolicyMappings
    rw [if_neg inhibited]
    rfl
  cases collapsed : policyTreePostOpPrune (applyPolicyMappings (above.length + 1)
      (countersUnder der start above).policyMapping policies mappings tree) 0 with
  | some next =>
      obtain ⟨same, leveled⟩ :=
        leveled_collapse_mapped levels.toLeveled (Nat.succ_pos _) allowed collapsed
      rw [same, applied] at leveled ⊢
      exact levels.deleted found inhibited leveled
  | none =>
      intro policy held
      obtain ⟨node, member, place, _⟩ :=
        (deleteMapped_lowest_iff levels found inhibited).mpr held
      have inside : node ∈ prunePolicyTree (above.length + 1)
          (deleteMapped (above.length + 1) mappings tree) :=
        mem_prunePolicyTree_iff.mpr ⟨member, .inr (.inl (by omega))⟩
      rw [applied, policyTreePostOpPrune_zero_eq] at collapsed
      split at collapsed
      · rename_i null
        have top := policyTreeIsNull_iff.mp null node inside
        omega
      · cases collapsed

/-- Mappings and the test after them take the level of a certificate to the level the
next one starts from. -/
theorem levels_mapped {state : PolicyState}
    (current : LevelsAt der length start (Asserted der length start cert above)
      (fun policy => [policy]) above state.policyTree)
    (counted : state.counters = countersUnder der start above)
    (allowed : MappingsAllowed der cert) :
    LevelsUnder der length start (cert :: above)
      (collapseNullTree (mappedTree der cert (above.length + 1) state)) := by
  unfold mappedTree
  cases found : certMappings der cert with
  | none => exact levels_unmapped found current
  | some mappings =>
      have harmless := allowed mappings found
      rw [counted]
      cases before : state.policyTree with
      | none =>
          rw [before] at current
          intro policy held
          by_cases active : 0 < (countersUnder der start above).policyMapping
          · rcases (holds_active_iff found active).mp held with asserted | ⟨anyPolicy, _⟩
            · exact current policy asserted
            · exact current oidAnyPolicy anyPolicy
          · exact current policy ((holds_inhibited_iff found active).mp held).1
      | some tree =>
          rw [before] at current
          by_cases active : 0 < (countersUnder der start above).policyMapping
          · exact levels_active current found harmless active
          · exact levels_inhibited current found harmless active

end Advance

section Run

variable {der : DerCodec} {length : Nat} {state : PolicyState}

theorem policiesUnder_counters (upper : List Certificate) :
    (policiesUnder der length state upper).counters = countersUnder der state.counters upper := by
  induction upper with
  | nil => rfl
  | cons cert above ih =>
      have step : (policiesUnder der length state (cert :: above)).counters =
          countersAfter der cert (policiesUnder der length state above).counters := rfl
      rw [step, ih]
      rfl

/-- The run lemma: under any certificates whose mappings are allowed, the tree of the
walk is the tree of the levels. -/
theorem levels_policiesUnder (initial : state.policyTree = some initPolicyTree)
    (upper : List Certificate) (allowed : ∀ cert ∈ upper, MappingsAllowed der cert) :
    LevelsUnder der length state.counters upper
      (policiesUnder der length state upper).policyTree := by
  induction upper with
  | nil => exact initial
  | cons cert above ih =>
      have earlier := ih fun other member => allowed other (List.mem_cons_of_mem _ member)
      have counted : (policiesUnder der length state above).counters =
          countersUnder der state.counters above := policiesUnder_counters above
      rw [policiesUnder_cons]
      exact levels_mapped (levels_processed earlier counted) counted
        (allowed cert List.mem_cons_self)

/-- The tree after the policies of one more certificate. -/
theorem levels_processedUnder (der : DerCodec) (length : Nat) (cert : Certificate)
    (initial : state.policyTree = some initPolicyTree) (upper : List Certificate)
    (allowed : ∀ other ∈ upper, MappingsAllowed der other) :
    LevelsAt der length state.counters (Asserted der length state.counters cert upper)
      (fun policy => [policy]) upper
      (processed der cert (length - (upper.length + 1)) (upper.length + 1)
        (policiesUnder der length state upper)).policyTree :=
  levels_processed (levels_policiesUnder initial upper allowed) (policiesUnder_counters upper)

end Run

end Pkix.Path
