import Pkix.Path.PolicyLevelWalk
import Pkix.Path.PolicyTrim

/-! Chains without policy mappings: the levels of the tree, read off the policies the
certificates list. -/

namespace Pkix.Path

section Assertions

variable (der : DerCodec) (length : Nat) (start : PolicyCounters)

def ValidAlong (policy : ObjectIdentifier) : List Certificate → Prop
  | [] => True
  | cert :: above =>
      (ListsPolicy der cert policy ∨ ExpandsAny der length start cert above) ∧
        ValidAlong policy above

/-- The policies of the level that the lowest certificate of the list creates. -/
def InLevel (upper : List Certificate) (policy : ObjectIdentifier) : Prop :=
  if policy = oidAnyPolicy then AnyAlong der length start upper
  else ValidAlong der length start policy upper ∧ ∃ cert ∈ upper, ListsPolicy der cert policy

end Assertions

section Levels

variable {der : DerCodec} {length : Nat} {start : PolicyCounters}
variable {cert : Certificate} {above upper : List Certificate} {policy : ObjectIdentifier}

theorem inLevel_any_iff :
    InLevel der length start upper oidAnyPolicy ↔ AnyAlong der length start upper := by
  unfold InLevel
  rw [if_pos rfl]

theorem inLevel_specific_iff (specific : policy ≠ oidAnyPolicy) :
    InLevel der length start upper policy ↔
      ValidAlong der length start policy upper ∧ ∃ cert ∈ upper, ListsPolicy der cert policy := by
  unfold InLevel
  rw [if_neg specific]

theorem validAlong_of_anyAlong (anyAlong : AnyAlong der length start upper) :
    ValidAlong der length start policy upper := by
  induction upper with
  | nil => trivial
  | cons cert above ih => exact ⟨.inr anyAlong.1, ih anyAlong.2⟩

theorem anyAlong_of_unlisted (valid : ValidAlong der length start policy upper)
    (unlisted : ¬∃ cert ∈ upper, ListsPolicy der cert policy) :
    AnyAlong der length start upper := by
  induction upper with
  | nil => trivial
  | cons cert above ih =>
      have here : ¬ListsPolicy der cert policy :=
        fun listed => unlisted ⟨cert, List.mem_cons_self, listed⟩
      have below : ¬∃ other ∈ above, ListsPolicy der other policy := by
        rintro ⟨other, member, listed⟩
        exact unlisted ⟨other, List.mem_cons_of_mem _ member, listed⟩
      exact ⟨valid.1.resolve_left here, ih valid.2 below⟩

/-- A policy enters a level under itself or under anyPolicy, or is carried down by an
expanded anyPolicy. -/
theorem inLevel_cons_iff :
    InLevel der length start (cert :: above) policy ↔
      (policy ≠ oidAnyPolicy ∧ ListsPolicy der cert policy ∧
        (InLevel der length start above policy ∨ InLevel der length start above oidAnyPolicy)) ∨
      (ExpandsAny der length start cert above ∧ InLevel der length start above policy) := by
  by_cases specific : policy = oidAnyPolicy
  · subst specific
    rw [inLevel_any_iff, inLevel_any_iff, AnyAlong]
    constructor
    · exact .inr
    · intro entered
      rcases entered with listed | carried
      · exact absurd rfl listed.1
      · exact carried
  · rw [inLevel_specific_iff specific, inLevel_specific_iff specific, inLevel_any_iff, ValidAlong]
    constructor
    · rintro ⟨⟨here, valid⟩, lister, member, listed⟩
      by_cases before : ∃ other ∈ above, ListsPolicy der other policy
      · rcases here with own | expanded
        · exact .inl ⟨specific, own, .inl ⟨valid, before⟩⟩
        · exact .inr ⟨expanded, valid, before⟩
      · have own : ListsPolicy der cert policy := by
          rcases List.mem_cons.mp member with same | inAbove
          · rw [← same]
            exact listed
          · exact absurd ⟨lister, inAbove, listed⟩ before
        exact .inl ⟨specific, own, .inr (anyAlong_of_unlisted valid before)⟩
    · intro entered
      rcases entered with ⟨_, own, earlier | anyAlong⟩ | ⟨expanded, valid, other, member, listed⟩
      · exact ⟨⟨.inl own, earlier.1⟩, cert, List.mem_cons_self, own⟩
      · exact ⟨⟨.inl own, validAlong_of_anyAlong anyAlong⟩, cert, List.mem_cons_self, own⟩
      · exact ⟨⟨.inr expanded, valid⟩, other, List.mem_cons_of_mem _ member, listed⟩

/-- What the topmost certificate has and a lower level keeps was there in between. -/
theorem inLevel_of_top {top : Certificate} (last : above.getLast? = some top)
    (entered : InLevel der length start [top] policy)
    (kept : InLevel der length start (cert :: above) policy) :
    InLevel der length start above policy := by
  by_cases specific : policy = oidAnyPolicy
  · subst specific
    exact inLevel_any_iff.mpr (inLevel_any_iff.mp kept).2
  · rw [inLevel_specific_iff specific] at entered kept ⊢
    obtain ⟨_, lister, member, listed⟩ := entered
    rw [List.mem_singleton.mp member] at listed
    exact ⟨kept.1.2, top, List.mem_of_getLast? last, listed⟩

theorem inLevel_drop {top : Certificate} (last : (cert :: above).getLast? = some top)
    (entered : InLevel der length start [top] policy)
    (kept : InLevel der length start (cert :: above) policy) {index : Nat}
    (inside : index < above.length) : InLevel der length start (above.drop index) policy := by
  induction above generalizing cert index with
  | nil => cases inside
  | cons second others ih =>
      rw [List.getLast?_cons_cons] at last
      have below := inLevel_of_top last entered kept
      cases index with
      | zero => exact below
      | succ index => exact ih last below (Nat.lt_of_succ_lt_succ inside)

theorem expectedUnder_unmapped (unmapped : ∀ cert ∈ upper, certMappings der cert = none) :
    expectedUnder der start upper policy = [policy] := by
  cases upper with
  | nil => rfl
  | cons cert above => rw [expectedUnder, unmapped cert List.mem_cons_self]

theorem expectedBelow_unmapped_iff (unmapped : ∀ cert ∈ upper, certMappings der cert = none) :
    ExpectedBelow der length start upper policy ↔ Holds der length start upper policy := by
  unfold ExpectedBelow
  simp only [expectedUnder_unmapped unmapped, List.mem_singleton, exists_eq_right']

/-- Without mappings the levels hold what the certificates assert. -/
theorem holds_unmapped_iff (unmapped : ∀ cert ∈ upper, certMappings der cert = none) :
    Holds der length start upper policy ↔ InLevel der length start upper policy := by
  induction upper generalizing policy with
  | nil =>
      by_cases anyPolicy : policy = oidAnyPolicy
      · subst anyPolicy
        simp [Holds, inLevel_any_iff, AnyAlong]
      · simp [Holds, inLevel_specific_iff anyPolicy, anyPolicy]
  | cons cert above ih =>
      have aboveUnmapped : ∀ other ∈ above, certMappings der other = none :=
        fun other member => unmapped other (List.mem_cons_of_mem _ member)
      have asserted : Holds der length start (cert :: above) policy ↔
          Asserted der length start cert above policy := by
        show afterMappings der cert _ _ policy ↔ _
        unfold afterMappings
        rw [unmapped cert List.mem_cons_self]
        rfl
      rw [asserted, asserted_iff, inLevel_cons_iff, expectedBelow_unmapped_iff aboveUnmapped]
      simp only [ih aboveUnmapped]

theorem asserted_unmapped_iff (unmapped : ∀ other ∈ above, certMappings der other = none) :
    Asserted der length start cert above policy ↔
      InLevel der length start (cert :: above) policy := by
  rw [asserted_iff, inLevel_cons_iff, expectedBelow_unmapped_iff unmapped]
  simp only [holds_unmapped_iff unmapped]

theorem kept_unmapped_iff {bottom : ObjectIdentifier → Prop} {index : Nat}
    (unmapped : ∀ other ∈ above, certMappings der other = none) :
    Kept der length start bottom above index policy ↔
      bottom policy ∧ ∀ place, place < index → InLevel der length start (above.drop place) policy := by
  have dropped (place : Nat) : ∀ other ∈ above.drop place, certMappings der other = none :=
    fun other member => unmapped other (List.mem_of_mem_drop member)
  induction index with
  | zero => simp [kept_zero_iff]
  | succ index ih =>
      rw [kept_succ_iff, holds_unmapped_iff (dropped index), expectedUnder_unmapped (dropped index)]
      simp only [List.mem_singleton, exists_eq_right, ih, Nat.lt_succ_iff_lt_or_eq]
      constructor
      · rintro ⟨here, lowest, below⟩
        refine ⟨lowest, ?_⟩
        intro place position
        rcases position with lower | rfl
        · exact below place lower
        · exact here
      · rintro ⟨lowest, everywhere⟩
        exact ⟨everywhere index (.inr rfl), lowest, fun place lower => everywhere place (.inl lower)⟩

end Levels

/-- The tree of a chain part without mappings: every node expects its own policy, and
the lowest and the highest level hold what the certificates assert. -/
structure PathTree (der : DerCodec) (length : Nat) (start : PolicyCounters)
    (upper : List Certificate) (tree : PolicyTree) : Prop
    extends Leveled upper.length tree where
  plain : ∀ node ∈ tree, node.expectedPolicySet = [node.validPolicy]
  lowestLevel : ∀ policy, PolicyAt tree upper.length policy ↔ InLevel der length start upper policy
  highestLevel : ∀ top, upper.getLast? = some top → ∀ policy,
    PolicyAt tree 1 policy ↔
      InLevel der length start [top] policy ∧ InLevel der length start upper policy

def TreeFor (der : DerCodec) (length : Nat) (start : PolicyCounters) (upper : List Certificate) :
    Option PolicyTree → Prop
  | none => ∀ policy, ¬InLevel der length start upper policy
  | some tree => PathTree der length start upper tree

section Trees

variable {tree : PolicyTree} {depth : Nat}

theorem expects_plain {parent child : PolicyNode}
    (plain : parent.expectedPolicySet = [parent.validPolicy]) :
    expects parent child = true ↔ child.validPolicy = parent.validPolicy := by
  rw [expects_iff, plain, List.mem_singleton]

end Trees

section Run

variable {der : DerCodec} {length : Nat} {start : PolicyCounters}
variable {cert : Certificate} {above : List Certificate} {tree : PolicyTree}

theorem pathTree_of_levels (unmapped : ∀ other ∈ above, certMappings der other = none)
    (levels : LevelTree der length start (Asserted der length start cert above)
      (fun policy => [policy]) above tree) :
    PathTree der length start (cert :: above) tree := by
  refine ⟨levels.toLeveled, ?_, ?_, ?_⟩
  · intro node member
    have limit := levels.bounded node member
    by_cases top : node.depth = 0
    · rw [levels.root node member top]
      rfl
    · by_cases lowest : node.depth = above.length + 1
      · exact levels.lowestExpects node member lowest
      · rw [levels.upperExpects node member (above.length - node.depth) (by omega) (by omega)]
        exact expectedUnder_unmapped fun other inside => unmapped other (List.mem_of_mem_drop inside)
  · intro policy
    rw [← asserted_unmapped_iff unmapped]
    exact levels.level 0 (Nat.zero_le _) policy
  · intro top last policy
    have highest := levels.level above.length (Nat.le_refl _) policy
    rw [Nat.add_sub_cancel_left] at highest
    rw [highest, kept_unmapped_iff unmapped, asserted_unmapped_iff unmapped]
    constructor
    · rintro ⟨lowest, everywhere⟩
      refine ⟨?_, lowest⟩
      rcases List.eq_nil_or_concat above with empty | ⟨others, highestCert, split⟩
      · rw [empty, List.getLast?_singleton] at last
        rw [empty] at lowest
        rw [← Option.some.inj last]
        exact lowest
      · have shape : cert :: above = (cert :: others) ++ [highestCert] := by
          rw [split, List.concat_eq_append, List.cons_append]
        rw [shape, List.getLast?_concat] at last
        have here := everywhere others.length (by rw [split]; simp)
        rw [split, List.concat_eq_append, List.drop_left, Option.some.inj last] at here
        exact here
    · rintro ⟨entered, lowest⟩
      exact ⟨lowest, fun place inside => inLevel_drop last entered lowest inside⟩

/-- The run lemma for chains without mappings. -/
theorem treeFor_processed (der : DerCodec) (length : Nat) (cert : Certificate)
    {state : PolicyState} (initial : state.policyTree = some initPolicyTree)
    (unmapped : ∀ other ∈ above, certMappings der other = none) :
    TreeFor der length state.counters (cert :: above)
      (processed der cert (length - (above.length + 1)) (above.length + 1)
        (policiesUnder der length state above)).policyTree := by
  have allowed : ∀ other ∈ above, MappingsAllowed der other := by
    intro other member mappings found
    rw [unmapped other member] at found
    cases found
  have levels := levels_processedUnder der length cert initial above allowed
  cases next : (processed der cert (length - (above.length + 1)) (above.length + 1)
      (policiesUnder der length state above)).policyTree with
  | none =>
      rw [next] at levels
      exact fun policy entered => levels policy ((asserted_unmapped_iff unmapped).mpr entered)
  | some tree =>
      rw [next] at levels
      exact pathTree_of_levels unmapped levels

end Run

section Intersection

variable {der : DerCodec} {length : Nat} {start : PolicyCounters} {tree : PolicyTree}
variable {chain : List Certificate} {userSet : List ObjectIdentifier}

/-- The policies that the topmost certificate lists and that are valid for the whole
chain. -/
def TopPolicy (der : DerCodec) (length : Nat) (start : PolicyCounters)
    (chain : List Certificate) (policy : ObjectIdentifier) : Prop :=
  policy ≠ oidAnyPolicy ∧
    (∃ top, chain.getLast? = some top ∧ ListsPolicy der top policy) ∧
    ValidAlong der length start policy chain

theorem topPolicy_iff (path : PathTree der length start chain tree) (inhabited : chain ≠ [])
    {policy : ObjectIdentifier} (specific : policy ≠ oidAnyPolicy) :
    PolicyAt tree 1 policy ↔ TopPolicy der length start chain policy := by
  obtain ⟨top, last⟩ := Option.isSome_iff_exists.mp (List.getLast?_isSome.mpr inhabited)
  rw [path.highestLevel top last, inLevel_specific_iff specific, inLevel_specific_iff specific]
  unfold TopPolicy
  constructor
  · rintro ⟨⟨_, lister, member, listed⟩, valid, _⟩
    rw [List.mem_singleton.mp member] at listed
    exact ⟨specific, ⟨top, last, listed⟩, valid⟩
  · rintro ⟨_, ⟨other, same, listed⟩, valid⟩
    rw [last] at same
    cases same
    exact ⟨⟨⟨.inl listed, trivial⟩, top, List.mem_singleton.mpr rfl, listed⟩, valid, top,
      List.mem_of_getLast? last, listed⟩

/-- A node of the set on the top level has descendants of its policy down to the leaf. -/
theorem PathTree.rooted_in_set (path : PathTree der length start chain tree)
    {policy : ObjectIdentifier} (inSet : policy ∈ userSet) (top : PolicyAt tree 1 policy)
    (level : Nat) (inner : 1 ≤ level) (bounded : level ≤ chain.length) :
    ∃ node, node.depth = level ∧ node.validPolicy = policy ∧
      Levels.Rooted PolicyNode.depth isParent (undoomed tree userSet) 1 node := by
  have safe {node : PolicyNode} (member : node ∈ tree) (same : node.validPolicy = policy) :
      node ∈ undoomed tree userSet := by
    apply mem_undoomed_iff.mpr
    refine ⟨member, fun lost => lost.2.2.2 ?_⟩
    rw [same]
    exact inSet
  induction level with
  | zero => omega
  | succ level ih =>
      by_cases first : level = 0
      · rcases top with ⟨node, member, place, same⟩
        exact ⟨node, by omega, same, .here (safe member same) place⟩
      · rcases ih (by omega) (by omega) with ⟨parent, place, same, rooted⟩
        have member := (mem_undoomed_iff.mp rooted.mem).1
        rcases path.parented parent member (by omega) (by omega) with
          ⟨child, inside, next, expected⟩
        have childSame := ((expects_plain (path.plain parent member)).mp expected).trans same
        exact ⟨child, by omega, childSame, .up (safe inside childSame) rooted next
          (isParent_iff.mpr (.inl (expects_iff.mp expected)))⟩

/-- Every parent on the way up expects the policy, so some node of the top level is safe. -/
theorem top_of_rooted {node : PolicyNode}
    (rooted : Levels.Rooted PolicyNode.depth isParent (undoomed tree userSet) 1 node) :
    ∃ top ∈ tree, top.depth = 1 ∧ ¬Doomed tree userSet top := by
  induction rooted with
  | here inside top =>
      rcases mem_undoomed_iff.mp inside with ⟨member, safe⟩
      exact ⟨_, member, top, safe⟩
  | up inside above next parented ih => exact ih

theorem PathTree.atTop (path : PathTree der length start chain tree) (inhabited : chain ≠ [])
    (fixed : ¬PolicyAt tree chain.length oidAnyPolicy) {node : PolicyNode}
    (member : node ∈ tree) (top : node.depth = 1) :
    TopPolicy der length start chain node.validPolicy := by
  have specific : node.validPolicy ≠ oidAnyPolicy :=
    path.toLeveled.specific fixed member (by omega)
  exact (topPolicy_iff path inhabited specific).mp ⟨node, member, top, rfl⟩

theorem PathTree.policies_of_intersection (path : PathTree der length start chain tree)
    (inhabited : chain ≠ []) (fixed : ¬PolicyAt tree chain.length oidAnyPolicy)
    {leaf : PolicyNode}
    (carries : CarriesIntersection tree userSet chain.length leaf) :
    (∃ policy ∈ userSet, TopPolicy der length start chain policy) ∨
      ∀ policy, TopPolicy der length start chain policy → policy ∈ userSet := by
  have doomed {node : PolicyNode} (member : node ∈ tree) :=
    path.toLeveled.doomed_iff userSet fixed member
  have safeTop {node : PolicyNode} (member : node ∈ tree) (top : node.depth = 1)
      (safe : ¬Doomed tree userSet node) :
      ∃ policy ∈ userSet, TopPolicy der length start chain policy := by
    refine ⟨node.validPolicy, ?_, path.atTop inhabited fixed member top⟩
    by_contra outside
    exact safe ((doomed member).mpr ⟨top, outside⟩)
  have positive : 0 < chain.length := List.length_pos_iff.mpr inhabited
  rcases carries with ⟨member, place, stays, _⟩
  rcases stays with whole | ⟨spared, high | rooted⟩
  · right
    intro policy top
    rcases (topPolicy_iff path inhabited top.1).mpr top with ⟨node, inside, level, rfl⟩
    by_contra outside
    exact whole node inside ((doomed inside).mpr ⟨level, outside⟩)
  · exact .inl (safeTop member (by omega) spared)
  · rcases top_of_rooted rooted with ⟨node, inside, top, safe⟩
    exact .inl (safeTop inside top safe)

theorem PathTree.intersection_of_policies (path : PathTree der length start chain tree)
    (inhabited : chain ≠ []) (fixed : ¬PolicyAt tree chain.length oidAnyPolicy)
    (policies : (∃ policy ∈ userSet, TopPolicy der length start chain policy) ∨
      ∀ policy, TopPolicy der length start chain policy → policy ∈ userSet) :
    ∃ leaf, CarriesIntersection tree userSet chain.length leaf := by
  have positive : 0 < chain.length := List.length_pos_iff.mpr inhabited
  rcases policies with ⟨policy, inSet, top⟩ | all
  · have present := (topPolicy_iff path inhabited top.1).mpr top
    rcases path.rooted_in_set inSet present chain.length positive (Nat.le_refl _) with
      ⟨leaf, place, same, rooted⟩
    rcases mem_undoomed_iff.mp rooted.mem with ⟨member, safe⟩
    refine ⟨leaf, member, place, .inr ⟨safe, .inr rooted⟩, .inl ?_⟩
    rw [same]
    exact top.1
  · rcases path.lowest with ⟨leaf, member, place⟩
    have specific : leaf.validPolicy ≠ oidAnyPolicy :=
      path.toLeveled.specific fixed member (by omega)
    refine ⟨leaf, member, place, .inl ?_, .inl specific⟩
    intro other inside lost
    rcases (path.toLeveled.doomed_iff userSet fixed inside).mp lost with ⟨top, outside⟩
    exact outside (all _ (path.atTop inhabited fixed inside top))

/-- When the intersection of a plain tree with a set is not NULL: anyPolicy holds
throughout, or a policy of the topmost certificate is in the set, or all of them are. -/
theorem carriesIntersection_iff (path : PathTree der length start chain tree)
    (inhabited : chain ≠ []) (nonempty : userSet ≠ []) (specificSet : oidAnyPolicy ∉ userSet) :
    (∃ leaf, CarriesIntersection tree userSet chain.length leaf) ↔
      InLevel der length start chain oidAnyPolicy ∨
      (∃ policy ∈ userSet, TopPolicy der length start chain policy) ∨
      ∀ policy, TopPolicy der length start chain policy → policy ∈ userSet := by
  have positive : 0 < chain.length := List.length_pos_iff.mpr inhabited
  by_cases anyThroughout : InLevel der length start chain oidAnyPolicy
  · apply iff_of_true _ (.inl anyThroughout)
    rcases List.exists_cons_of_ne_nil nonempty with ⟨wanted, rest, split⟩
    have member : wanted ∈ userSet := by
      rw [split]
      exact List.mem_cons_self
    have specific : wanted ≠ oidAnyPolicy := fun same => specificSet (same ▸ member)
    rcases path.rooted_any userSet ((path.lowestLevel _).mpr anyThroughout) chain.length positive
        (Nat.le_refl _) with ⟨leaf, place, anyPolicy, rooted⟩
    have kept := mem_undoomed_iff.mp rooted.mem
    exact ⟨leaf, kept.1, place, .inr ⟨kept.2, .inr rooted⟩, .inr ⟨wanted, member, specific⟩⟩
  · have fixed : ¬PolicyAt tree chain.length oidAnyPolicy :=
      fun present => anyThroughout ((path.lowestLevel _).mp present)
    rw [or_iff_right anyThroughout]
    constructor
    · intro carried
      rcases carried with ⟨leaf, carries⟩
      exact path.policies_of_intersection inhabited fixed carries
    · exact path.intersection_of_policies inhabited fixed

end Intersection

end Pkix.Path
