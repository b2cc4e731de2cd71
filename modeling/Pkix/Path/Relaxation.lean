import Pkix.Path.PolicyCounters
import Pkix.Path.Requirements

/-! What a laxer policy accepts: every chain that a stricter one does. -/

namespace Pkix.Path

/-- The first policy asks at least what the second one does, at the same time. -/
structure Stricter (strict lax : ValidationPolicy) : Prop where
  maxPathLen : strict.maxPathLen ≤ lax.maxPathLen
  current : strict.currentTimeUnix = lax.currentTimeUnix
  keyUsage : lax.enforceKeyUsage = true → strict.enforceKeyUsage = true
  crlSign : lax.requireCrlSignOnCas = true → strict.requireCrlSignOnCas = true
  lifetime : ∀ bound, lax.maxValiditySecs = some bound →
    ∃ tighter, strict.maxValiditySecs = some tighter ∧ tighter ≤ bound
  algorithms : ∀ allowed, lax.allowedSignatureAlgs = some allowed →
    ∃ fewer, strict.allowedSignatureAlgs = some fewer ∧ fewer ⊆ allowed
  keySize : ∀ bits, lax.minRsaKeyBits = some bits →
    ∃ more, strict.minRsaKeyBits = some more ∧ bits ≤ more
  san : lax.requireSubjectAltName = true → strict.requireSubjectAltName = true
  rfc822San : lax.requireRfc822San = true → strict.requireRfc822San = true
  eku : ∀ required, lax.requiredLeafEku = some required →
    ∃ more, strict.requiredLeafEku = some more ∧ required ⊆ more
  policyOids : ∀ required, lax.requiredLeafPolicyOids = some required →
    ∃ more, strict.requiredLeafPolicyOids = some more ∧ required ⊆ more
  dnAttrs : ∀ rule, lax.requiredLeafSubjectDnAttrs = some rule →
    ∃ tighter, strict.requiredLeafSubjectDnAttrs = some tighter ∧ ∀ subject,
      evaluateDnAttrRule subject tighter = true → evaluateDnAttrRule subject rule = true

/-- The second policy inhibits and demands no more than the first one in the policy
processing, and accepts any policy at its end. -/
structure FreerInputs (strict lax : ValidationPolicy) : Prop where
  explicitPolicy : lax.initialExplicitPolicy = true → strict.initialExplicitPolicy = true
  anyPolicyInhibit : lax.initialAnyPolicyInhibit = true → strict.initialAnyPolicyInhibit = true
  mappingInhibit : lax.initialPolicyMappingInhibit = true →
    strict.initialPolicyMappingInhibit = true
  policySet : lax.initialPolicySet = []

section Requirements

variable {der : DerCodec} {strict lax : ValidationPolicy} {cert : Certificate}
variable {chain : List Certificate}

theorem Stricter.refl (policy : ValidationPolicy) : Stricter policy policy where
  maxPathLen := Nat.le_refl _
  current := rfl
  keyUsage := id
  crlSign := id
  lifetime bound asked := ⟨bound, asked, Nat.le_refl _⟩
  algorithms allowed asked := ⟨allowed, asked, List.Subset.refl _⟩
  keySize bits asked := ⟨bits, asked, Nat.le_refl _⟩
  san := id
  rfc822San := id
  eku required asked := ⟨required, asked, List.Subset.refl _⟩
  policyOids required asked := ⟨required, asked, List.Subset.refl _⟩
  dnAttrs rule asked := ⟨rule, asked, fun _ => id⟩

theorem MeetsAnywhere.relax (met : MeetsAnywhere der strict cert)
    (stricter : Stricter strict lax) : MeetsAnywhere der lax cert where
  algorithm allowed asked := by
    rcases stricter.algorithms allowed asked with ⟨fewer, own, within⟩
    exact within (met.algorithm fewer own)
  current := by
    rw [← stricter.current]
    exact met.current
  lifetime bound asked := by
    rcases stricter.lifetime bound asked with ⟨tighter, own, below⟩
    have short := met.lifetime tighter own
    omega
  keySize bits actual asked measured := by
    rcases stricter.keySize bits asked with ⟨more, own, above⟩
    exact Nat.le_trans above (met.keySize more actual own measured)

theorem MeetsAsCa.relax (met : MeetsAsCa der strict cert) (stricter : Stricter strict lax) :
    MeetsAsCa der lax cert where
  certSign asked := met.certSign (stricter.keyUsage asked)
  crlSign asked := met.crlSign (stricter.crlSign asked)

theorem MeetsAsLeaf.relax (met : MeetsAsLeaf der strict cert) (stricter : Stricter strict lax) :
    MeetsAsLeaf der lax cert where
  san asked := met.san (stricter.san asked)
  rfc822San asked more := met.rfc822San (stricter.san asked) (stricter.rfc822San more)
  eku required asked := by
    rcases stricter.eku required asked with ⟨more, own, within⟩
    rcases met.eku more own with ⟨ekus, held, covered⟩
    exact ⟨ekus, held, List.Subset.trans within covered⟩
  policyOids required asked := by
    rcases stricter.policyOids required asked with ⟨more, own, within⟩
    rcases met.policyOids more own with ⟨policies, held, covered⟩
    exact ⟨policies, held, List.Subset.trans within covered⟩
  dnAttrs rule asked := by
    rcases stricter.dnAttrs rule asked with ⟨tighter, own, implies⟩
    exact implies _ (met.dnAttrs tighter own)

theorem Meets.relax (met : Meets der strict chain) (stricter : Stricter strict lax) :
    Meets der lax chain where
  short := Nat.le_trans met.short stricter.maxPathLen
  everywhere cert member := (met.everywhere cert member).relax stricter
  leaf cert first := (met.leaf cert first).relax stricter
  cas cert member := (met.cas cert member).relax stricter

end Requirements

/-- A policy that asks no more, with the same inputs to the policy processing, validates the
chain to the same path. -/
theorem validatePath_relax (der : DerCodec) (strict lax : ValidationPolicy)
    (verifier : SignatureVerifier) (chain : List Certificate) (anchors : List TrustAnchor)
    (stricter : Stricter strict lax) (shared : SamePolicyInputs strict lax)
    (path : ValidatedPath)
    (accepted : validatePath der strict verifier chain anchors = .ok path) :
    validatePath der lax verifier chain anchors = .ok path :=
  validatePath_exchange shared ((meets_of_validatePath accepted).relax stricter) accepted

section Counters

variable {der : DerCodec} {length : Nat} {low high : PolicyCounters}

/-- Every counter of the first is at most that of the second. -/
structure PolicyCounters.AtMost (low high : PolicyCounters) : Prop where
  explicitPolicy : low.explicitPolicy ≤ high.explicitPolicy
  inhibitAny : low.inhibitAny ≤ high.inhibitAny
  policyMapping : low.policyMapping ≤ high.policyMapping

theorem countersAfter_mono (cert : Certificate) (less : low.AtMost high) :
    (countersAfter der cert low).AtMost (countersAfter der cert high) := by
  have decremented : (decrementCounters cert low).AtMost (decrementCounters cert high) := by
    unfold decrementCounters
    split
    · exact less
    · exact ⟨Nat.sub_le_sub_right less.explicitPolicy 1, Nat.sub_le_sub_right less.inhibitAny 1,
        Nat.sub_le_sub_right less.policyMapping 1⟩
  exact
    { explicitPolicy := clampTo_mono _ decremented.explicitPolicy
      inhibitAny := clampTo_mono _ decremented.inhibitAny
      policyMapping := clampTo_mono _ decremented.policyMapping }

variable (der) in
theorem countersUnder_mono (less : low.AtMost high) (upper : List Certificate) :
    (countersUnder der low upper).AtMost (countersUnder der high upper) := by
  induction upper with
  | nil => exact less
  | cons cert above ih => exact countersAfter_mono cert ih

theorem initialCounters_mono {strict lax : ValidationPolicy} (freer : FreerInputs strict lax)
    (chain : List Certificate) :
    (initialCounters strict chain).AtMost (initialCounters lax chain) := by
  have counter {inhibited other : Bool} (less : other = true → inhibited = true) :
      initialCounter chain inhibited ≤ initialCounter chain other := by
    cases other with
    | false => cases inhibited <;> simp [initialCounter]
    | true => rw [less rfl]
  exact ⟨counter freer.explicitPolicy, counter freer.anyPolicyInhibit,
    counter freer.mappingInhibit⟩

end Counters

section Levels

variable {der : DerCodec} {length : Nat} {low high : PolicyCounters} {cert : Certificate}
variable {above upper : List Certificate} {policy : ObjectIdentifier}

theorem expandsAny_mono (less : low.AtMost high) (expands : ExpandsAny der length low cert above) :
    ExpandsAny der length high cert above := by
  refine ⟨expands.1, ?_⟩
  have counted := (countersUnder_mono der less above).inhibitAny
  have may := expands.2
  unfold mayExpandAnyPolicy at may ⊢
  simp only [Bool.or_eq_true, decide_eq_true_eq] at may ⊢
  rcases may with positive | selfIssued
  · exact .inl (Nat.lt_of_lt_of_le positive counted)
  · exact .inr selfIssued

theorem assertedBelow_mono {expands more : Prop} {held larger : ObjectIdentifier → Prop}
    {expected wider : ObjectIdentifier → List ObjectIdentifier} (expanding : expands → more)
    (holding : ∀ parent, held parent → larger parent)
    (expecting : ∀ parent, held parent → ∀ child ∈ expected parent, child ∈ wider parent)
    (asserted : assertedBelow der cert expands held expected policy) :
    assertedBelow der cert more larger wider policy := by
  have below : (∃ parent, held parent ∧ policy ∈ expected parent) →
      ∃ parent, larger parent ∧ policy ∈ wider parent := by
    rintro ⟨parent, holds, expects⟩
    exact ⟨parent, holding parent holds, expecting parent holds policy expects⟩
  rcases asserted with ⟨specific, listed, parented | anyAbove⟩ | ⟨expanded, parented⟩
  · exact .inl ⟨specific, listed, .inl (below parented)⟩
  · exact .inl ⟨specific, listed, .inr (holding _ anyAbove)⟩
  · exact .inr ⟨expanding expanded, below parented⟩

variable (der length) in
/-- Higher counters leave every policy of a level in place, and everything it is expected as. -/
theorem holds_mono (less : low.AtMost high) (upper : List Certificate) :
    (∀ policy, Holds der length low upper policy → Holds der length high upper policy) ∧
    ∀ policy, Holds der length low upper policy →
      ∀ child ∈ expectedUnder der low upper policy, child ∈ expectedUnder der high upper policy := by
  induction upper with
  | nil => exact ⟨fun _ => id, fun _ _ _ => id⟩
  | cons cert above ih =>
      have counted := (countersUnder_mono der less above).policyMapping
      have grows (policy : ObjectIdentifier) (asserted : Asserted der length low cert above policy) :
          Asserted der length high cert above policy :=
        assertedBelow_mono (expandsAny_mono less) ih.1 ih.2 asserted
      cases found : certMappings der cert with
      | none =>
          have level (start : PolicyCounters) (policy : ObjectIdentifier) :
              Holds der length start (cert :: above) policy ↔
                Asserted der length start cert above policy := by
            show afterMappings der cert _ _ policy ↔ _
            unfold afterMappings
            rw [found]
            rfl
          refine ⟨?_, ?_⟩
          · intro policy held
            exact (level high policy).mpr (grows policy ((level low policy).mp held))
          · intro policy _
            simp [expectedUnder, found]
      | some mappings =>
          by_cases active : 0 < (countersUnder der low above).policyMapping
          · have activeToo := Nat.lt_of_lt_of_le active counted
            refine ⟨?_, ?_⟩
            · intro policy held
              rw [holds_active_iff found active] at held
              rw [holds_active_iff found activeToo]
              exact held.imp (grows policy) (And.imp_left (grows oidAnyPolicy))
            · intro policy _
              simp [expectedUnder, found, active, activeToo]
          · refine ⟨?_, ?_⟩
            · intro policy held
              rcases (holds_inhibited_iff found active).mp held with ⟨asserted, unmapped⟩
              by_cases activeToo : 0 < (countersUnder der high above).policyMapping
              · exact (holds_active_iff found activeToo).mpr (.inl (grows policy asserted))
              · exact (holds_inhibited_iff found activeToo).mpr ⟨grows policy asserted, unmapped⟩
            · intro policy held
              have unmapped := ((holds_inhibited_iff found active).mp held).2
              simp only [expectedUnder, found, if_neg active]
              by_cases activeToo : 0 < (countersUnder der high above).policyMapping
              · rw [if_pos activeToo, remapped_of_not_issuer unmapped]
                exact fun _ => id
              · rw [if_neg activeToo]
                exact fun _ => id

end Levels

section Trees

variable {der : DerCodec} {length : Nat} {low high : PolicyState} {cert : Certificate}
variable {upper : List Certificate}

/-- A tree that has gone is one whose lowest level holds no policy. -/
theorem levelsAt_none_iff {start : PolicyCounters} {bottom : ObjectIdentifier → Prop}
    {expected : ObjectIdentifier → List ObjectIdentifier} {above : List Certificate}
    {tree : Option PolicyTree} (levels : LevelsAt der length start bottom expected above tree) :
    tree = none ↔ ∀ policy, ¬bottom policy := by
  cases tree with
  | none => exact ⟨fun _ => levels, fun _ => rfl⟩
  | some tree =>
      have inhabited : ∃ policy, bottom policy := by
        rcases levels.lowest with ⟨node, member, place⟩
        exact ⟨node.validPolicy,
          (levels.level 0 (Nat.zero_le _) node.validPolicy).mp ⟨node, member, place, rfl⟩⟩
      rcases inhabited with ⟨policy, held⟩
      constructor
      · intro gone
        cases gone
      · intro empty
        exact absurd held (empty policy)

/-- Higher counters keep the tree alive. -/
theorem processed_none_mono {index depth : Nat} (place : depth = upper.length + 1)
    (position : index = length - depth) (initialLow : low.policyTree = some initPolicyTree)
    (initialHigh : high.policyTree = some initPolicyTree)
    (less : low.counters.AtMost high.counters)
    (allowed : ∀ other ∈ upper, MappingsAllowed der other)
    (gone : (processed der cert index depth (policiesUnder der length high upper)).policyTree =
      none) :
    (processed der cert index depth (policiesUnder der length low upper)).policyTree = none := by
  subst position place
  rw [levelsAt_none_iff (levels_processedUnder der length cert initialHigh upper allowed)] at gone
  rw [levelsAt_none_iff (levels_processedUnder der length cert initialLow upper allowed)]
  intro policy asserted
  have grown := holds_mono der length less upper
  exact gone policy (assertedBelow_mono (expandsAny_mono less) grown.1 grown.2 asserted)

end Trees

section Verdict

variable {der : DerCodec} {strict lax : ValidationPolicy} {verifier : SignatureVerifier}
variable {chain : List Certificate} {anchors : List TrustAnchor}

theorem PoliciesPass.freer {low high : PolicyState} {length index depth : Nat}
    {cert : Certificate} {upper : List Certificate} (place : depth = upper.length + 1)
    (position : index = length - depth) (initialLow : low.policyTree = some initPolicyTree)
    (initialHigh : high.policyTree = some initPolicyTree)
    (less : low.counters.AtMost high.counters)
    (allowed : ∀ other ∈ upper, MappingsAllowed der other)
    (passed : PoliciesPass der cert index depth (policiesUnder der length low upper)) :
    PoliciesPass der cert index depth (policiesUnder der length high upper) := by
  refine ⟨passed.decoded, ?_⟩
  rintro ⟨spent, gone⟩
  apply passed.explicit
  refine ⟨?_, processed_none_mono place position initialLow initialHigh less allowed gone⟩
  have counted := (countersUnder_mono der less upper).explicitPolicy
  rw [policiesUnder_counters] at spent ⊢
  omega

/-- The policy walk under the laxer policy follows the one under the stricter policy. -/
theorem policyWalk_freer (freer : FreerInputs strict lax) {leaf : Certificate}
    {upper : List Certificate} {state : PolicyState}
    (walked : policyWalk der strict (leaf :: upper) = .ok state) :
    ∃ final, policyWalk der lax (leaf :: upper) = .ok final ∧
      state.counters.explicitPolicy ≤ final.counters.explicitPolicy ∧
      (final.policyTree = none → state.policyTree = none) := by
  have less : (initialPolicyState strict (leaf :: upper)).counters.AtMost
      (initialPolicyState lax (leaf :: upper)).counters :=
    initialCounters_mono freer (leaf :: upper)
  rcases policyWalk_ok_iff.mp walked with ⟨cas, bottom, rfl⟩
  have allowed : ∀ other ∈ upper, MappingsAllowed der other := by
    intro other member
    rcases List.mem_iff_getElem?.mp member with ⟨index, found⟩
    exact (cas index other found).allowed
  have whole : 0 = upper.length + 1 - (upper.length + 1) := (Nat.sub_self _).symm
  refine ⟨_, policyWalk_ok_iff.mpr ⟨?_, bottom.freer rfl whole rfl rfl less allowed, rfl⟩, ?_, ?_⟩
  · intro index cert found
    have passed := cas index cert found
    have inside := (List.getElem?_eq_some_iff.mp found).1
    have place : upper.length + 1 - (index + 1) = (upper.drop (index + 1)).length + 1 := by
      rw [List.length_drop]
      omega
    have position : index + 1 = upper.length + 1 - (upper.length + 1 - (index + 1)) := by omega
    have freerHere := passed.toPoliciesPass.freer place position rfl rfl less
      (fun other member => allowed other (List.mem_of_mem_drop member))
    exact ⟨freerHere, passed.mappings, passed.allowed, passed.constraints, passed.inhibit⟩
  · have counted := (countersUnder_mono der less upper).explicitPolicy
    have counters (policy : ValidationPolicy) :
        (processed der leaf 0 (upper.length + 1) (policiesUnder der (upper.length + 1)
          (initialPolicyState policy (leaf :: upper)) upper)).counters =
          countersUnder der (initialCounters policy (leaf :: upper)) upper :=
      policiesUnder_counters upper
    rw [counters, counters]
    exact counted
  · exact processed_none_mono rfl whole rfl rfl less allowed

/-- The wrap-up that accepts any policy passes whatever one with a policy set passes. -/
theorem wrapUp_freer (freer : FreerInputs strict lax) {leaf : Certificate}
    {state final : PolicyState} {tree : Option PolicyTree}
    (counted : state.counters.explicitPolicy ≤ final.counters.explicitPolicy)
    (gone : final.policyTree = none → state.policyTree = none)
    (wrapped : wrapUp der strict chain leaf state = .ok tree) :
    wrapUp der lax chain leaf final = .ok final.policyTree := by
  rcases wrapUp_ok_iff.mp wrapped with ⟨explicitPolicy, decoded, rfl, allowed⟩
  have kept : trimPolicyTree lax.initialPolicySet chain.length final.policyTree =
      final.policyTree := by
    simp [trimPolicyTree, freer.policySet]
  rcases Walk.bind_ok.mp decoded with ⟨constraints, found, same⟩
  rw [Walk.pure_ok] at same
  refine wrapUp_ok_iff.mpr ⟨_, Walk.bind_ok.mpr ⟨constraints, found, rfl⟩, kept.symm, ?_⟩
  rintro ⟨spent, none_left⟩
  apply allowed
  refine ⟨?_, ?_⟩
  · rw [← same]
    have lower := clampTo_mono (constraints.bind (·.requireExplicitPolicy))
      (show (if isSelfIssuedCert leaf then state.counters.explicitPolicy
          else state.counters.explicitPolicy - 1) ≤
        if isSelfIssuedCert leaf then final.counters.explicitPolicy
          else final.counters.explicitPolicy - 1 by split <;> omega)
    omega
  · rw [gone none_left]
    unfold trimPolicyTree
    split <;> rfl

/-- What the policies of the walk decide, the same for every anchor. -/
def PoliciesAccept (der : DerCodec) (policy : ValidationPolicy) (chain : List Certificate)
    (leaf : Certificate) (tree : Option PolicyTree) : Prop :=
  ∃ state, policyWalk der policy chain = .ok state ∧ wrapUp der policy chain leaf state = .ok tree

theorem policiesAccept_freer (freer : FreerInputs strict lax) {leaf : Certificate}
    {tree : Option PolicyTree} (first : chain.head? = some leaf)
    (accepts : PoliciesAccept der strict chain leaf tree) :
    ∃ image, PoliciesAccept der lax chain leaf image := by
  cases chain with
  | nil => cases first
  | cons head upper =>
      cases first
      rcases accepts with ⟨state, walked, wrapped⟩
      rcases policyWalk_freer freer walked with ⟨final, followed, counted, gone⟩
      exact ⟨_, final, followed, wrapUp_freer freer counted gone wrapped⟩

end Verdict

/-- A policy that asks no more, inhibits no more and accepts any policy validates every chain
that the stricter one does, from the same anchor; only the policy tree may differ. -/
theorem validatePath_relax_inputs (der : DerCodec) (strict lax : ValidationPolicy)
    (verifier : SignatureVerifier) (chain : List Certificate) (anchors : List TrustAnchor)
    (stricter : Stricter strict lax) (freer : FreerInputs strict lax) (path : ValidatedPath)
    (accepted : validatePath der strict verifier chain anchors = .ok path) :
    ∃ tree, validatePath der lax verifier chain anchors =
      .ok { path with validPolicyTree := tree } := by
  have own := meets_of_validatePath accepted
  have met := own.relax stricter
  rcases validatePath_ok accepted with ⟨leaf, _, _, _, first, _, _, _, walked, _⟩
  rcases chainWalk_accepts_iff.mp walked with ⟨_, policies⟩
  rcases policiesAccept_freer freer first policies with ⟨image, laxPolicies⟩
  rcases validatePath_accepts_iff.mp ⟨path, accepted⟩ with
    ⟨inputs, oids, short, head, lastCert, sameFirst, last, _⟩
  rw [first] at sameFirst
  cases sameFirst
  rw [validatePath_eq_tryAnchors inputs oids short first last] at accepted
  rw [validatePath_eq_tryAnchors inputs oids (checkMaxPathLen_ok_iff_short.mpr met.short) first
    last]
  have forward (anchor : TrustAnchor) (tree : Option PolicyTree)
      (succeeded : chainWalk der strict verifier chain leaf anchor = .ok tree) :
      ∃ other, chainWalk der lax verifier chain leaf anchor = .ok other ∧ other = image := by
    rcases chainWalk_accepts_iff.mp succeeded with ⟨passed, _⟩
    exact ⟨image, chainWalk_accepts_iff.mpr ⟨passed.exchange met, laxPolicies⟩, rfl⟩
  have back (anchor : TrustAnchor) (tree : Option PolicyTree)
      (succeeded : chainWalk der lax verifier chain leaf anchor = .ok tree) :
      ∃ other, chainWalk der strict verifier chain leaf anchor = .ok other := by
    rcases chainWalk_accepts_iff.mp succeeded with ⟨passed, _⟩
    exact ⟨_, chainWalk_accepts_iff.mpr ⟨passed.exchange own, policies⟩⟩
  rcases tryAnchors_transfer forward back accepted with ⟨tree, tried, _⟩
  exact ⟨tree, tried⟩

section RelaxationExample

open Concrete

private def relaxedCodec : DerCodec := policyCodec [[testPolicy 1]]

private def asserting : List Certificate := policyChain [testPolicy 1] [testPolicy 1]

private def capped : ValidationPolicy :=
  { explicitPolicy [testPolicy 1] with maxPathLen := 1, maxValiditySecs := some 400000000 }

/-- The same inputs without the bounds. -/
private def uncapped : ValidationPolicy := explicitPolicy [testPolicy 1]

private theorem capped_stricter (lax : ValidationPolicy) (longer : 1 ≤ lax.maxPathLen)
    (current : lax.currentTimeUnix = 1800000000) (crlSign : lax.requireCrlSignOnCas = false)
    (unbounded : lax.maxValiditySecs = none ∧ lax.allowedSignatureAlgs = none ∧
      lax.minRsaKeyBits = none ∧ lax.requiredLeafEku = none ∧
      lax.requiredLeafPolicyOids = none)
    (san : lax.requireSubjectAltName = false) (rfc822San : lax.requireRfc822San = false)
    (dnAttrs : lax.requiredLeafSubjectDnAttrs = none) : Stricter capped lax where
  maxPathLen := longer
  current := current.symm
  keyUsage _ := rfl
  crlSign asked := by simp [crlSign] at asked
  lifetime := by simp [unbounded]
  algorithms := by simp [unbounded]
  keySize := by simp [unbounded]
  san asked := by simp [san] at asked
  rfc822San asked := by simp [rfc822San] at asked
  eku := by simp [unbounded]
  policyOids := by simp [unbounded]
  dnAttrs := by simp [dnAttrs]

theorem validatePath_relax_example :
    ∃ path, validatePath relaxedCodec uncapped keyCopyVerifier asserting policyAnchors =
      .ok path := by
  rcases (ok_of_isSome (by decide +kernel) : ∃ path, validatePath relaxedCodec capped
    keyCopyVerifier asserting policyAnchors = .ok path) with ⟨path, accepted⟩
  have stricter : Stricter capped uncapped :=
    capped_stricter uncapped (by decide) rfl rfl ⟨rfl, rfl, rfl, rfl, rfl⟩ rfl rfl rfl
  exact ⟨path, validatePath_relax relaxedCodec capped uncapped keyCopyVerifier asserting
    policyAnchors stricter ⟨rfl, rfl, rfl, rfl⟩ path accepted⟩

theorem validatePath_relax_inputs_example :
    ∃ path, validatePath relaxedCodec (.new 1800000000) keyCopyVerifier asserting policyAnchors =
      .ok path := by
  rcases (ok_of_isSome (by decide +kernel) : ∃ path, validatePath relaxedCodec capped
    keyCopyVerifier asserting policyAnchors = .ok path) with ⟨path, accepted⟩
  have stricter : Stricter capped (.new 1800000000) :=
    capped_stricter _ (by decide) rfl rfl ⟨rfl, rfl, rfl, rfl, rfl⟩ rfl rfl rfl
  rcases validatePath_relax_inputs relaxedCodec capped (.new 1800000000) keyCopyVerifier asserting
    policyAnchors stricter ⟨nofun, nofun, nofun, rfl⟩ path accepted with ⟨tree, relaxed⟩
  exact ⟨_, relaxed⟩

end RelaxationExample

end Pkix.Path
