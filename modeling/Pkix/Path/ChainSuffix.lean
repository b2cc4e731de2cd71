import Pkix.Path.NameConstraintRules
import Pkix.Path.Relaxation

/-! The part of an accepted chain from an issuer upwards is a chain the validator accepts, under
the policy without what it asks of a leaf. -/

namespace Pkix.Path

/-- Nothing is asked of the leaf, and any policy is accepted at the end. -/
def ValidationPolicy.forIssuer (policy : ValidationPolicy) : ValidationPolicy :=
  { policy with
    requireSubjectAltName := false
    requiredLeafEku := none
    requiredLeafPolicyOids := none
    requiredLeafSubjectDnAttrs := none
    initialPolicySet := [] }

section Links

/-- The issuer that a certificate is checked against, by the certificates above it. -/
def issuerAbove (anchor : TrustAnchor) : List Certificate → WorkingIssuer
  | [] => anchorIssuer anchor
  | cert :: _ => issuerOf cert

/-- What the link track asks of one certificate under every policy. -/
structure LinkPasses (der : DerCodec) (verifier : SignatureVerifier) (chain : List Certificate)
    (cert : Certificate) (index : Nat) (issuer : WorkingIssuer) : Prop where
  signed : verifyCertSignature der cert index issuer.workingSpki verifier = .ok ()
  linked : checkIssuerLinkage cert index issuer.workingIssuerName
    issuer.workingIssuerIsSanIdentity = .ok ()
  handled : checkCriticalExtensions cert index = .ok ()
  policies : ∃ policies, ExtHolds der.certificatePolicies cert oidCertificatePolicies policies
  san : ∃ san, ExtHolds der.subjectAltName cert oidSubjectAltName san
  ca : bareCheckCa der chain cert index = .ok ()

variable {der : DerCodec} {verifier : SignatureVerifier} {chain : List Certificate}
variable {anchor : TrustAnchor}

theorem bareLinkStep_ok_iff_passes {cert : Certificate} {below : List Certificate}
    {issuer next : WorkingIssuer} :
    bareLinkStep der verifier chain cert below issuer = .ok next ↔
      LinkPasses der verifier chain cert below.length issuer ∧ next = issuerOf cert := by
  have policies (found : Option CertificatePolicies) :
      certPolicies der cert below.length = .ok found ↔
        ExtHolds der.certificatePolicies cert oidCertificatePolicies found :=
    tryFindCertExt_ok_iff
  have names (found : Option SubjectAltName) :
      certSubjectAltNames der cert below.length = .ok found ↔
        ExtHolds der.subjectAltName cert oidSubjectAltName found :=
    tryFindCertExt_ok_iff
  simp only [bareLinkStep_ok_iff, policies, names]
  constructor
  · rintro ⟨⟨signed, linked, handled⟩, decoded, named, flagged, rfl⟩
    exact ⟨⟨signed, linked, handled, decoded, named, flagged⟩, rfl⟩
  · rintro ⟨passes, rfl⟩
    exact ⟨⟨passes.signed, passes.linked, passes.handled⟩, passes.policies, passes.san, passes.ca,
      rfl⟩

theorem runs_issuerOf (upper : List Certificate) :
    Walk.runs (fun _ cert _ => issuerOf cert) (anchorIssuer anchor) upper =
      issuerAbove anchor upper := by
  cases upper <;> rfl

/-- The links hold along a chain exactly when each certificate passes against the one above. -/
theorem bareLinkWalk_succeeds_iff {whole : List Certificate} :
    (∃ final, Walk.walk (bareLinkStep der verifier whole) chain.reverse (anchorIssuer anchor) =
        .ok final) ↔
      ∀ index cert, chain[index]? = some cert →
        LinkPasses der verifier whole cert index (issuerAbove anchor (chain.drop (index + 1))) := by
  cases chain with
  | nil => simp [Walk.walk]
  | cons leaf upper =>
      have rule (final : WorkingIssuer) := reverse_walk_ok_iff (bareLinkStep der verifier whole)
        (fun _ cert _ => issuerOf cert)
        (fun cert index => LinkPasses der verifier whole cert index) leaf upper
        (anchorIssuer anchor) final
        (by
          intro index cert below issuer next _ lower
          rw [← lower]
          exact bareLinkStep_ok_iff_passes)
      simp only [rule, runs_issuerOf, exists_and_left, bareLinkStep_ok_iff_passes, exists_eq,
        and_true]
      constructor
      · rintro ⟨passed, leafPassed⟩ index cert located
        cases index with
        | zero =>
            cases Option.some.inj located
            exact leafPassed
        | succ index => exact passed index cert located
      · intro everywhere
        exact ⟨fun index cert located => everywhere (index + 1) cert located,
          everywhere 0 leaf rfl⟩

end Links

section Counters

variable {der : DerCodec} {remaining : Nat}

/-- The counters are the same, or neither can run out in the certificates that remain. -/
def Agree (remaining first second : Nat) : Prop :=
  first = second ∨ (remaining < first ∧ remaining < second)

structure CountersAgree (remaining : Nat) (first second : PolicyCounters) : Prop where
  explicitPolicy : Agree remaining first.explicitPolicy second.explicitPolicy
  inhibitAny : Agree remaining first.inhibitAny second.inhibitAny
  policyMapping : Agree remaining first.policyMapping second.policyMapping

structure StatesAgree (remaining : Nat) (first second : PolicyState) : Prop where
  counters : CountersAgree remaining first.counters second.counters
  policyTree : first.policyTree = second.policyTree

theorem Agree.positive_iff {first second : Nat} (agree : Agree remaining first second) :
    0 < first ↔ 0 < second := by
  rcases agree with same | ⟨left, right⟩
  · rw [same]
  · omega

theorem Agree.decrement {first second : Nat} (agree : Agree (remaining + 1) first second) :
    Agree remaining (first - 1) (second - 1) := by
  rcases agree with same | ⟨left, right⟩
  · exact .inl (by rw [same])
  · exact .inr (by omega)

theorem Agree.pass {first second : Nat} (agree : Agree (remaining + 1) first second) :
    Agree remaining first second := by
  rcases agree with same | ⟨left, right⟩
  · exact .inl same
  · exact .inr (by omega)

theorem Agree.clamp {first second : Nat} (agree : Agree remaining first second)
    (bound : Option Nat) : Agree remaining (clampTo first bound) (clampTo second bound) := by
  rcases agree with same | ⟨left, right⟩
  · exact .inl (by rw [same])
  · cases bound with
    | none => exact .inr ⟨left, right⟩
    | some value =>
        simp only [clampTo]
        by_cases low : value ≤ remaining
        · exact .inl (by omega)
        · exact .inr (by omega)

variable (der) in
theorem CountersAgree.after {first second : PolicyCounters}
    (agree : CountersAgree (remaining + 1) first second) (cert : Certificate) :
    CountersAgree remaining (countersAfter der cert first) (countersAfter der cert second) := by
  have decremented : CountersAgree remaining (decrementCounters cert first)
      (decrementCounters cert second) := by
    unfold decrementCounters
    split
    · exact ⟨agree.explicitPolicy.pass, agree.inhibitAny.pass, agree.policyMapping.pass⟩
    · exact ⟨agree.explicitPolicy.decrement, agree.inhibitAny.decrement,
        agree.policyMapping.decrement⟩
  exact
    { explicitPolicy := decremented.explicitPolicy.clamp _
      inhibitAny := decremented.inhibitAny.clamp _
      policyMapping := decremented.policyMapping.clamp _ }

/-- The chain's own length only matters to counters that cannot run out. -/
theorem initialCounters_agree (policy : ValidationPolicy) (chain : List Certificate)
    (index : Nat) :
    CountersAgree (chain.length - index) (initialCounters policy chain)
      (initialCounters policy.forIssuer (chain.drop index)) := by
  have counter (inhibited : Bool) :
      Agree (chain.length - index) (initialCounter chain inhibited)
        (initialCounter (chain.drop index) inhibited) := by
    unfold initialCounter Agree
    rw [List.length_drop]
    cases inhibited with
    | false =>
        have limit : u32Max = 4294967295 := rfl
        simp only [Bool.false_eq_true, if_false]
        omega
    | true => exact .inl rfl
  exact ⟨counter _, counter _, counter _⟩

end Counters

section States

variable {der : DerCodec} {remaining : Nat} {first second : PolicyState} {cert : Certificate}

theorem mayExpandAnyPolicy_congr {index index' inhibit inhibit' : Nat}
    (positions : isSelfIssuedCert cert = true → (0 < index ↔ 0 < index'))
    (counters : 0 < inhibit ↔ 0 < inhibit') :
    mayExpandAnyPolicy cert index inhibit = mayExpandAnyPolicy cert index' inhibit' := by
  unfold mayExpandAnyPolicy
  rw [Bool.eq_iff_iff]
  simp only [Bool.or_eq_true, Bool.and_eq_true, decide_eq_true_eq, counters]
  by_cases self : isSelfIssuedCert cert = true
  · rw [positions self]
  · simp [self]

variable (der) in
theorem processed_agree {index index' : Nat} (depth : Nat)
    (positions : isSelfIssuedCert cert = true → (0 < index ↔ 0 < index'))
    (agree : StatesAgree remaining first second) :
    StatesAgree remaining (processed der cert index depth first)
      (processed der cert index' depth second) := by
  refine ⟨agree.counters, ?_⟩
  simp only [processed, processCertPolicies]
  rw [agree.policyTree,
    mayExpandAnyPolicy_congr positions agree.counters.inhibitAny.positive_iff]

theorem mappedTree_agree {depth : Nat} (agree : StatesAgree remaining first second) :
    mappedTree der cert depth first = mappedTree der cert depth second := by
  have active := agree.counters.policyMapping.positive_iff
  unfold mappedTree
  rw [agree.policyTree]
  cases certMappings der cert with
  | none => rfl
  | some mappings =>
      have same : applyPolicyMappings depth first.counters.policyMapping
          (listedPolicies der cert) mappings =
          applyPolicyMappings depth second.counters.policyMapping
            (listedPolicies der cert) mappings := by
        funext tree
        unfold applyPolicyMappings
        by_cases positive : 0 < first.counters.policyMapping
        · rw [if_pos positive, if_pos (active.mp positive)]
        · rw [if_neg positive, if_neg (mt active.mpr positive)]
      simp only [same]

theorem caPolicyAdvance_agree {index index' depth : Nat}
    (positions : isSelfIssuedCert cert = true → (0 < index ↔ 0 < index'))
    (agree : StatesAgree (remaining + 1) first second) :
    StatesAgree remaining (caPolicyAdvance der cert index depth first)
      (caPolicyAdvance der cert index' depth second) := by
  have own := processed_agree der depth positions agree
  refine ⟨agree.counters.after der cert, ?_⟩
  show collapseNullTree _ = collapseNullTree _
  rw [mappedTree_agree own]

variable (der) in
/-- Under the same certificates the two walks keep states that agree. -/
theorem policiesUnder_agree {length : Nat} (offset : Nat) (upper : List Certificate)
    (inside : upper.length < length) (agree : StatesAgree length first second) :
    StatesAgree (length - upper.length) (policiesUnder der (length + offset) first upper)
      (policiesUnder der length second upper) := by
  induction upper with
  | nil => exact agree
  | cons cert above ih =>
      rw [List.length_cons] at inside
      have earlier := ih (by omega)
      have split : length - above.length = length - (above.length + 1) + 1 := by omega
      rw [split] at earlier
      rw [policiesUnder_cons, policiesUnder_cons]
      apply caPolicyAdvance_agree ?_ earlier
      intro _
      omega

end States

section Positions

variable {der : DerCodec} {policy : ValidationPolicy} {chain : List Certificate}

/-- What the policy track asks at a position, in the state under the certificates above. -/
structure PoliciesPassAt (der : DerCodec) (length : Nat) (start : PolicyState)
    (cert : Certificate) (index : Nat) (upper : List Certificate) : Prop where
  own : PoliciesPass der cert index (length - index) (policiesUnder der length start upper)
  ca : index ≠ 0 →
    CaPoliciesPass der cert index (length - index) (policiesUnder der length start upper)

/-- The policy track succeeds exactly when every certificate passes at its position. -/
theorem policyWalk_succeeds_iff {leaf : Certificate} {upper : List Certificate}
    (split : chain = leaf :: upper) {final : PolicyState} :
    policyWalk der policy chain = .ok final ↔
      (∀ index cert, chain[index]? = some cert →
        PoliciesPassAt der chain.length (initialPolicyState policy chain) cert index
          (chain.drop (index + 1))) ∧
      final = processed der leaf 0 chain.length
        (policiesUnder der chain.length (initialPolicyState policy chain) upper) := by
  subst split
  rw [policyWalk_ok_iff]
  constructor
  · rintro ⟨cas, bottom, rfl⟩
    refine ⟨?_, rfl⟩
    intro index cert located
    cases index with
    | zero =>
        cases Option.some.inj located
        exact ⟨bottom, fun inner => absurd rfl inner⟩
    | succ index =>
        have passed := cas index cert located
        exact ⟨passed.toPoliciesPass, fun _ => passed⟩
  · rintro ⟨everywhere, rfl⟩
    refine ⟨?_, (everywhere 0 leaf rfl).own, rfl⟩
    intro index cert located
    exact (everywhere (index + 1) cert located).ca (Nat.succ_ne_zero index)

variable {cert : Certificate} {index index' depth remaining : Nat} {first second : PolicyState}

theorem tryFindCertExt_moves {α : Type} {decode : Bytes → Option α} {oid : ObjectIdentifier}
    (found : ∃ content, tryFindCertExt decode cert oid index = .ok content) (position : Nat) :
    ∃ content, tryFindCertExt decode cert oid position = .ok content := by
  rcases found with ⟨content, decoded⟩
  exact ⟨content, tryFindCertExt_ok_iff.mpr (tryFindCertExt_ok_iff.mp decoded)⟩

theorem PoliciesPass.moves (passed : PoliciesPass der cert index depth first)
    (positions : isSelfIssuedCert cert = true → (0 < index ↔ 0 < index'))
    (agree : StatesAgree remaining first second) :
    PoliciesPass der cert index' depth second := by
  refine ⟨tryFindCertExt_moves passed.decoded index', ?_⟩
  have own := processed_agree der depth positions agree
  rintro ⟨spent, gone⟩
  apply passed.explicit
  refine ⟨?_, by rw [own.policyTree]; exact gone⟩
  have counted := agree.counters.explicitPolicy.positive_iff
  omega

theorem CaPoliciesPass.moves (passed : CaPoliciesPass der cert index depth first)
    (positions : isSelfIssuedCert cert = true → (0 < index ↔ 0 < index'))
    (agree : StatesAgree remaining first second) :
    CaPoliciesPass der cert index' depth second :=
  { passed.toPoliciesPass.moves positions agree with
    mappings := tryFindCertExt_moves passed.mappings index'
    allowed := passed.allowed
    constraints := tryFindCertExt_moves passed.constraints index'
    inhibit := tryFindCertExt_moves passed.inhibit index' }

/-- A tree that a CA's own policies end stays ended for the certificate below it. -/
theorem processed_none_below {lower : Certificate} {position depth' : Nat}
    (gone : (processed der cert index depth first).policyTree = none) :
    (processed der lower position depth'
      (caPolicyAdvance der cert index depth first)).policyTree = none := by
  have mapped : (caPolicyAdvance der cert index depth first).policyTree = none := by
    show collapseNullTree (mappedTree der cert depth (processed der cert index depth first)) = none
    unfold mappedTree
    rw [gone]
    cases certMappings der cert <;> rfl
  simp [processed, processCertPolicies, mapped]

end Positions

section Policies

variable {der : DerCodec} {policy : ValidationPolicy} {chain : List Certificate}
variable {cert : Certificate} {index : Nat}

variable (policy) in
theorem initialPolicyState_agree (index : Nat) :
    StatesAgree (chain.length - index) (initialPolicyState policy chain)
      (initialPolicyState policy.forIssuer (chain.drop index)) :=
  ⟨initialCounters_agree policy chain index, rfl⟩

variable (der policy) in
/-- The state above a position of the chain agrees with that of the part of the chain. -/
theorem policiesUnder_drop_agree (inside : index < chain.length) (offset : Nat) :
    StatesAgree (chain.length - index - (chain.drop (index + (offset + 1))).length)
      (policiesUnder der chain.length (initialPolicyState policy chain)
        (chain.drop (index + (offset + 1))))
      (policiesUnder der (chain.length - index)
        (initialPolicyState policy.forIssuer (chain.drop index))
        (chain.drop (index + (offset + 1)))) := by
  have whole : chain.length = chain.length - index + index := by omega
  have shorter : (chain.drop (index + (offset + 1))).length < chain.length - index := by
    rw [List.length_drop]
    omega
  have agree := policiesUnder_agree der index _ shorter
    (initialPolicyState_agree policy index)
  rw [← whole] at agree
  exact agree

theorem PoliciesPassAt.drop {other : Certificate} {offset : Nat} (inside : index < chain.length)
    (issued : offset = 0 → isSelfIssuedCert other = false)
    (passed : PoliciesPassAt der chain.length (initialPolicyState policy chain) other
      (index + offset) (chain.drop (index + offset + 1))) :
    PoliciesPassAt der (chain.length - index)
      (initialPolicyState policy.forIssuer (chain.drop index)) other offset
      (chain.drop (index + offset + 1)) := by
  have depth : chain.length - (index + offset) = chain.length - index - offset := by omega
  have agree := policiesUnder_drop_agree der policy inside offset
  rw [← Nat.add_assoc] at agree
  rw [Nat.sub_add_eq] at depth
  have positions : isSelfIssuedCert other = true → (0 < index + offset ↔ 0 < offset) := by
    intro self
    have inner : offset ≠ 0 := fun bottom => by simp [issued bottom] at self
    omega
  refine ⟨?_, ?_⟩
  · have own := passed.own
    rw [Nat.sub_add_eq] at own
    exact own.moves positions agree
  · intro inner
    have ca := passed.ca (by omega)
    rw [Nat.sub_add_eq] at ca
    exact ca.moves positions agree

theorem drop_eq_cons (located : chain[index]? = some cert) :
    chain.drop index = cert :: chain.drop (index + 1) := by
  rcases List.getElem?_eq_some_iff.mp located with ⟨inside, same⟩
  rw [List.drop_eq_getElem_cons inside, same]

/-- The certificate below an issuer has passed with the counter and the tree it leaves. -/
theorem explicit_after_issuer (inner : 0 < index) (located : chain[index]? = some cert)
    (passes : ∀ position other, chain[position]? = some other →
      PoliciesPassAt der chain.length (initialPolicyState policy chain) other position
        (chain.drop (position + 1))) :
    ¬((countersAfter der cert (policiesUnder der chain.length (initialPolicyState policy chain)
          (chain.drop (index + 1))).counters).explicitPolicy = 0 ∧
      (processed der cert index (chain.length - index) (policiesUnder der chain.length
        (initialPolicyState policy chain) (chain.drop (index + 1)))).policyTree = none) := by
  rintro ⟨spent, gone⟩
  have inside := (List.getElem?_eq_some_iff.mp located).1
  have bounded : index - 1 < chain.length := by omega
  have lower : chain[index - 1]? = some chain[index - 1] := List.getElem?_eq_getElem bounded
  have below := (passes _ _ lower).own.explicit
  have place : (chain.drop (index + 1)).length + 1 = chain.length - index := by
    rw [List.length_drop]
    omega
  have position : chain.length - (chain.length - index) = index := by omega
  have next : index - 1 + 1 = index := by omega
  rw [next, drop_eq_cons located, policiesUnder_cons, place, position] at below
  exact below ⟨spent, processed_none_below gone⟩

/-- Where any policy is accepted, the wrap-up asks for a tree only once the counter is spent. -/
theorem wrapUp_of_any {other : ValidationPolicy} {certs : List Certificate} {state : PolicyState}
    (any : other.initialPolicySet = [])
    (decodes : ∃ found, tryFindCertExt der.policyConstraints cert oidPolicyConstraints 0 =
      .ok found)
    (allowed : ¬((countersAfter der cert state.counters).explicitPolicy = 0 ∧
      state.policyTree = none)) :
    wrapUp der other certs cert state = .ok state.policyTree := by
  rcases decodes with ⟨constraints, decoded⟩
  have kept : trimPolicyTree other.initialPolicySet certs.length state.policyTree =
      state.policyTree := by
    simp [trimPolicyTree, any]
  refine wrapUp_ok_iff.mpr ⟨_, Walk.bind_ok.mpr ⟨constraints, decoded, rfl⟩, kept.symm, ?_⟩
  rw [countersAfter_explicit, requiredSkip, tryFindCertExt_ok decoded] at allowed
  exact allowed

/-- The policy track succeeds from an issuer upwards, and its wrap-up does too. -/
theorem policiesAccept_drop {leaf : Certificate} {tree : Option PolicyTree}
    (inner : 0 < index) (located : chain[index]? = some cert)
    (issued : isSelfIssuedCert cert = false)
    (accepts : PoliciesAccept der policy chain leaf tree) :
    ∃ image, PoliciesAccept der policy.forIssuer (chain.drop index) cert image := by
  rcases accepts with ⟨state, walked, _⟩
  have inside := (List.getElem?_eq_some_iff.mp located).1
  have length : (chain.drop index).length = chain.length - index := List.length_drop
  cases whole : chain with
  | nil => simp [whole] at inside
  | cons head upper =>
      rw [← whole]
      have passes := ((policyWalk_succeeds_iff whole).mp walked).1
      have followed (final : PolicyState) :=
        @policyWalk_succeeds_iff der policy.forIssuer _ _ _ (drop_eq_cons located) final
      have walks := (followed _).mpr ⟨?_, rfl⟩
      · refine ⟨_, _, walks, wrapUp_of_any rfl
          (tryFindCertExt_moves ((passes index cert located).ca (by omega)).constraints 0) ?_⟩
        rintro ⟨spent, gone⟩
        have above := policiesUnder_drop_agree der policy inside 0
        have remaining : chain.length - index - (chain.drop (index + (0 + 1))).length = 0 + 1 := by
          rw [List.length_drop]
          omega
        rw [remaining, ← length] at above
        have counted := (above.counters.after der cert).explicitPolicy.positive_iff
        have selfIssued : isSelfIssuedCert cert = true → (0 < index ↔ 0 < 0) := by simp [issued]
        have trees := processed_agree der (chain.drop index).length selfIssued above
        apply explicit_after_issuer inner located passes
        rw [← length]
        refine ⟨?_, trees.policyTree.trans gone⟩
        have zero : ¬0 < (countersAfter der cert (policiesUnder der (chain.drop index).length
            (initialPolicyState policy.forIssuer (chain.drop index))
            (chain.drop (index + 1))).counters).explicitPolicy := by
          rw [Nat.not_lt, Nat.le_zero]
          exact spent
        exact Nat.eq_zero_of_not_pos (mt counted.mp zero)
      · intro offset other found
        rw [List.getElem?_drop] at found
        rw [length, List.drop_drop, ← Nat.add_assoc]
        apply PoliciesPassAt.drop inside ?_ (passes (index + offset) other found)
        rintro rfl
        rw [Nat.add_zero, located] at found
        rw [← Option.some.inj found]
        exact issued

end Policies

section Links

variable {der : DerCodec} {policy : ValidationPolicy} {verifier : SignatureVerifier}
variable {chain : List Certificate} {anchor : TrustAnchor} {cert : Certificate} {index : Nat}

/-- Fewer certificates lie below an issuer in the part of the chain. -/
theorem checkPathLen_drop {position : Nat} {constraints : Option BasicConstraints}
    (checked : checkPathLen (index + position) chain constraints = .ok ()) :
    checkPathLen position (chain.drop index) constraints = .ok () := by
  unfold checkPathLen at checked ⊢
  cases bounded : constraints.bind (·.pathLenConstraint) with
  | none => rfl
  | some pathLen =>
      simp only [bounded, requireThat_ok_iff, decide_eq_true_eq] at checked ⊢
      have within : (intermediatesBelow position (chain.drop index)).Sublist
          (intermediatesBelow (index + position) chain) := by
        unfold intermediatesBelow
        rw [List.take_drop, List.drop_drop]
        exact List.drop_sublist_drop_left _ (by omega)
      exact Nat.le_trans (within.filter _).length_le checked

theorem LinkPasses.drop {other : Certificate} {position : Nat} {issuer : WorkingIssuer}
    (passes : LinkPasses der verifier chain other (index + position) issuer) :
    LinkPasses der verifier (chain.drop index) other position issuer where
  signed := by
    have signed := passes.signed
    unfold verifyCertSignature at signed ⊢
    cases encoded : der.encodeTbs other.tbsCertificate with
    | error failure => simp [encoded] at signed
    | ok tbsBytes =>
        simp only [encoded, requireThat_ok_iff] at signed ⊢
        exact signed
  linked := by
    have linked := passes.linked
    simp only [checkIssuerLinkage, requireThat_ok_iff] at linked ⊢
    exact linked
  handled := by
    have handled := passes.handled
    simp only [checkCriticalExtensions, requireThat_ok_iff] at handled ⊢
    exact handled
  policies := passes.policies
  san := passes.san
  ca := by
    by_cases bottom : position = 0
    · rw [bareCheckCa, if_pos bottom]
    · have ca := passes.ca
      rw [bareCheckCa, if_neg (by omega)] at ca
      rw [bareCheckCa, if_neg bottom]
      rcases Walk.bind_ok.mp ca with ⟨constraints, decoded, ca⟩
      rcases Walk.then_ok.mp ca with ⟨flagged, short⟩
      exact Walk.bind_ok.mpr ⟨constraints,
        tryFindCertExt_ok_iff.mpr (tryFindCertExt_ok_iff.mp decoded),
        Walk.then_ok.mpr ⟨requireThat_ok_iff.mpr (requireThat_ok_iff.mp flagged),
          checkPathLen_drop short⟩⟩

theorem Meets.drop (met : Meets der policy chain) (index : Nat) (inner : 0 < index) :
    Meets der policy.forIssuer (chain.drop index) where
  short := by
    have within : ((chain.drop index).drop 1).Sublist (chain.drop 1) := by
      rw [List.drop_drop]
      exact List.drop_sublist_drop_left _ (by omega)
    exact Nat.le_trans (within.filter _).length_le met.short
  everywhere cert member :=
    { algorithm := (met.everywhere cert (List.mem_of_mem_drop member)).algorithm
      current := (met.everywhere cert (List.mem_of_mem_drop member)).current
      lifetime := (met.everywhere cert (List.mem_of_mem_drop member)).lifetime
      keySize := (met.everywhere cert (List.mem_of_mem_drop member)).keySize }
  leaf cert first :=
    { san := nofun
      rfc822San := nofun
      eku := nofun
      policyOids := nofun
      dnAttrs := nofun }
  cas cert member := by
    have above : cert ∈ chain.drop 1 := by
      rw [List.drop_drop] at member
      exact (List.drop_sublist_drop_left chain (by omega)).subset member
    exact
      { certSign := (met.cas cert above).certSign
        crlSign := (met.cas cert above).crlSign }

theorem linkWalk_drop (inner : 0 < index) (met : Meets der policy chain)
    (linked : ∃ issuer, linkWalk der policy verifier chain anchor = .ok issuer) :
    ∃ issuer, linkWalk der policy.forIssuer verifier (chain.drop index) anchor = .ok issuer := by
  rcases linked with ⟨issuer, linked⟩
  have passes := bareLinkWalk_succeeds_iff.mp ⟨issuer, (linkWalk_ok_iff_meets.mp linked).1⟩
  have upper : ∃ final, Walk.walk (bareLinkStep der verifier (chain.drop index))
      (chain.drop index).reverse (anchorIssuer anchor) = .ok final := by
    apply bareLinkWalk_succeeds_iff.mpr
    intro position other found
    rw [List.getElem?_drop] at found
    rw [List.drop_drop, ← Nat.add_assoc]
    exact (passes (index + position) other found).drop
  have suffix := met.drop index inner
  rcases upper with ⟨final, walked⟩
  exact ⟨final, linkWalk_ok_iff_meets.mpr
    ⟨walked, along_meetsAt_iff.mpr ⟨suffix.everywhere, suffix.leaf, suffix.cas⟩⟩⟩

end Links

section Names

variable {der : DerCodec} {chain : List Certificate} {anchor : TrustAnchor}
variable {cert : Certificate} {index : Nat}

theorem checkSubjectEmails_moves {subject : Name} {names : NameConstraintState} {position : Nat}
    (checked : checkSubjectEmails der subject names index = .ok ()) :
    checkSubjectEmails der subject names position = .ok () := by
  unfold checkSubjectEmails at checked ⊢
  split at checked
  · cases checked
  · rename_i allowed
    rw [if_neg allowed]

theorem checkNameConstraints_moves {san : Option SubjectAltName} {names : NameConstraintState}
    {position : Nat} (checked : checkNameConstraints der cert san names index = .ok ()) :
    checkNameConstraints der cert san names position = .ok () := by
  rcases checkNameConstraints_ok_iff.mp checked with ⟨clear, permitted, emails⟩
  exact checkNameConstraints_ok_iff.mpr ⟨clear,
    checkPermittedNames_ok_iff.mpr (checkPermittedNames_ok_iff.mp permitted),
    checkSubjectEmails_moves emails⟩

theorem certNameConstraints_moves {position : Nat}
    (decoded : ∃ found, certNameConstraints der cert index = .ok found) :
    ∃ found, certNameConstraints der cert position = .ok found := by
  rcases decoded with ⟨found, decoded⟩
  unfold certNameConstraints at decoded ⊢
  cases content : tryFindCertExt der.nameConstraints cert oidNameConstraints index with
  | error failure => simp [content] at decoded
  | ok value =>
      rw [tryFindCertExt_ok_iff.mpr (tryFindCertExt_ok_iff.mp content)]
      rw [content] at decoded
      cases value with
      | none => exact ⟨none, rfl⟩
      | some nc =>
          simp only at decoded ⊢
          split at decoded
          · cases decoded
          · rename_i allowed
            rw [if_neg allowed]
            exact ⟨some nc, rfl⟩

theorem NamesPass.drop {names : NameConstraintState} {position : Nat} (inner : 0 < index)
    (issued : position = 0 → isSelfIssuedCert cert = false)
    (passed : NamesPass der (index + position) cert names) : NamesPass der position cert names := by
  rcases passed with ⟨san, decoded, allowed, wellFormed⟩
  refine ⟨san, tryFindCertExt_ok_iff.mpr (tryFindCertExt_ok_iff.mp decoded), ?_, ?_⟩
  · intro checked
    apply checkNameConstraints_moves
    apply allowed
    rcases checked with bottom | issuedHere
    · exact .inr (issued bottom)
    · exact .inr issuedHere
  · intro _
    exact certNameConstraints_moves (wellFormed (by omega))

theorem nameWalk_drop (inner : 0 < index) (located : chain[index]? = some cert)
    (issued : isSelfIssuedCert cert = false)
    (named : ∃ final, nameWalk der chain anchor = .ok final) :
    ∃ final, nameWalk der (chain.drop index) anchor = .ok final := by
  have passes := nameWalk_succeeds_iff.mp named
  apply nameWalk_succeeds_iff.mpr
  intro position other found
  rw [List.getElem?_drop] at found
  rw [List.drop_drop, ← Nat.add_assoc]
  apply NamesPass.drop inner ?_ (passes (index + position) other found)
  rintro rfl
  rw [Nat.add_zero, located] at found
  rw [← Option.some.inj found]
  exact issued

end Names

section Anchors

variable {der : DerCodec} {policy other : ValidationPolicy} {verifier : SignatureVerifier}
variable {chain certs : List Certificate} {anchors : List TrustAnchor}

/-- A chain whose walk succeeds wherever that of another does is anchored no later. -/
theorem tryAnchors_no_later {leaf leaf' lastCert : Certificate} {path : ValidatedPath}
    (walks : ∀ anchor tree, chainWalk der policy verifier chain leaf anchor = .ok tree →
      ∃ image, chainWalk der other verifier certs leaf' anchor = .ok image)
    {start : Nat} {lastErr otherErr : Error}
    (accepted : tryAnchors der policy verifier chain leaf lastCert start lastErr anchors =
      .ok path) :
    ∃ result, tryAnchors der other verifier certs leaf' lastCert start otherErr anchors =
      .ok result ∧ result.anchorIndex ≤ path.anchorIndex := by
  induction anchors generalizing start lastErr otherErr with
  | nil => cases accepted
  | cons anchor rest ih =>
      have place : start ≤ path.anchorIndex := by
        rcases tryAnchors_ok accepted with ⟨position, _, _, _, _, _, rfl⟩
        exact Nat.le_add_right start position
      rw [tryAnchors] at accepted ⊢
      by_cases candidate : isCandidate lastCert anchor = true
      · rw [if_pos candidate] at accepted ⊢
        cases there : chainWalk der other verifier certs leaf' anchor with
        | ok image => exact ⟨_, rfl, place⟩
        | error failure =>
            cases here : chainWalk der policy verifier chain leaf anchor with
            | ok tree =>
                rcases walks anchor tree here with ⟨image, walked⟩
                rw [there] at walked
                cases walked
            | error failure' =>
                rw [here] at accepted
                exact ih accepted
      · rw [if_neg candidate] at accepted ⊢
        exact ih accepted

theorem checkDuplicates_drop {index : Nat}
    (distinct : chain.Pairwise (fun a b => sameCertificate a b = false)) :
    checkDuplicates 0 (chain.drop index) = .ok () :=
  checkDuplicates_ok_iff.mpr (distinct.sublist (List.drop_sublist index chain))

theorem checkOidConsistency_ok_iff {start : Nat} :
    checkOidConsistency start chain = .ok () ↔
      ∀ cert ∈ chain, cert.signatureAlgorithm.oid = cert.tbsCertificate.signature.oid := by
  induction chain generalizing start with
  | nil => simp [checkOidConsistency]
  | cons cert rest ih =>
      rw [checkOidConsistency, List.forall_mem_cons]
      by_cases same : cert.signatureAlgorithm.oid = cert.tbsCertificate.signature.oid
      · rw [if_pos same, ih]
        exact (and_iff_right same).symm
      · simp [same]

end Anchors

/-- Every issuer of an accepted chain that is not self-issued heads an accepted chain of its own:
the certificates from it upwards, from the same anchor or an earlier one, under the policy
without what it asks of a leaf. -/
theorem validatePath_issuer (der : DerCodec) (policy : ValidationPolicy)
    (verifier : SignatureVerifier) (chain : List Certificate) (anchors : List TrustAnchor)
    (path : ValidatedPath)
    (accepted : validatePath der policy verifier chain anchors = .ok path)
    (index : Nat) (cert : Certificate) (inner : 0 < index) (located : chain[index]? = some cert)
    (issued : isSelfIssuedCert cert = false) :
    ∃ result, validatePath der policy.forIssuer verifier (chain.drop index) anchors = .ok result ∧
      result.anchorIndex ≤ path.anchorIndex := by
  have met := meets_of_validatePath accepted
  rcases validatePath_accepts_iff.mp ⟨path, accepted⟩ with
    ⟨inputs, oids, short, leaf, lastCert, first, last, _⟩
  have inside := (List.getElem?_eq_some_iff.mp located).1
  have inputsAbove : checkInputs (chain.drop index) anchors = .ok () := by
    unfold checkInputs at inputs ⊢
    split at inputs
    · cases inputs
    · rename_i present
      rw [if_neg, checkDuplicates_drop (checkDuplicates_ok_iff.mp inputs)]
      simp only [Bool.or_eq_true, not_or] at present ⊢
      refine ⟨?_, present.2⟩
      rw [drop_eq_cons located]
      simp
  have oidsAbove : checkOidConsistency 0 (chain.drop index) = .ok () := by
    rw [checkOidConsistency_ok_iff] at oids ⊢
    exact fun other member => oids other (List.mem_of_mem_drop member)
  have shortAbove : checkMaxPathLen policy.forIssuer (chain.drop index) = .ok () :=
    checkMaxPathLen_ok_iff_short.mpr (met.drop index inner).short
  have firstAbove : (chain.drop index).head? = some cert := by
    rw [List.head?_drop, located]
  have lastAbove : (chain.drop index).getLast? = some lastCert := by
    rw [List.getLast?_drop, if_neg (by omega), last]
  have walks (anchor : TrustAnchor) (tree : Option PolicyTree)
      (walked : chainWalk der policy verifier chain leaf anchor = .ok tree) :
      ∃ image, chainWalk der policy.forIssuer verifier (chain.drop index) cert anchor =
        .ok image := by
    rcases chainWalk_accepts_iff.mp walked with ⟨⟨linked, named⟩, policies⟩
    rcases policiesAccept_drop inner located issued policies with ⟨image, policiesAbove⟩
    exact ⟨image, chainWalk_accepts_iff.mpr ⟨⟨linkWalk_drop inner met linked,
      nameWalk_drop inner located issued named⟩, policiesAbove⟩⟩
  rw [validatePath_eq_tryAnchors inputs oids short first last] at accepted
  rw [validatePath_eq_tryAnchors inputsAbove oidsAbove shortAbove firstAbove lastAbove]
  exact tryAnchors_no_later walks accepted

section IssuerExample

open Concrete

theorem validatePath_issuer_example :
    ∃ path, validatePath (policyCodec [[testPolicy 1]])
      (explicitPolicy [testPolicy 1]).forIssuer keyCopyVerifier
      [issue 1 (commonName [65]) (commonName [66]) [1, 2, 3] [4, 5]
        [caExtension, policiesExtension [testPolicy 1]]] policyAnchors = .ok path := by
  rcases (ok_of_isSome (by decide +kernel) : ∃ path, validatePath (policyCodec [[testPolicy 1]])
    (explicitPolicy [testPolicy 1]) keyCopyVerifier (policyChain [testPolicy 1] [testPolicy 1])
    policyAnchors = .ok path) with ⟨path, accepted⟩
  rcases validatePath_issuer _ _ _ _ _ path accepted 1 _ (by decide) rfl (by decide) with
    ⟨result, above, _⟩
  exact ⟨result, above⟩

end IssuerExample

end Pkix.Path
