import Pkix.Path.PolicyTreeFacts
import Pkix.Path.WalkTracks

/-! The policy part of the walk in closed form: the state under a list of CAs, and
what each certificate has to pass. -/

namespace Pkix.Path

section ClosedForm

variable (der : DerCodec)

def listedPolicies (cert : Certificate) : Option CertificatePolicies :=
  findCertExt der.certificatePolicies cert oidCertificatePolicies

def certMappings (cert : Certificate) : Option PolicyMappings :=
  findCertExt der.policyMappings cert oidPolicyMappings

def countersAfter (cert : Certificate) (counters : PolicyCounters) : PolicyCounters :=
  clampInhibitAny (findCertExt der.inhibitAnyPolicy cert oidInhibitAnyPolicy)
    (clampConstraints (findCertExt der.policyConstraints cert oidPolicyConstraints)
      (decrementCounters cert counters))

/-- The state after the certificate's own policies, before its mappings. -/
def processed (cert : Certificate) (index depth : Nat) (state : PolicyState) : PolicyState :=
  processCertPolicies cert index depth (listedPolicies der cert) state

def mappedTree (cert : Certificate) (depth : Nat) (state : PolicyState) : Option PolicyTree :=
  match certMappings der cert with
  | none => state.policyTree
  | some mappings =>
      state.policyTree.map
        (applyPolicyMappings depth state.counters.policyMapping (listedPolicies der cert) mappings)

def caPolicyAdvance (cert : Certificate) (index depth : Nat) (state : PolicyState) :
    PolicyState :=
  { counters := countersAfter der cert state.counters
    policyTree := collapseNullTree (mappedTree der cert depth (processed der cert index depth state)) }

/-- The policy state under the certificates given, lowest first, in a chain of the
length given. -/
def policiesUnder (length : Nat) (start : PolicyState) (upper : List Certificate) : PolicyState :=
  Walk.runs (fun above cert =>
    caPolicyAdvance der cert (length - (above.length + 1)) (above.length + 1)) start upper

theorem policiesUnder_cons {length : Nat} {start : PolicyState} {cert : Certificate}
    {above : List Certificate} :
    policiesUnder der length start (cert :: above) =
      caPolicyAdvance der cert (length - (above.length + 1)) (above.length + 1)
        (policiesUnder der length start above) :=
  rfl

/-- No mapping of the certificate names anyPolicy. -/
def MappingsAllowed (cert : Certificate) : Prop :=
  ∀ mappings, certMappings der cert = some mappings → mapsAnyPolicy mappings = false

structure PoliciesPass (cert : Certificate) (index depth : Nat) (state : PolicyState) :
    Prop where
  decoded : ∃ found, certPolicies der cert index = .ok found
  explicit : ¬(state.counters.explicitPolicy = 0 ∧
    (processed der cert index depth state).policyTree = none)

/-- What the policy part of the walk asks of a CA. -/
structure CaPoliciesPass (cert : Certificate) (index depth : Nat) (state : PolicyState) : Prop
    extends PoliciesPass der cert index depth state where
  mappings : ∃ found, tryFindCertExt der.policyMappings cert oidPolicyMappings index = .ok found
  allowed : MappingsAllowed der cert
  constraints : ∃ found,
    tryFindCertExt der.policyConstraints cert oidPolicyConstraints index = .ok found
  inhibit : ∃ found,
    tryFindCertExt der.inhibitAnyPolicy cert oidInhibitAnyPolicy index = .ok found

end ClosedForm

section Steps

variable {der : DerCodec} {policy : ValidationPolicy} {chain : List Certificate}
variable {cert : Certificate}

theorem mapPolicies_ok_iff {index depth : Nat} {policies : Option CertificatePolicies}
    {mappings : Option PolicyMappings} {state : PolicyState} {tree : Option PolicyTree} :
    mapPolicies index depth policies mappings state = .ok tree ↔
      (∀ list, mappings = some list → mapsAnyPolicy list = false) ∧
      tree = match mappings with
        | none => state.policyTree
        | some list => state.policyTree.map
            (applyPolicyMappings depth state.counters.policyMapping policies list) := by
  unfold mapPolicies
  rw [eq_comm (a := tree)]
  cases mappings with
  | none => simp
  | some list => cases named : mapsAnyPolicy list <;> simp [named]

theorem policyStep_passes_iff (below : List Certificate) {state : PolicyState} :
    (∃ policies, certPolicies der cert below.length = .ok policies ∧
      checkExplicitPolicy below.length (processCertPolicies cert below.length
        (chain.length - below.length) policies state) = .ok ()) ↔
      PoliciesPass der cert below.length (chain.length - below.length) state := by
  have explicit (policies : Option CertificatePolicies) :
      checkExplicitPolicy below.length (processCertPolicies cert below.length
        (chain.length - below.length) policies state) = .ok () ↔
        ¬(state.counters.explicitPolicy = 0 ∧ (processCertPolicies cert below.length
          (chain.length - below.length) policies state).policyTree = none) := by
    rw [checkExplicitPolicy, requireThat_ok_iff, policyAllowed_iff]
    rfl
  simp only [explicit]
  constructor
  · rintro ⟨policies, decoded, allowed⟩
    refine ⟨⟨policies, decoded⟩, ?_⟩
    rw [← tryFindCertExt_ok decoded] at allowed
    exact allowed
  · rintro ⟨⟨policies, decoded⟩, allowed⟩
    refine ⟨policies, decoded, ?_⟩
    rw [← tryFindCertExt_ok decoded]
    exact allowed

theorem policyStep_leaf_ok_iff {state next : PolicyState} :
    policyStep der chain cert [] state = .ok next ↔
      PoliciesPass der cert 0 chain.length state ∧
        next = processed der cert 0 chain.length state := by
  rw [policyStep_ok_iff]
  have passes : (∃ policies, certPolicies der cert 0 = .ok policies ∧
      checkExplicitPolicy 0 (processCertPolicies cert 0 chain.length policies state) = .ok ()) ↔
      PoliciesPass der cert 0 chain.length state := policyStep_passes_iff []
  simp only [List.length_nil, Nat.sub_zero, if_true]
  rw [← passes]
  constructor
  · rintro ⟨policies, decoded, explicit, same⟩
    refine ⟨⟨policies, decoded, explicit⟩, ?_⟩
    rw [processed, listedPolicies, tryFindCertExt_ok decoded]
    exact (Except.ok.inj same).symm
  · rintro ⟨⟨policies, decoded, explicit⟩, rfl⟩
    refine ⟨policies, decoded, explicit, ?_⟩
    rw [processed, listedPolicies, tryFindCertExt_ok decoded]

theorem caPolicyStep_ok_iff {index depth : Nat} {state next : PolicyState} :
    caPolicyStep der cert index depth (listedPolicies der cert) state = .ok next ↔
      (∃ found, tryFindCertExt der.policyMappings cert oidPolicyMappings index = .ok found) ∧
      MappingsAllowed der cert ∧
      (∃ found,
        tryFindCertExt der.policyConstraints cert oidPolicyConstraints index = .ok found) ∧
      (∃ found,
        tryFindCertExt der.inhibitAnyPolicy cert oidInhibitAnyPolicy index = .ok found) ∧
      next = { counters := countersAfter der cert state.counters
               policyTree := collapseNullTree (mappedTree der cert depth state) } := by
  simp only [caPolicyStep, Walk.bind_ok, Walk.pure_ok, mapPolicies_ok_iff]
  unfold MappingsAllowed mappedTree countersAfter certMappings
  constructor
  · rintro ⟨mappings, decoded, _, ⟨allowed, rfl⟩, constraints, clamped, inhibit, inhibited, rfl⟩
    rw [tryFindCertExt_ok decoded, tryFindCertExt_ok clamped, tryFindCertExt_ok inhibited]
    exact ⟨⟨mappings, decoded⟩, allowed, ⟨constraints, clamped⟩, ⟨inhibit, inhibited⟩, rfl⟩
  · rintro ⟨⟨mappings, decoded⟩, allowed, ⟨constraints, clamped⟩, ⟨inhibit, inhibited⟩, rfl⟩
    rw [tryFindCertExt_ok decoded] at allowed ⊢
    rw [tryFindCertExt_ok clamped, tryFindCertExt_ok inhibited]
    exact ⟨mappings, decoded, _, ⟨allowed, rfl⟩, constraints, clamped, inhibit, inhibited, rfl⟩

theorem policyStep_ca_ok_iff {below : List Certificate} {state next : PolicyState}
    (inner : below.length ≠ 0) :
    policyStep der chain cert below state = .ok next ↔
      CaPoliciesPass der cert below.length (chain.length - below.length) state ∧
        next = caPolicyAdvance der cert below.length (chain.length - below.length) state := by
  rw [policyStep_ok_iff]
  simp only [if_neg inner]
  constructor
  · rintro ⟨policies, decoded, explicit, stepped⟩
    have passed := (policyStep_passes_iff below).mp ⟨policies, decoded, explicit⟩
    rw [← tryFindCertExt_ok decoded] at stepped
    obtain ⟨mappings, allowed, constraints, inhibit, rfl⟩ := caPolicyStep_ok_iff.mp stepped
    exact ⟨⟨passed, mappings, allowed, constraints, inhibit⟩, rfl⟩
  · rintro ⟨passed, rfl⟩
    obtain ⟨policies, decoded, explicit⟩ := 
      (policyStep_passes_iff below).mpr passed.toPoliciesPass
    refine ⟨policies, decoded, explicit, ?_⟩
    rw [← tryFindCertExt_ok decoded]
    exact caPolicyStep_ok_iff.mpr
      ⟨passed.mappings, passed.allowed, passed.constraints, passed.inhibit, rfl⟩

end Steps

section Run

variable {der : DerCodec} {policy : ValidationPolicy} {leaf : Certificate}
variable {upper : List Certificate}

/-- The policy walk succeeds exactly when each CA and the leaf pass in the state under
the certificates above them, and ends in the state of the leaf. -/
theorem policyWalk_ok_iff {final : PolicyState} :
    policyWalk der policy (leaf :: upper) = .ok final ↔
      (∀ index cert, upper[index]? = some cert →
        CaPoliciesPass der cert (index + 1) (upper.length + 1 - (index + 1))
          (policiesUnder der (upper.length + 1) (initialPolicyState policy (leaf :: upper))
            (upper.drop (index + 1)))) ∧
      PoliciesPass der leaf 0 (upper.length + 1)
        (policiesUnder der (upper.length + 1) (initialPolicyState policy (leaf :: upper)) upper) ∧
      final = processed der leaf 0 (upper.length + 1)
        (policiesUnder der (upper.length + 1) (initialPolicyState policy (leaf :: upper))
          upper) := by
  have rule := reverse_walk_ok_iff (policyStep der (leaf :: upper))
    (fun above cert => caPolicyAdvance der cert (upper.length + 1 - (above.length + 1))
      (above.length + 1))
    (fun cert index => CaPoliciesPass der cert index (upper.length + 1 - index))
    leaf upper (initialPolicyState policy (leaf :: upper)) final
    (by
      intro index cert below state next located lower
      obtain ⟨bound, _⟩ := List.getElem?_eq_some_iff.mp located
      rw [policyStep_ca_ok_iff (by omega), lower, List.length_cons, List.length_drop]
      have depth : upper.length + 1 - (index + 1) = upper.length - (index + 1) + 1 := by omega
      have position : upper.length + 1 - (upper.length - (index + 1) + 1) = index + 1 := by omega
      rw [depth, position])
  unfold policyWalk
  rw [rule, policyStep_leaf_ok_iff]
  rfl

/-- A reached state of the loop holds the policy state under the certificates done. -/
theorem reached_policies {chain above below : List Certificate} {cert : Certificate}
    {verifier : SignatureVerifier} {anchor : TrustAnchor} {state : WorkingState}
    (reached : Walk.Reached (certStep der policy verifier chain) chain.reverse
      (initialState policy chain anchor) above (cert :: below) state) :
    chain = below.reverse ++ cert :: above.reverse ∧
      chain.length - below.length = above.length + 1 ∧
      state.policies =
        policiesUnder der chain.length (initialPolicyState policy chain) above.reverse ∧
      ∀ other ∈ above, MappingsAllowed der other := by
  generalize pending : cert :: below = items at reached
  induction reached generalizing cert below with
  | start =>
      have split : chain = below.reverse ++ [cert] := by
        rw [← List.reverse_reverse chain, ← pending, List.reverse_cons]
      refine ⟨split, ?_, rfl, fun other member => nomatch member⟩
      rw [split, List.length_append, List.length_reverse, List.length_singleton]
      simp
  | @step above item rest state next earlier taken ih =>
      obtain ⟨split, depth, current, allowed⟩ := ih rfl
      subst pending
      have policies := (certStep_tracks.mp taken).2.2
      have inner : (cert :: below).length ≠ 0 := Nat.succ_ne_zero _
      obtain ⟨passed, advanced⟩ := (policyStep_ca_ok_iff inner).mp policies
      have lengths : chain.length = below.length + 1 + (above.length + 1) := by
        rw [split]
        simp only [List.length_append, List.length_reverse, List.length_cons]
      refine ⟨?_, ?_, ?_, ?_⟩
      · rw [split]
        simp
      · rw [lengths, List.length_append, List.length_singleton]
        omega
      · have position : chain.length - (above.length + 1) = (cert :: below).length := by
          rw [lengths, List.length_cons]
          omega
        rw [advanced, current, depth, List.reverse_append, List.reverse_singleton,
          List.singleton_append, policiesUnder_cons, List.length_reverse, position]
      · intro other member
        rcases List.mem_append.mp member with earlierCert | here
        · exact allowed other earlierCert
        · rw [List.mem_singleton.mp here]
          exact passed.allowed

end Run

end Pkix.Path
