import Pkix.Path.ChainWalk

/-! What a successful step, walk and validation tell: one inversion rule for each. -/

namespace Pkix.Path

@[simp] theorem requireThat_ok_iff {condition : Bool} {failure : Error} {result : Unit} :
    requireThat condition failure = .ok result ↔ condition = true := by
  unfold requireThat
  cases condition <;> simp

theorem policyAllowed_iff {counter : Nat} {tree : Option PolicyTree} :
    (!(counter == 0 && tree.isNone)) = true ↔ ¬(counter = 0 ∧ tree = none) := by
  rw [Bool.not_eq_true', Bool.eq_false_iff, ne_eq, Bool.and_eq_true, beq_iff_eq,
    Option.isNone_iff_eq_none]

section Step

variable {der : DerCodec} {policy : ValidationPolicy} {verifier : SignatureVerifier}
variable {chain : List Certificate}

theorem certChecks_ok_iff {cert : Certificate} {index : Nat} {issuer : WorkingIssuer} :
    certChecks der policy verifier cert index issuer = .ok () ↔
      enforceSignatureAlgAllowlist policy cert index = .ok () ∧
      verifyCertSignature der cert index issuer.workingSpki verifier = .ok () ∧
      checkIssuerLinkage cert index issuer.workingIssuerName
        issuer.workingIssuerIsSanIdentity = .ok () ∧
      checkValidity cert index policy.currentTimeUnix = .ok () ∧
      checkMaxValidity policy cert index = .ok () ∧
      checkMinRsaBits der policy cert index = .ok () ∧
      checkCriticalExtensions cert index = .ok () := by
  simp only [certChecks, Walk.then_ok]

/-- Everything one iteration checks and everything it changes. -/
theorem certStep_ok_iff {cert : Certificate} {below : List Certificate}
    {state next : WorkingState} :
    certStep der policy verifier chain cert below state = .ok next ↔
      ∃ policies san updated,
        certChecks der policy verifier cert below.length state.issuer = .ok () ∧
        certPolicies der cert below.length = .ok policies ∧
        checkExplicitPolicy below.length
          (processCertPolicies cert below.length (chain.length - below.length) policies
            state.policies) = .ok () ∧
        certSubjectAltNames der cert below.length = .ok san ∧
        checkNamesUnlessExempt der cert below.length san state.names = .ok () ∧
        checkLeaf der policy cert below.length san policies = .ok () ∧
        caStep der policy chain cert below.length policies
          { state with
            policies := processCertPolicies cert below.length (chain.length - below.length)
              policies state.policies } = .ok updated ∧
        next = { updated with issuer := issuerOf cert } := by
  constructor
  · intro stepped
    obtain ⟨checked, stepped⟩ := Walk.then_ok.mp stepped
    obtain ⟨policies, decoded, stepped⟩ := Walk.bind_ok.mp stepped
    obtain ⟨explicit, stepped⟩ := Walk.then_ok.mp stepped
    obtain ⟨san, named, stepped⟩ := Walk.bind_ok.mp stepped
    obtain ⟨constrained, stepped⟩ := Walk.then_ok.mp stepped
    obtain ⟨leafChecked, stepped⟩ := Walk.then_ok.mp stepped
    obtain ⟨updated, advanced, stepped⟩ := Walk.bind_ok.mp stepped
    exact ⟨policies, san, updated, checked, decoded, explicit, named, constrained, leafChecked,
      advanced, (Walk.pure_ok.mp stepped).symm⟩
  · rintro ⟨policies, san, updated, checked, decoded, explicit, named, constrained, leafChecked,
      advanced, rfl⟩
    exact Walk.then_ok.mpr ⟨checked, Walk.bind_ok.mpr ⟨policies, decoded, Walk.then_ok.mpr
      ⟨explicit, Walk.bind_ok.mpr ⟨san, named, Walk.then_ok.mpr ⟨constrained, Walk.then_ok.mpr
        ⟨leafChecked, Walk.bind_ok.mpr ⟨updated, advanced, rfl⟩⟩⟩⟩⟩⟩⟩

theorem caStep_leaf {cert : Certificate} {policies : Option CertificatePolicies}
    {state updated : WorkingState} :
    caStep der policy chain cert 0 policies state = .ok updated ↔ updated = state := by
  simp [caStep, eq_comm]

theorem caStep_ca_iff {cert : Certificate} {index : Nat}
    {policies : Option CertificatePolicies} {state updated : WorkingState}
    (inner : index ≠ 0) :
    caStep der policy chain cert index policies state = .ok updated ↔
      ∃ policyState nameState,
        checkCa der policy cert index chain = .ok () ∧
        caPolicyStep der cert index (chain.length - index) policies state.policies =
          .ok policyState ∧
        caNamesStep der cert index state.names = .ok nameState ∧
        updated = { state with policies := policyState, names := nameState } := by
  unfold caStep
  rw [if_neg inner]
  constructor
  · intro stepped
    obtain ⟨checked, stepped⟩ := Walk.then_ok.mp stepped
    obtain ⟨policyState, mapped, stepped⟩ := Walk.bind_ok.mp stepped
    obtain ⟨nameState, narrowed, stepped⟩ := Walk.bind_ok.mp stepped
    exact ⟨policyState, nameState, checked, mapped, narrowed, (Walk.pure_ok.mp stepped).symm⟩
  · rintro ⟨policyState, nameState, checked, mapped, narrowed, rfl⟩
    exact Walk.then_ok.mpr ⟨checked, Walk.bind_ok.mpr ⟨policyState, mapped, Walk.bind_ok.mpr
      ⟨nameState, narrowed, rfl⟩⟩⟩

end Step

section Walk

variable {der : DerCodec} {policy : ValidationPolicy} {verifier : SignatureVerifier}
variable {chain : List Certificate}

/-- The loop meets the certificates above position `index`, then the one there. -/
theorem reverse_split {index : Nat} {cert : Certificate} (located : chain[index]? = some cert) :
    chain.reverse =
      (chain.drop (index + 1)).reverse ++ cert :: (chain.take index).reverse := by
  obtain ⟨bound, same⟩ := List.getElem?_eq_some_iff.mp located
  have split : chain = chain.take index ++ cert :: chain.drop (index + 1) := by
    rw [← same, ← List.drop_eq_getElem_cons bound, List.take_append_drop]
  calc
    chain.reverse = (chain.take index ++ cert :: chain.drop (index + 1)).reverse := by rw [← split]
    _ = _ := by simp

/-- The visit rule by chain position, for any walk over the reversed chain: what
holds of the certificates above, those from there on and the state. -/
theorem reverse_walk_visits {σ : Type} {step : Certificate → List Certificate → σ → Result σ}
    (holds : List Certificate → List Certificate → σ → Prop)
    (preserved : ∀ above cert below state next, holds above (cert :: below) state →
      step cert below state = .ok next → holds (above ++ [cert]) below next)
    {start final : σ} (initial : holds [] chain.reverse start)
    (finished : Walk.walk step chain.reverse start = .ok final)
    {index : Nat} {cert : Certificate} (located : chain[index]? = some cert) :
    ∃ state next,
      holds (chain.drop (index + 1)).reverse (cert :: (chain.take index).reverse) state ∧
      step cert (chain.take index).reverse state = .ok next := by
  have visits := (Walk.walk_visits holds preserved chain.reverse start final initial finished).2
  obtain ⟨state, next, current, stepped, _⟩ := visits _ cert _ (reverse_split located)
  exact ⟨state, next, current, stepped⟩

theorem take_reverse_length {index : Nat} {cert : Certificate}
    (located : chain[index]? = some cert) : (chain.take index).reverse.length = index := by
  obtain ⟨bound, _⟩ := List.getElem?_eq_some_iff.mp located
  simp only [List.length_reverse, List.length_take]
  omega

/-- The success rule for a walk over a reversed chain. -/
theorem reverse_walk_ok_iff {σ : Type} (step : Certificate → List Certificate → σ → Result σ)
    (advance : List Certificate → Certificate → σ → σ)
    (allowed : Certificate → Nat → σ → Prop) (leaf : Certificate) (upper : List Certificate)
    (start final : σ)
    (steps : ∀ index cert below state next, upper[index]? = some cert → below.length = index + 1 →
      (step cert below state = .ok next ↔
        allowed cert (index + 1) state ∧ next = advance (upper.drop (index + 1)) cert state)) :
    Walk.walk step (leaf :: upper).reverse start = .ok final ↔
      (∀ index cert, upper[index]? = some cert →
        allowed cert (index + 1) (Walk.runs advance start (upper.drop (index + 1)))) ∧
      step leaf [] (Walk.runs advance start upper) = .ok final := by
  have forward {above below : List Certificate} {cert : Certificate}
      (split : upper.reverse = above ++ cert :: below) :
      upper[below.length]? = some cert ∧ upper.drop (below.length + 1) = above.reverse := by
    have same : upper = below.reverse ++ cert :: above.reverse := by
      rw [← List.reverse_reverse upper, split]
      simp
    have lengths : below.length = below.reverse.length := List.length_reverse.symm
    rw [same, lengths]
    constructor
    · rw [List.getElem?_append_right (Nat.le_refl _), Nat.sub_self]
      rfl
    · rw [← List.drop_drop, List.drop_left]
      rfl
  rw [List.reverse_cons, Walk.walk_snoc_ok_iff advance
    (fun cert below state => allowed cert below.length state)]
  · rw [List.reverse_reverse]
    apply and_congr_left
    intro _
    constructor
    · intro everywhere index cert located
      have passed := everywhere _ cert _ (reverse_split located)
      rw [List.length_append, take_reverse_length located, List.reverse_reverse] at passed
      exact passed
    · intro everywhere above cert below split
      obtain ⟨located, rest⟩ := forward split
      rw [List.length_append, ← rest]
      exact everywhere below.length cert located
  · intro above cert below state next split
    obtain ⟨located, rest⟩ := forward split
    rw [← rest, List.length_append]
    exact steps below.length cert (below ++ [leaf]) state next located (by simp)

theorem chainWalk_ok_iff {leaf : Certificate} {anchor : TrustAnchor} {tree : Option PolicyTree} :
    chainWalk der policy verifier chain leaf anchor = .ok tree ↔
      ∃ final, walkCerts der policy verifier chain anchor = .ok final ∧
        wrapUp der policy chain leaf final.policies = .ok tree :=
  Walk.bind_ok

theorem wrapUp_ok_iff {leaf : Certificate} {state : PolicyState} {tree : Option PolicyTree} :
    wrapUp der policy chain leaf state = .ok tree ↔
      ∃ explicitPolicy, wrapUpExplicitPolicy der leaf state.counters.explicitPolicy = .ok explicitPolicy ∧
        tree = trimPolicyTree policy.initialPolicySet chain.length state.policyTree ∧
        ¬(explicitPolicy = 0 ∧ tree = none) := by
  constructor
  · intro finished
    obtain ⟨explicitPolicy, counted, finished⟩ := Walk.bind_ok.mp finished
    obtain ⟨allowed, finished⟩ := Walk.then_ok.mp finished
    refine ⟨explicitPolicy, counted, (Walk.pure_ok.mp finished).symm, ?_⟩
    rw [← Walk.pure_ok.mp finished]
    exact policyAllowed_iff.mp (requireThat_ok_iff.mp allowed)
  · rintro ⟨explicitPolicy, counted, rfl, allowed⟩
    exact Walk.bind_ok.mpr ⟨explicitPolicy, counted, Walk.then_ok.mpr
      ⟨requireThat_ok_iff.mpr (policyAllowed_iff.mpr allowed), rfl⟩⟩

end Walk

section Anchors

variable {der : DerCodec} {policy : ValidationPolicy} {verifier : SignatureVerifier}
variable {chain : List Certificate}

theorem tryAnchors_ok {leaf lastCert : Certificate} {start : Nat} {lastErr : Error}
    {anchors : List TrustAnchor} {path : ValidatedPath}
    (accepted : tryAnchors der policy verifier chain leaf lastCert start lastErr anchors =
      .ok path) :
    ∃ position anchor tree, anchors[position]? = some anchor ∧
      isCandidate lastCert anchor = true ∧
      chainWalk der policy verifier chain leaf anchor = .ok tree ∧
      path = validatedPath chain leaf (start + position) tree := by
  induction anchors generalizing start lastErr with
  | nil => simp [tryAnchors] at accepted
  | cons anchor rest ih =>
      unfold tryAnchors at accepted
      have later {failure : Error} (found : tryAnchors der policy verifier chain leaf lastCert
          (start + 1) failure rest = .ok path) :
          ∃ position other tree, (anchor :: rest)[position]? = some other ∧
            isCandidate lastCert other = true ∧
            chainWalk der policy verifier chain leaf other = .ok tree ∧
            path = validatedPath chain leaf (start + position) tree := by
        obtain ⟨position, other, tree, located, candidate, walked, same⟩ := ih found
        exact ⟨position + 1, other, tree, by simpa using located, candidate, walked,
          by rw [same, Nat.add_assoc, Nat.add_comm 1]⟩
      split at accepted
      · rename_i candidate
        cases walked : chainWalk der policy verifier chain leaf anchor with
        | ok tree =>
            rw [walked] at accepted
            exact ⟨0, anchor, tree, rfl, candidate, walked, (Except.ok.inj accepted).symm⟩
        | error failure =>
            rw [walked] at accepted
            exact later accepted
      · exact later accepted

theorem tryAnchors_accepts_iff {leaf lastCert : Certificate} {start : Nat} {lastErr : Error}
    {anchors : List TrustAnchor} :
    (∃ path, tryAnchors der policy verifier chain leaf lastCert start lastErr anchors = .ok path) ↔
      ∃ anchor ∈ anchors, isCandidate lastCert anchor = true ∧
        ∃ tree, chainWalk der policy verifier chain leaf anchor = .ok tree := by
  constructor
  · rintro ⟨path, accepted⟩
    obtain ⟨position, anchor, tree, located, candidate, walked, _⟩ := tryAnchors_ok accepted
    exact ⟨anchor, List.mem_of_getElem? located, candidate, tree, walked⟩
  · rintro ⟨anchor, member, candidate, tree, walked⟩
    induction anchors generalizing start lastErr with
    | nil => cases member
    | cons head rest ih =>
        unfold tryAnchors
        split
        · cases first : chainWalk der policy verifier chain leaf head with
          | ok other => exact ⟨_, rfl⟩
          | error failure =>
              rcases List.mem_cons.mp member with rfl | later
              · rw [walked] at first
                cases first
              · exact ih later
        · rename_i filtered
          rcases List.mem_cons.mp member with rfl | later
          · exact absurd candidate filtered
          · exact ih later

def lastCandidate (lastCert : Certificate) (anchors : List TrustAnchor) : Option TrustAnchor :=
  (anchors.filter (isCandidate lastCert)).getLast?

theorem lastCandidate_cons {lastCert : Certificate} {anchor : TrustAnchor}
    {rest : List TrustAnchor} :
    lastCandidate lastCert (anchor :: rest) =
      if isCandidate lastCert anchor then some ((lastCandidate lastCert rest).getD anchor)
      else lastCandidate lastCert rest := by
  unfold lastCandidate
  rw [List.filter_cons]
  split
  · rw [List.getLast?_cons]
  · rfl

theorem lastCandidate_isSome {lastCert : Certificate} {anchors : List TrustAnchor}
    {anchor : TrustAnchor} (member : anchor ∈ anchors)
    (candidate : isCandidate lastCert anchor = true) :
    ∃ last, lastCandidate lastCert anchors = some last :=
  Option.isSome_iff_exists.mp (List.getLast?_isSome.mpr
    (List.ne_nil_of_mem (List.mem_filter.mpr ⟨member, candidate⟩)))

/-- When every candidate fails, the error is that of the last one tried. -/
theorem tryAnchors_error_iff {leaf lastCert : Certificate} {start : Nat}
    {lastErr failure : Error} {anchors : List TrustAnchor} :
    tryAnchors der policy verifier chain leaf lastCert start lastErr anchors = .error failure ↔
      (∀ anchor ∈ anchors, isCandidate lastCert anchor = true →
        ¬∃ tree, chainWalk der policy verifier chain leaf anchor = .ok tree) ∧
      (match lastCandidate lastCert anchors with
        | none => failure = lastErr
        | some anchor => chainWalk der policy verifier chain leaf anchor = .error failure) := by
  induction anchors generalizing start lastErr with
  | nil =>
      have vacuous : ∀ anchor ∈ ([] : List TrustAnchor), isCandidate lastCert anchor = true →
          ¬∃ tree, chainWalk der policy verifier chain leaf anchor = .ok tree := by
        intro anchor member
        cases member
      rw [tryAnchors, and_iff_right vacuous, Except.error.injEq]
      exact eq_comm
  | cons anchor rest ih =>
      rw [tryAnchors, lastCandidate_cons, List.forall_mem_cons]
      by_cases candidate : isCandidate lastCert anchor = true
      · rw [if_pos candidate, if_pos candidate]
        cases walked : chainWalk der policy verifier chain leaf anchor with
        | ok tree =>
            constructor
            · intro same
              cases same
            · intro parts
              exact absurd ⟨tree, rfl⟩ (parts.1.1 candidate)
        | error first =>
            have failed : isCandidate lastCert anchor = true →
                ¬∃ tree, (.error first : Result (Option PolicyTree)) = .ok tree := by
              rintro _ ⟨tree, same⟩
              cases same
            dsimp only
            rw [ih, and_iff_right failed]
            apply and_congr_right
            intro _
            cases lastCandidate lastCert rest with
            | none =>
                rw [Option.getD_none, walked, Except.error.injEq]
                exact eq_comm
            | some last => rfl
      · have skipped : isCandidate lastCert anchor = true →
            ¬∃ tree, chainWalk der policy verifier chain leaf anchor = .ok tree :=
          fun accepted => absurd accepted candidate
        rw [if_neg candidate, if_neg candidate, ih, and_iff_right skipped]

/-- A validated path names its anchor, and the walk from that anchor succeeded. -/
theorem validatePath_ok {anchors : List TrustAnchor} {path : ValidatedPath}
    (accepted : validatePath der policy verifier chain anchors = .ok path) :
    ∃ leaf lastCert anchor tree, chain.head? = some leaf ∧ chain.getLast? = some lastCert ∧
      anchors[path.anchorIndex]? = some anchor ∧ isCandidate lastCert anchor = true ∧
      chainWalk der policy verifier chain leaf anchor = .ok tree ∧
      path = validatedPath chain leaf path.anchorIndex tree := by
  obtain ⟨_, accepted⟩ := Walk.then_ok.mp accepted
  obtain ⟨_, accepted⟩ := Walk.then_ok.mp accepted
  obtain ⟨_, accepted⟩ := Walk.then_ok.mp accepted
  cases first : chain.head? with
  | none => simp [first] at accepted
  | some leaf =>
      cases last : chain.getLast? with
      | none => simp [first, last] at accepted
      | some lastCert =>
          simp only [first, last] at accepted
          obtain ⟨position, anchor, tree, located, candidate, walked, rfl⟩ :=
            tryAnchors_ok accepted
          simp only [Nat.zero_add] at *
          exact ⟨leaf, lastCert, anchor, tree, rfl, rfl, located, candidate, walked, rfl⟩

theorem validatePath_eq_tryAnchors {anchors : List TrustAnchor} {leaf lastCert : Certificate}
    (inputs : checkInputs chain anchors = .ok ()) (oids : checkOidConsistency 0 chain = .ok ())
    (short : checkMaxPathLen policy chain = .ok ()) (first : chain.head? = some leaf)
    (last : chain.getLast? = some lastCert) :
    validatePath der policy verifier chain anchors =
      tryAnchors der policy verifier chain leaf lastCert 0 .noTrustedPath anchors := by
  unfold validatePath
  rw [inputs, oids, short, first, last]
  rfl

theorem validatePath_accepts_iff {anchors : List TrustAnchor} :
    (∃ path, validatePath der policy verifier chain anchors = .ok path) ↔
      checkInputs chain anchors = .ok () ∧ checkOidConsistency 0 chain = .ok () ∧
      checkMaxPathLen policy chain = .ok () ∧
      ∃ leaf lastCert, chain.head? = some leaf ∧ chain.getLast? = some lastCert ∧
        ∃ anchor ∈ anchors, isCandidate lastCert anchor = true ∧
          ∃ tree, chainWalk der policy verifier chain leaf anchor = .ok tree := by
  simp only [validatePath, Walk.then_ok, exists_and_left]
  refine and_congr_right fun _ => and_congr_right fun _ => and_congr_right fun _ => ?_
  cases chain.head? with
  | none => simp
  | some leaf =>
      cases chain.getLast? with
      | none => simp
      | some lastCert => simp [tryAnchors_accepts_iff]

end Anchors

section Leaf

variable {der : DerCodec} {policy : ValidationPolicy} {verifier : SignatureVerifier}
variable {chain : List Certificate}

/-- The leaf carries every extended key usage the policy requires of it. -/
theorem leafEku_of_walk {leaf : Certificate} {anchor : TrustAnchor} {tree : Option PolicyTree}
    {requiredEkus : List ObjectIdentifier}
    (walked : chainWalk der policy verifier chain leaf anchor = .ok tree)
    (first : chain.head? = some leaf) (required : policy.requiredLeafEku = some requiredEkus)
    (eku : ObjectIdentifier) (listed : eku ∈ requiredEkus) :
    ∃ extension ekus, findExtension leaf oidExtendedKeyUsage = some extension ∧
      der.extendedKeyUsage extension.extnValue = some ekus ∧ eku ∈ ekus := by
  rcases chainWalk_ok_iff.mp walked with ⟨final, finished, _⟩
  have located : chain[0]? = some leaf := by rw [← List.head?_eq_getElem?, first]
  rcases reverse_walk_visits (fun _ _ _ => True) (fun _ _ _ _ _ _ _ => trivial) trivial finished
    located with ⟨state, next, _, stepped⟩
  rcases certStep_ok_iff.mp stepped with ⟨_, _, _, _, _, _, _, _, leafChecked, _⟩
  rcases Walk.then_ok.mp leafChecked with ⟨_, leafChecked⟩
  rcases Walk.then_ok.mp leafChecked with ⟨ekuChecked, _⟩
  unfold checkLeafEku at ekuChecked
  rw [required] at ekuChecked
  rcases Walk.bind_ok.mp ekuChecked with ⟨found, decoded, allowed⟩
  rw [requireThat_ok_iff, List.all_eq_true] at allowed
  have contained := allowed eku listed
  cases found with
  | none => simp at contained
  | some ekus =>
      rcases tryFindCertExt_some_iff.mp decoded with ⟨extension, present, content⟩
      exact ⟨extension, ekus, present, content, by simpa using contained⟩

theorem checkDuplicatesOf_ok_iff {cert : Certificate} {first second : Nat}
    {rest : List Certificate} :
    checkDuplicatesOf cert first second rest = .ok () ↔
      ∀ other ∈ rest, sameCertificate cert other = false := by
  induction rest generalizing second with
  | nil => simp [checkDuplicatesOf]
  | cons other rest ih =>
      unfold checkDuplicatesOf
      cases same : sameCertificate cert other with
      | true => simp [same]
      | false => simp [same, ih]

theorem checkDuplicates_ok_iff {first : Nat} {certs : List Certificate} :
    checkDuplicates first certs = .ok () ↔
      certs.Pairwise (fun a b => sameCertificate a b = false) := by
  induction certs generalizing first with
  | nil => simp [checkDuplicates]
  | cons cert rest ih =>
      rw [checkDuplicates, Walk.then_ok, checkDuplicatesOf_ok_iff, ih, List.pairwise_cons]

/-- No two certificates of a validated chain have one issuer name and serial number. -/
theorem validatePath_distinct {anchors : List TrustAnchor} {path : ValidatedPath}
    (accepted : validatePath der policy verifier chain anchors = .ok path) :
    chain.Pairwise (fun a b => sameCertificate a b = false) := by
  rcases Walk.then_ok.mp accepted with ⟨inputs, _⟩
  unfold checkInputs at inputs
  split at inputs
  · cases inputs
  · exact checkDuplicates_ok_iff.mp inputs

end Leaf

end Pkix.Path
