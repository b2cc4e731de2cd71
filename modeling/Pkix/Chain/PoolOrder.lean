import Pkix.Chain.VerifySoundness

/-! The order of the supplied certificates after the leaf: a chain accepted in one order is
found again in any other, short of the three ways a verification can still end. -/

namespace Pkix.Chain

open Pkix.Path Pkix.PathBuilder

namespace Verifier

/-- The same verifier without fetching. -/
def offline (self : Verifier) : Verifier := { self with aia := noAiaFetcher }

section Offline

variable {der : ChainCodec} {self : Verifier} {leaf : Certificate}

theorem absorb_failures {results : List (Except AiaError Bytes)} {state : Reassembly}
    {addedAny : Bool}
    (failed : ∀ result ∈ results, result = .error .fetchingDisabled) :
    (absorb der results addedAny state).1 = addedAny := by
  induction results generalizing state with
  | nil => rfl
  | cons result results ih =>
      have first := failed result List.mem_cons_self
      subst first
      exact ih (fun other listed => failed other (List.mem_cons_of_mem _ listed))

theorem offline_fetchRound {iteration : Nat} {state : Reassembly} {newUris triedUris : List Uri} :
    (self.offline.fetchRound der iteration state newUris triedUris).1 = false := by
  unfold fetchRound
  apply absorb_failures
  intro result listed
  have answered := mem_zip_snd listed
  rcases List.mem_map.mp answered with ⟨_, _, same⟩
  exact same.symm

theorem attempt_ok {pool built : List Certificate}
    (found : self.attempt der leaf pool = .ok built) :
    (∃ validated, self.validate der built = .ok validated) ∧
      ∃ certs, built = leaf :: certs ∧ Buildable pool self.anchors .new leaf certs :=
  buildFirstValidPath_ok found

/-- Without fetching a valid reassembled chain comes from the first attempt. -/
theorem offline_built {supplied built : List Certificate} {validated : ValidatedPath}
    (first : supplied.head? = some leaf)
    (reassembled : self.offline.buildWithAia der supplied = .ok built)
    (accepted : self.offline.validate der built = .ok validated) :
    self.attempt der leaf supplied = .ok built := by
  unfold buildWithAia at reassembled
  simp only [first] at reassembled
  unfold aiaMaxDepth rounds at reassembled
  have sameAttempt : self.offline.attempt der leaf supplied = self.attempt der leaf supplied := rfl
  rw [sameAttempt] at reassembled
  cases attempted : self.attempt der leaf supplied with
  | ok chain =>
      simp only [attempted, Except.ok.injEq] at reassembled
      rw [reassembled]
  | error failure =>
      cases failure with
      | depthExceeded => simp [attempted] at reassembled
      | budgetExceeded => simp [attempted] at reassembled
      | noPathFound =>
          simp only [attempted, offline_fetchRound, Bool.false_eq_true, if_false] at reassembled
          split at reassembled <;> cases reassembled
      | noValidPath tried lastError =>
          -- the chain reported here is one the attempt has rejected
          simp only [attempted] at reassembled
          unfold topologyOnly at reassembled
          cases single : buildPath der.toBuilderCodec leaf supplied self.offline.anchors with
          | error failure => simp [single, orPathBuild] at reassembled
          | ok chain =>
              simp only [single, orPathBuild, Except.ok.injEq] at reassembled
              subst reassembled
              have rejected := noValidPath_rejects attempted single
              have passed : accepts der.toBuilderCodec self.anchors self.policy
                  self.sigVerifier chain = true := accepts_iff.mpr ⟨validated, accepted⟩
              rw [passed] at rejected
              cases rejected

theorem checked_or_revocation {chain : List Certificate} {validated : ValidatedPath}
    (accepted : self.validate der chain = .ok validated) :
    self.checked der chain validated accepted = .ok validated ∨
      ∃ failure, self.checked der chain validated accepted = .error (.revocation failure) := by
  have outcome : ∀ anchor chain, self.checksAgainst anchor chain = .ok () ∨
      ∃ failure, self.checksAgainst anchor chain = .error (.revocation failure) := by
    intro anchor chain
    induction chain with
    | nil => exact .inl rfl
    | cons cert rest ih =>
        have one : ∀ result : Revocation.Result Unit, orRevocation result = .ok () ∨
            ∃ failure, orRevocation result = .error (.revocation failure) := by
          intro result
          cases result with
          | ok => exact .inl rfl
          | error failure => exact .inr ⟨failure, rfl⟩
        cases rest with
        | nil => exact one _
        | cons issuer rest =>
            rcases one (self.revChecker.checkRevocation cert issuer) with passed | ⟨failure, failed⟩
            · unfold checksAgainst
              rw [passed]
              exact ih
            · refine .inr ⟨failure, ?_⟩
              unfold checksAgainst
              rw [failed]
              rfl
  have inRange := anchorIndex_lt accepted
  unfold checked runRevocationChecks
  rcases outcome self.anchors[validated.anchorIndex] chain with passed | ⟨failure, failed⟩
  · rw [passed]
    exact .inl rfl
  · rw [failed]
    exact .inr ⟨failure, rfl⟩

end Offline

section Reordered

variable {der : ChainCodec} {self : Verifier} {leaf : Certificate}

theorem verifyOne_direct {supplied : List Certificate} {validated : ValidatedPath}
    (accepted : self.validate der supplied = .ok validated) :
    self.verifyOne der supplied = self.checked der supplied validated accepted := by
  unfold verifyOne
  split
  · next direct again =>
      have same : direct = validated := Except.ok.inj (again.symm.trans accepted)
      subst same
      rfl
  · next failure rejected =>
      rw [accepted] at rejected
      cases rejected

theorem verifyOne_unbuilt {supplied : List Certificate} {failure : Path.Error} {error : Error}
    (rejected : self.validate der supplied = .error failure)
    (recoverable : isAiaRecoverable failure = true)
    (unbuilt : self.buildWithAia der supplied = .error error) :
    self.verifyOne der supplied = .error error := by
  unfold verifyOne
  split
  · next direct accepted =>
      rw [rejected] at accepted
      cases accepted
  · next other again =>
      have same : other = failure := Except.error.inj (again.symm.trans rejected)
      subst same
      rw [if_pos recoverable, unbuilt]
      rfl

theorem verifyOne_rebuilt {supplied built : List Certificate} {failure : Path.Error}
    {validated : ValidatedPath} (rejected : self.validate der supplied = .error failure)
    (recoverable : isAiaRecoverable failure = true)
    (reassembled : self.buildWithAia der supplied = .ok built)
    (accepted : self.validate der built = .ok validated) :
    self.verifyOne der supplied = self.checked der built validated accepted := by
  unfold verifyOne
  split
  · next direct direct_ =>
      rw [rejected] at direct_
      cases direct_
  · next other again =>
      have same : other = failure := Except.error.inj (again.symm.trans rejected)
      subst same
      rw [if_pos recoverable, reassembled]
      dsimp only [bind, Except.bind]
      split
      · next rebuilt found =>
          have same : rebuilt = validated := Except.ok.inj (found.symm.trans accepted)
          subst same
          rfl
      · next other failed =>
          rw [accepted] at failed
          cases failed

theorem buildWithAia_first {supplied : List Certificate} (first : supplied.head? = some leaf) :
    self.buildWithAia der supplied = self.rounds der leaf aiaMaxDepth 0 (start supplied) := by
  unfold buildWithAia
  rw [first]
  rfl

/-- A chain that validates and that the search can reach is found by the first attempt. -/
theorem verifyOne_of_buildable {supplied certs : List Certificate} {path : ValidatedPath}
    (first : supplied.head? = some leaf)
    (buildable : Buildable supplied self.anchors .new leaf certs)
    (accepted : self.validate der (leaf :: certs) = .ok path) :
    (∃ validated, self.verifyOne der supplied = .ok validated) ∨
      (∃ failure, self.validate der supplied = .error failure ∧
        isAiaRecoverable failure = false) ∨
      self.verifyOne der supplied = .error (.pathBuild .budgetExceeded) ∨
      ∃ failure, self.verifyOne der supplied = .error (.revocation failure) := by
  have settled : ∀ {chain : List Certificate} {validated : ValidatedPath}
      (sound : self.validate der chain = .ok validated),
      self.verifyOne der supplied = self.checked der chain validated sound →
      (∃ validated, self.verifyOne der supplied = .ok validated) ∨
        ∃ failure, self.verifyOne der supplied = .error (.revocation failure) := by
    intro chain validated sound same
    rw [same]
    exact (checked_or_revocation sound).imp_left (fun passed => ⟨validated, passed⟩)
  cases direct : self.validate der supplied with
  | ok validated =>
      rcases settled direct (verifyOne_direct direct) with verified | revoked
      · exact .inl verified
      · exact .inr (.inr (.inr revoked))
  | error failure =>
      cases recoverable : isAiaRecoverable failure with
      | false => exact .inr (.inl ⟨failure, rfl, recoverable⟩)
      | true =>
          have begun : self.buildWithAia der supplied =
              self.rounds der leaf (4 + 1) 0 (start supplied) := buildWithAia_first first
          rcases buildable.found accepted with ⟨built, found⟩ | overBudget
          · have attempted : self.attempt der leaf (start supplied).pool = .ok built := found
            rw [rounds_built _ _ attempted] at begun
            rcases (attempt_ok attempted).1 with ⟨validated, sound⟩
            rcases settled sound (verifyOne_rebuilt direct recoverable begun sound) with
              verified | revoked
            · exact .inl verified
            · exact .inr (.inr (.inr revoked))
          · have attempted : self.attempt der leaf (start supplied).pool =
                .error .budgetExceeded := overBudget
            unfold rounds at begun
            rw [attempted] at begun
            exact .inr (.inr (.inl (verifyOne_unbuilt direct recoverable begun)))

/-- A chain accepted without fetching is accepted with its issuers in any order, unless the
new order is rejected for a reason that no other order repairs, the search runs out of its
budget, or the path found is revoked. -/
theorem verifyOne_reordered {certs permuted : List Certificate} {validated : ValidatedPath}
    (verified : self.offline.verifyOne der (leaf :: certs) = .ok validated)
    (searchable : self.validate der (leaf :: certs) = .ok validated →
      Buildable (leaf :: certs) self.anchors .new leaf certs)
    (reordered : permuted.Perm certs) :
    (∃ validated, self.verifyOne der (leaf :: permuted) = .ok validated) ∨
      (∃ failure, self.validate der (leaf :: permuted) = .error failure ∧
        isAiaRecoverable failure = false) ∨
      self.verifyOne der (leaf :: permuted) = .error (.pathBuild .budgetExceeded) ∨
      ∃ failure, self.verifyOne der (leaf :: permuted) = .error (.revocation failure) := by
  have samePool : ∀ cert, cert ∈ leaf :: certs → cert ∈ leaf :: permuted :=
    fun cert listed => (reordered.cons leaf).mem_iff.mpr listed
  have reached : ∃ issuers path, Buildable (leaf :: certs) self.anchors .new leaf issuers ∧
      self.validate der (leaf :: issuers) = .ok path := by
    rcases verifyOne_ok verified with upheld | ⟨built, reassembled, upheld⟩
    · exact ⟨certs, validated, searchable upheld.validates, upheld.validates⟩
    · have attempted := offline_built rfl reassembled upheld.validates
      rcases attempt_ok attempted with ⟨_, issuers, same, buildable⟩
      subst same
      exact ⟨issuers, validated, buildable, upheld.validates⟩
  rcases reached with ⟨issuers, path, buildable, accepted⟩
  have widened := buildable.mono (fun cert listed => samePool cert (buildable.fromPool cert listed))
  exact verifyOne_of_buildable rfl widened accepted

end Reordered

end Verifier

namespace Concrete

open Pkix.Path.Concrete Pkix.PathBuilder.Concrete

theorem crossedChain_reordered :
    (∃ validated, (verifierWith rootAnchors digitServer).verifyOne farCodec
        (leafCert :: (crossedPool.take 2).reverse) = .ok validated) ∨
      (∃ failure, (verifierWith rootAnchors digitServer).validate farCodec
          (leafCert :: (crossedPool.take 2).reverse) = .error failure ∧
        isAiaRecoverable failure = false) ∨
      (verifierWith rootAnchors digitServer).verifyOne farCodec
        (leafCert :: (crossedPool.take 2).reverse) = .error (.pathBuild .budgetExceeded) ∨
      ∃ failure, (verifierWith rootAnchors digitServer).verifyOne farCodec
        (leafCert :: (crossedPool.take 2).reverse) = .error (.revocation failure) := by
  have verified : (verifierWith rootAnchors digitServer).offline.verifyOne farCodec
      (leafCert :: crossedPool.take 2) =
        .ok (validatedPath (leafCert :: crossedPool.take 2) leafCert 0 none) := by
    decide +kernel
  have buildable : Buildable (leafCert :: crossedPool.take 2) rootAnchors .new leafCert
      (crossedPool.take 2) :=
    ⟨by decide, by decide, by decide +kernel, by decide +kernel, by decide +kernel⟩
  exact Verifier.verifyOne_reordered verified (fun _ => buildable) (List.reverse_perm _)

/-- The leaf and the first issuer name anchors, and the key of the lower anchor did not sign:
the supplied order is accepted, the other one searched in vain. -/
theorem rolledRoot_reordered :
    ((verifierWith rolledAnchors noAiaFetcher).verifyOne farCodec
        (leafCert :: crossedPool.take 2)).isOk = true ∧
      (crossedPool.take 2).reverse.Perm (crossedPool.take 2) ∧
      (verifierWith rolledAnchors noAiaFetcher).verifyOne farCodec
        (leafCert :: (crossedPool.take 2).reverse) = .error (.path (.signatureInvalid 0)) := by
  refine ⟨by decide +kernel, List.reverse_perm _, by decide +kernel⟩

end Concrete

end Pkix.Chain
