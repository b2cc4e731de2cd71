import Pkix.Path.LinkSoundness
import Pkix.Path.PolicySoundness

/-! What the walk enforces of an extension: every lookup takes the first one with the
OID, wherever it stands and critical or not, and never looks at a later one. -/

namespace Pkix.Path

/-- The certificate at the index as an accepted walk meets it, the state before and after
it, and the counters in force below it, those of the wrap-up below the leaf. -/
structure Visit (der : DerCodec) (policy : ValidationPolicy) (verifier : SignatureVerifier)
    (chain : List Certificate) (anchor : TrustAnchor) (index : Nat) (cert : Certificate)
    (state next : WorkingState) (after : PolicyCounters) : Prop where
  reached : Walk.Reached (certStep der policy verifier chain) chain.reverse
    (initialState policy chain anchor) (chain.drop (index + 1)).reverse
    (cert :: (chain.take index).reverse) state
  stepped : certStep der policy verifier chain cert (chain.take index).reverse state = .ok next
  counted : index ≠ 0 → after = next.policies.counters
  wrappedUp : index = 0 →
    wrapUpExplicitPolicy der cert next.policies.counters.explicitPolicy =
      .ok after.explicitPolicy

/-- The extension's content was decoded and decided what its kind decides at the index. -/
structure Enforced (der : DerCodec) (policy : ValidationPolicy) (chain : List Certificate)
    (index : Nat) (cert : Certificate) (state next : WorkingState) (after : PolicyCounters)
    (extension : Extension) : Prop where
  nameConstraints : extension.extnId = oidNameConstraints → index ≠ 0 →
    ∃ nc, der.nameConstraints extension.extnValue = some nc ∧
      next.names = updateNameConstraints state.names nc
  policyConstraints : extension.extnId = oidPolicyConstraints →
    ∃ constraints, der.policyConstraints extension.extnValue = some constraints ∧
      (∀ skip, constraints.requireExplicitPolicy = some skip → after.explicitPolicy ≤ skip) ∧
      (index ≠ 0 → ∀ skip, constraints.inhibitPolicyMapping = some skip →
        after.policyMapping ≤ skip)
  inhibitAnyPolicy : extension.extnId = oidInhibitAnyPolicy → index ≠ 0 →
    ∃ skip, der.inhibitAnyPolicy extension.extnValue = some skip ∧ after.inhibitAny ≤ skip
  basicConstraints : extension.extnId = oidBasicConstraints → index ≠ 0 →
    ∃ constraints, der.basicConstraints extension.extnValue = some constraints ∧
      constraints.ca = true ∧
      ∀ pathLen, constraints.pathLenConstraint = some pathLen →
        nonSelfIssuedCount (intermediatesBelow index chain) ≤ pathLen
  keyUsage : extension.extnId = oidKeyUsage → index ≠ 0 →
    (policy.enforceKeyUsage = true →
      ∃ usage, der.keyUsage extension.extnValue = some usage ∧ usage.keyCertSign = true) ∧
    (policy.requireCrlSignOnCas = true →
      ∃ usage, der.keyUsage extension.extnValue = some usage ∧ usage.crlSign = true)
  subjectAltName : extension.extnId = oidSubjectAltName →
    ∃ san, der.subjectAltName extension.extnValue = some san ∧
      checkNamesUnlessExempt der cert index (some san) state.names = .ok () ∧
      (index = 0 → checkLeafSan policy (some san) = .ok () ∧
        checkLeafRfc822San policy (some san) = .ok ())

section Lookup

variable {α : Type} {decode : Bytes → Option α} {cert : Certificate} {oid : ObjectIdentifier}
variable {index : Nat} {extension : Extension}

theorem findCertExt_first (first : findExtension cert oid = some extension)
    (found : ∃ content, tryFindCertExt decode cert oid index = .ok content) :
    ∃ value, decode extension.extnValue = some value ∧
      findCertExt decode cert oid = some value := by
  rcases found with ⟨content, found⟩
  rcases tryFindCertExt_first first found with ⟨value, decoded, rfl⟩
  exact ⟨value, decoded, tryFindCertExt_ok found⟩

end Lookup

section Checks

variable {der : DerCodec} {policy : ValidationPolicy} {verifier : SignatureVerifier}
variable {chain : List Certificate} {cert : Certificate} {index : Nat}

theorem clampTo_le {counter skip : Nat} : clampTo counter (some skip) ≤ skip :=
  Nat.min_le_right counter skip

theorem certNameConstraints_first {extension : Extension} {found : Option NameConstraints}
    (first : findExtension cert oidNameConstraints = some extension)
    (decoded : certNameConstraints der cert index = .ok found) :
    ∃ nc, der.nameConstraints extension.extnValue = some nc ∧ found = some nc := by
  unfold certNameConstraints at decoded
  cases looked : tryFindCertExt der.nameConstraints cert oidNameConstraints index with
  | error failure => simp [looked] at decoded
  | ok content =>
      rcases tryFindCertExt_first first looked with ⟨nc, content, rfl⟩
      rw [looked] at decoded
      dsimp only at decoded
      split at decoded
      · cases decoded
      · exact ⟨nc, content, (Except.ok.inj decoded).symm⟩

theorem caNamesStep_first {extension : Extension} {names next : NameConstraintState}
    (first : findExtension cert oidNameConstraints = some extension)
    (stepped : caNamesStep der cert index names = .ok next) :
    ∃ nc, der.nameConstraints extension.extnValue = some nc ∧
      next = updateNameConstraints names nc := by
  rcases Walk.bind_ok.mp stepped with ⟨found, decoded, same⟩
  rcases certNameConstraints_first first decoded with ⟨nc, content, rfl⟩
  exact ⟨nc, content, (Walk.pure_ok.mp same).symm⟩

theorem checkCa_basicConstraints {extension : Extension}
    (first : findExtension cert oidBasicConstraints = some extension)
    (checked : checkCa der policy cert index chain = .ok ()) :
    ∃ constraints, der.basicConstraints extension.extnValue = some constraints ∧
      constraints.ca = true ∧
      ∀ pathLen, constraints.pathLenConstraint = some pathLen →
        nonSelfIssuedCount (intermediatesBelow index chain) ≤ pathLen := by
  rcases Walk.bind_ok.mp checked with ⟨found, decoded, checked⟩
  rcases Walk.then_ok.mp checked with ⟨flagged, checked⟩
  rcases Walk.then_ok.mp checked with ⟨_, checked⟩
  rcases Walk.then_ok.mp checked with ⟨_, short⟩
  rcases tryFindCertExt_first first decoded with ⟨constraints, content, rfl⟩
  refine ⟨constraints, content, ?_, ?_⟩
  · simpa using requireThat_ok_iff.mp flagged
  · intro pathLen bounded
    simp only [checkPathLen, Option.bind_some, bounded, requireThat_ok_iff] at short
    exact of_decide_eq_true short

theorem checkCa_crlSign {extension : Extension}
    (first : findExtension cert oidKeyUsage = some extension)
    (required : policy.requireCrlSignOnCas = true)
    (checked : checkCa der policy cert index chain = .ok ()) :
    ∃ usage, der.keyUsage extension.extnValue = some usage ∧ usage.crlSign = true := by
  rcases Walk.bind_ok.mp checked with ⟨_, _, checked⟩
  rcases Walk.then_ok.mp checked with ⟨_, checked⟩
  rcases Walk.then_ok.mp checked with ⟨_, checked⟩
  rcases Walk.then_ok.mp checked with ⟨usageChecked, _⟩
  rw [checkCrlSign, if_pos required] at usageChecked
  rcases Walk.bind_ok.mp usageChecked with ⟨bit, extracted, allowed⟩
  rcases Walk.bind_ok.mp extracted with ⟨found, decoded, same⟩
  rcases tryFindCertExt_first first decoded with ⟨usage, content, rfl⟩
  refine ⟨usage, content, ?_⟩
  rw [requireThat_ok_iff, ← Walk.pure_ok.mp same] at allowed
  simpa using allowed

theorem checkLeaf_san {san : Option SubjectAltName} {policies : Option CertificatePolicies}
    (checked : checkLeaf der policy cert 0 san policies = .ok ()) :
    checkLeafSan policy san = .ok () ∧ checkLeafRfc822San policy san = .ok () := by
  simp only [checkLeaf, if_true, Walk.then_ok] at checked
  exact ⟨checked.1, checked.2.2.2.2⟩

/-- The step lemma: a visited certificate's first extension of each kind is enforced. -/
theorem Visit.enforced {anchor : TrustAnchor} {state next : WorkingState}
    {after : PolicyCounters} {extension : Extension} (located : chain[index]? = some cert)
    (visit : Visit der policy verifier chain anchor index cert state next after)
    (first : findExtension cert extension.extnId = some extension) :
    Enforced der policy chain index cert state next after extension := by
  have position := take_reverse_length located
  rcases certStep_tracks.mp visit.stepped with ⟨linked, named, policed⟩
  rcases linkStep_ok_iff.mp linked with ⟨policies, san, _, _, sanFound, leafChecked, caChecked, _⟩
  rcases nameStep_ok_iff.mp named with ⟨sameSan, sanAgain, namesChecked, narrowed⟩
  rw [sanFound] at sanAgain
  cases Except.ok.inj sanAgain
  rw [position] at sanFound leafChecked caChecked namesChecked narrowed
  have ca (inner : index ≠ 0) :
      CaPoliciesPass der cert index (chain.length - index) state.policies ∧
        after = countersAfter der cert state.policies.counters := by
    rcases (policyStep_ca_ok_iff (by rw [position]; exact inner)).mp policed with ⟨pass, advanced⟩
    rw [position] at pass
    refine ⟨pass, ?_⟩
    rw [visit.counted inner, advanced]
    rfl
  constructor
  · intro kind inner
    rw [kind] at first
    rw [if_neg inner] at narrowed
    exact caNamesStep_first first narrowed
  · intro kind
    rw [kind] at first
    by_cases bottom : index = 0
    · rcases Walk.bind_ok.mp (visit.wrappedUp bottom) with ⟨found, decoded, same⟩
      rcases tryFindCertExt_first first decoded with ⟨constraints, content, rfl⟩
      refine ⟨constraints, content, ?_, fun inner => absurd bottom inner⟩
      intro skip required
      rw [← Walk.pure_ok.mp same, Option.bind_some, required]
      exact clampTo_le
    · rcases ca bottom with ⟨pass, rfl⟩
      rcases findCertExt_first first pass.constraints with
        ⟨constraints, content, found⟩
      refine ⟨constraints, content, ?_, ?_⟩
      · intro skip required
        simp only [countersAfter, clampInhibitAny, clampConstraints, found, Option.bind_some,
          required]
        exact clampTo_le
      · intro _ skip inhibited
        simp only [countersAfter, clampInhibitAny, clampConstraints, found, Option.bind_some,
          inhibited]
        exact clampTo_le
  · intro kind inner
    rw [kind] at first
    rcases ca inner with ⟨pass, rfl⟩
    rcases findCertExt_first first pass.inhibit with ⟨skip, content, found⟩
    refine ⟨skip, content, ?_⟩
    simp only [countersAfter, clampInhibitAny, found]
    exact clampTo_le
  · intro kind inner
    rw [kind] at first
    exact checkCa_basicConstraints first (caChecked inner)
  · intro kind inner
    rw [kind] at first
    exact ⟨fun enforced => checkCa_certSign (caChecked inner) enforced extension first,
      fun required => checkCa_crlSign first required (caChecked inner)⟩
  · intro kind
    rw [kind] at first
    rcases tryFindCertExt_first first sanFound with ⟨names, content, rfl⟩
    refine ⟨names, content, namesChecked, ?_⟩
    intro bottom
    subst bottom
    exact checkLeaf_san leafChecked

end Checks

section Runs

variable {der : DerCodec} {policy : ValidationPolicy} {verifier : SignatureVerifier}
variable {chain : List Certificate} {anchors : List TrustAnchor}

end Runs

section ShadowExample

open Concrete

end ShadowExample

end Pkix.Path
