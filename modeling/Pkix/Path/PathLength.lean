import Pkix.Lib.Allowance
import Pkix.Path.WalkFacts

/-! The length of a path, counted afresh for each constraint, against the one running counter
of RFC 5280 section 6.1. -/

namespace Pkix.Path

section Counter

variable (der : DerCodec)

/-- Neither the count before the walk nor one of the walk's own finds the path too long. -/
structure PathLengthsAllowed (policy : ValidationPolicy) (chain : List Certificate) : Prop where
  upFront : checkMaxPathLen policy chain = .ok ()
  perCa : ∀ index cert, 0 < index → chain[index]? = some cert →
    checkPathLen index chain (findCertExt der.basicConstraints cert oidBasicConstraints) = .ok ()

end Counter

section Counts

variable {der : DerCodec} {policy : ValidationPolicy} {chain : List Certificate}

end Counts

section Accepted

variable {der : DerCodec} {policy : ValidationPolicy} {verifier : SignatureVerifier}
variable {chain : List Certificate}

theorem checkPathLen_of_walk {leaf cert : Certificate} {anchor : TrustAnchor}
    {tree : Option PolicyTree} {index : Nat}
    (walked : chainWalk der policy verifier chain leaf anchor = .ok tree) (inner : 0 < index)
    (located : chain[index]? = some cert) :
    checkPathLen index chain (findCertExt der.basicConstraints cert oidBasicConstraints) =
      .ok () := by
  obtain ⟨final, finished, _⟩ := chainWalk_ok_iff.mp walked
  obtain ⟨state, next, _, stepped⟩ := reverse_walk_visits (fun _ _ _ => True)
    (fun _ _ _ _ _ _ _ => trivial) trivial finished located
  obtain ⟨_, _, _, _, _, _, _, _, _, advanced, _⟩ := certStep_ok_iff.mp stepped
  rw [take_reverse_length located] at advanced
  obtain ⟨_, _, checked, _⟩ := (caStep_ca_iff (Nat.ne_of_gt inner)).mp advanced
  obtain ⟨constraints, found, checked⟩ := Walk.bind_ok.mp checked
  obtain ⟨_, checked⟩ := Walk.then_ok.mp checked
  obtain ⟨_, checked⟩ := Walk.then_ok.mp checked
  obtain ⟨_, counted⟩ := Walk.then_ok.mp checked
  rw [tryFindCertExt_ok found]
  exact counted

/-- Both counts are passed by every path that validates. -/
theorem validatePath_pathLengths {anchors : List TrustAnchor} {path : ValidatedPath}
    (accepted : validatePath der policy verifier chain anchors = .ok path) :
    PathLengthsAllowed der policy chain := by
  obtain ⟨_, _, _, _, _, _, _, _, walked, _⟩ := validatePath_ok accepted
  obtain ⟨_, _, upFront, _⟩ := validatePath_accepts_iff.mp ⟨path, accepted⟩
  exact ⟨upFront, fun index cert inner located => checkPathLen_of_walk walked inner located⟩

end Accepted

end Pkix.Path
