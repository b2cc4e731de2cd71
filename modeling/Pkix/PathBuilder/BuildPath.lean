import Pkix.PathBuilder.PathEnumeration

/-! The entry points over the iterator: the first path, and the first path that validates. -/

namespace Pkix.Path

def ObjectIdentifier.display (oid : ObjectIdentifier) : String :=
  ".".intercalate (oid.arcs.map toString)

def Error.display : Error → String
  | .signatureInvalid index => "signature invalid at chain index " ++ toString index
  | .validityPeriod index => "validity period check failed at chain index " ++ toString index
  | .malformedCertificate index => "malformed certificate at chain index " ++ toString index
  | .chainBroken index => "issuer/subject linkage broken at chain index " ++ toString index
  | .noTrustedPath => "no path to a trusted anchor"
  | .pathTooLong => "path length exceeds maximum"
  | .notCA index => "certificate at index " ++ toString index ++ " is not a CA"
  | .keyUsageMissing index => "keyCertSign missing at chain index " ++ toString index
  | .crlSignMissing index => "cRLSign missing at chain index " ++ toString index
  | .unhandledCriticalExtension index =>
      "unhandled critical extension at chain index " ++ toString index
  | .nameConstraintViolation index =>
      "name constraints violated at certificate index " ++ toString index
  | .policyViolation index => "certificate policy violation at chain index " ++ toString index
  | .der error => "DER error: " ++ error.message
  | .validityPeriodExceedsMax index =>
      "validity period exceeds maximum at chain index " ++ toString index
  | .algorithmNotAllowed index =>
      "signature algorithm not allowed at chain index " ++ toString index
  | .keyTooSmall index => "RSA key too small at chain index " ++ toString index
  | .missingSan => "leaf certificate is missing SubjectAltName"
  | .missingRfc822San => "leaf certificate SubjectAltName contains no rfc822Name entry"
  | .missingEku => "leaf certificate is missing required ExtendedKeyUsage OID(s)"
  | .missingLeafPolicyOid required =>
      "leaf certificate is missing required CertificatePolicies OID " ++ required.display
  | .subjectDnAttrRuleUnmet =>
      "leaf certificate Subject DN does not satisfy the required attribute rule"
  | .duplicateCertificate first second =>
      "duplicate certificate (issuer+serial) at chain indices " ++ toString first ++ " and " ++
        toString second

end Pkix.Path

namespace Pkix.PathBuilder

open Pkix.Path

namespace PathCandidates

variable {der : BuilderCodec} {state next : PathCandidates} {turns : Nat} {item : Item}

theorem loopWithin_paired (paired : state.Paired)
    (returned : loopWithin der turns state = some (.returned item next)) : next.Paired := by
  rcases @loopWithin_answers der state (fun _ => True) turns item next
    (fun _ _ _ _ _ => trivial) paired trivial returned with ⟨last, lastPaired, _, turned⟩
  exact paired_answer lastPaired turned

theorem nextWithin_paired (paired : state.Paired)
    (returned : nextWithin der turns state = some (.returned item next)) : next.Paired := by
  cases busy : state.done with
  | true =>
      rw [nextWithin_done turns busy] at returned
      cases returned
      exact paired
  | false =>
      rw [nextWithin_busy turns busy] at returned
      exact loopWithin_paired paired.started returned

theorem budget_again (paired : state.Paired) (turned : turn der state = .again next) :
    next.budget ≤ state.budget := by
  have turns := turn_turns der paired
  rw [turned] at turns
  cases turns with
  | retired => exact Nat.le_refl _
  | enters _ _ _ _ _ explores =>
      rw [explores.keeps.2.2.2]
      exact Nat.sub_le _ _
  | resumes _ _ _ explores => exact Nat.le_of_eq explores.keeps.2.2.2

/-- Every chain costs budget. -/
theorem loopWithin_budget {chain : List Certificate} (paired : state.Paired)
    (returned : loopWithin der turns state = some (.returned (some (.ok chain)) next)) :
    next.budget < state.budget := by
  rcases @loopWithin_answers der state (·.budget ≤ state.budget) turns _ next
    (fun _ _ midPaired spent turned => (budget_again midPaired turned).trans spent) paired le_rfl
    returned with ⟨last, lastPaired, spent, turned⟩
  have turns := turn_turns der lastPaired
  rw [turned] at turns
  cases turns with
  | yields _ _ _ left => exact (Nat.sub_lt left Nat.one_pos).trans_le spent

end PathCandidates

/-- An iterator whose stacks are paired, so that its calls end and do not fail. -/
structure Search where
  state : PathCandidates
  paired : state.Paired

namespace Search

def new (target : Certificate) (pool : List Certificate) (anchors : List TrustAnchor)
    (config : PathBuilderConfig) : Search :=
  ⟨.new target pool anchors config, PathCandidates.paired_new target pool anchors config⟩

variable (der : BuilderCodec)

theorem nextWithin_isReturned (search : Search) :
    ∃ item next, PathCandidates.nextWithin der (search.state.turnBound + 1) search.state =
      some (.returned item next) :=
  PathCandidates.nextWithin_ends search.paired (Nat.lt_succ_self _)

def next (search : Search) : Item × Search :=
  match outcome : PathCandidates.nextWithin der (search.state.turnBound + 1) search.state with
  | some (.returned item state) =>
      (item, ⟨state, PathCandidates.nextWithin_paired search.paired outcome⟩)
  | some .panicked => absurd (search.nextWithin_isReturned der) (by simp [outcome])
  | none => absurd (search.nextWithin_isReturned der) (by simp [outcome])

theorem next_returned (search : Search) :
    PathCandidates.nextWithin der (search.state.turnBound + 1) search.state =
      some (.returned (search.next der).1 (search.next der).2.state) := by
  unfold next
  split
  · assumption
  · next panicked => exact absurd (search.nextWithin_isReturned der) (by simp [panicked])
  · next stuck => exact absurd (search.nextWithin_isReturned der) (by simp [stuck])

theorem next_budget (search : Search) {chain : List Certificate}
    (yielded : (search.next der).1 = some (.ok chain)) :
    (search.next der).2.state.budget < search.state.budget := by
  have returned := search.next_returned der
  rw [yielded] at returned
  cases busy : search.state.done with
  | true =>
      rw [PathCandidates.nextWithin_done _ busy] at returned
      cases returned
  | false =>
      rw [PathCandidates.nextWithin_busy _ busy] at returned
      have less := PathCandidates.loopWithin_budget search.paired.started returned
      exact less

end Search

def usizeMax : Nat := 18446744073709551615

section Build

variable (der : BuilderCodec) (target : Certificate) (pool : List Certificate)
variable (anchors : List TrustAnchor) (config : PathBuilderConfig)

def probeConfig : PathBuilderConfig :=
  { maxDepth := min (config.maxDepth + 1) usizeMax, dfsBudget := config.dfsBudget }

/-- Tells a path that is too deep from one that is not there, with a fresh budget. -/
def probe : Error :=
  match ((Search.new target pool anchors (probeConfig config)).next der).1 with
  | some (.ok _) => .depthExceeded
  | some (.error failure) => failure
  | none => .noPathFound

def buildPathWithConfig : Result (List Certificate) :=
  match ((Search.new target pool anchors config).next der).1 with
  | some (.ok chain) => .ok chain
  | some (.error failure) => .error failure
  | none => .error (probe der target pool anchors config)

def buildPath : Result (List Certificate) := buildPathWithConfig der target pool anchors .new

variable (policy : ValidationPolicy) (verifier : SignatureVerifier)

/-- The error once the iterator is exhausted. -/
def exhaustedError (tried : Nat) : Option String → Error
  | some lastError => .noValidPath tried lastError
  | none => probe der target pool anchors config

/-- The loop over the candidates, `none` when it takes more attempts than given. -/
def tryCandidates : (attempts : Nat) → (search : Search) → (tried : Nat) →
    (lastError : Option String) → Option (Result (List Certificate))
  | 0, _, _, _ => none
  | attempts + 1, search, tried, lastError =>
      match (search.next der).1 with
      | some (.ok chain) =>
          match validatePath der.toDerCodec policy verifier chain anchors with
          | .ok _ => some (.ok chain)
          | .error failure =>
              tryCandidates attempts (search.next der).2 (tried + 1) (some failure.display)
      | some (.error failure) => some (.error failure)
      | none => some (.error (exhaustedError der target pool anchors config tried lastError))

theorem tryCandidates_ends (attempts : Nat) (search : Search) (tried : Nat)
    (lastError : Option String) (enough : search.state.budget < attempts) :
    (tryCandidates der target pool anchors config policy verifier attempts search tried
      lastError).isSome = true := by
  induction attempts generalizing search tried lastError with
  | zero => omega
  | succ attempts ih =>
      unfold tryCandidates
      cases answered : (search.next der).1 with
      | none => rfl
      | some answer =>
          cases answer with
          | error failure => rfl
          | ok chain =>
              have less := search.next_budget der answered
              cases validated : validatePath der.toDerCodec policy verifier chain anchors with
              | ok path => simp [validated]
              | error failure =>
                  simp only [validated]
                  exact ih (search.next der).2 _ _ (by omega)

def buildFirstValidPathWithConfig : Result (List Certificate) :=
  (tryCandidates der target pool anchors config policy verifier (config.dfsBudget + 1)
    (Search.new target pool anchors config) 0 none).get
    (tryCandidates_ends der target pool anchors config policy verifier _ _ _ _
      (Nat.lt_succ_self _))

end Build

def buildFirstValidPath (der : BuilderCodec) (target : Certificate) (pool : List Certificate)
    (anchors : List TrustAnchor) (policy : ValidationPolicy) (verifier : SignatureVerifier) :
    Result (List Certificate) :=
  buildFirstValidPathWithConfig der target pool anchors .new policy verifier

end Pkix.PathBuilder
