import Pkix.Path.LinkSoundness
import Pkix.PathBuilder.BuildPath

/-! What the entry points return: the first path of the plain search, the first one that
validates, or the reason there is none. -/

namespace Pkix.PathBuilder

open Pkix.Path PathCandidates

section Answers

variable {der : BuilderCodec} {target : Certificate} {pool : List Certificate}
variable {anchors : List TrustAnchor} {config : PathBuilderConfig}

theorem Search.answered (search : Search) {remaining : List (List Nat)} {needed limit : Nat}
    (tracks : Tracks der target pool anchors limit search.state remaining needed)
    (busy : search.state.done = false) :
    Answered der target pool anchors limit search.state (search.next der).2.state needed remaining
      (search.next der).1 :=
  tracks.call busy (search.next_returned der)

theorem Search.new_answered (der : BuilderCodec) (target : Certificate)
    (pool : List Certificate) (anchors : List TrustAnchor) (config : PathBuilderConfig) :
    Answered der target pool anchors config.maxDepth
      (PathCandidates.new target pool anchors config)
      ((Search.new target pool anchors config).next der).2.state
      (naiveVisits der target pool anchors config) (naivePaths der target pool anchors config)
      ((Search.new target pool anchors config).next der).1 :=
  Search.answered (Search.new target pool anchors config)
    (tracks_new der target pool anchors config) rfl

/-- The single-shot entry point returns the first path of the plain search. -/
theorem buildPathWithConfig_ok {chain : List Certificate}
    (built : buildPathWithConfig der target pool anchors config = .ok chain) :
    ∃ indices, (naivePaths der target pool anchors config).head? = some indices ∧
      chain = chainOf target pool indices := by
  have answered := Search.new_answered der target pool anchors config
  unfold buildPathWithConfig at built
  cases answer : ((Search.new target pool anchors config).next der).1 with
  | none => simp [answer] at built
  | some result =>
      cases result with
      | error failure => simp [answer] at built
      | ok first =>
          simp only [answer] at built
          cases built
          rw [answer] at answered
          generalize shape : naivePaths der target pool anchors config = paths at answered
          cases answered with
          | path => exact ⟨_, rfl, rfl⟩

end Answers

section FirstValid

variable {der : BuilderCodec} {target : Certificate} {pool : List Certificate}
variable {anchors : List TrustAnchor} {config : PathBuilderConfig}
variable {policy : ValidationPolicy} {verifier : SignatureVerifier}

def accepts (der : BuilderCodec) (anchors : List TrustAnchor) (policy : ValidationPolicy)
    (verifier : SignatureVerifier) (chain : List Certificate) : Bool :=
  (validatePath der.toDerCodec policy verifier chain anchors).isOk

theorem accepts_iff {chain : List Certificate} :
    accepts der anchors policy verifier chain = true ↔
      ∃ path, validatePath der.toDerCodec policy verifier chain anchors = .ok path := by
  unfold accepts
  cases validatePath der.toDerCodec policy verifier chain anchors <;>
    simp [Except.isOk, Except.toBool]

/-- The outcome of the loop over the candidates still to come. -/
inductive Tried (der : BuilderCodec) (target : Certificate) (pool : List Certificate)
    (anchors : List TrustAnchor) (config : PathBuilderConfig) (policy : ValidationPolicy)
    (verifier : SignatureVerifier) (budget needed : Nat) (remaining : List (List Nat))
    (lastError : Option String) : Result (List Certificate) → Prop
  | valid {indices : List Nat}
      (found : remaining.find? (fun indices =>
        accepts der anchors policy verifier (chainOf target pool indices)) = some indices) :
      Tried der target pool anchors config policy verifier budget needed remaining lastError
        (.ok (chainOf target pool indices))
  | overBudget (short : budget < needed) :
      Tried der target pool anchors config policy verifier budget needed remaining lastError
        (.error .budgetExceeded)
  | rejected {tried : Nat} {last : Option String}
      (none_ : remaining.find? (fun indices =>
        accepts der anchors policy verifier (chainOf target pool indices)) = none)
      (enough : needed ≤ budget)
      (noneTried : last = none ↔ remaining = [] ∧ lastError = none) :
      Tried der target pool anchors config policy verifier budget needed remaining lastError
        (.error (exhaustedError der target pool anchors config tried last))

theorem tryCandidates_tried {attempts limit needed tried : Nat} (search : Search)
    {remaining : List (List Nat)} {lastError : Option String} {result : Result (List Certificate)}
    (tracks : Tracks der target pool anchors limit search.state remaining needed)
    (busy : search.state.done = false)
    (finished : tryCandidates der target pool anchors config policy verifier attempts search tried
      lastError = some result) :
    Tried der target pool anchors config policy verifier search.state.budget needed remaining
      lastError result := by
  induction attempts generalizing search remaining needed tried lastError with
  | zero => cases finished
  | succ attempts ih =>
      have answered := Search.answered search tracks busy
      unfold tryCandidates at finished
      cases answer : (search.next der).1 with
      | none =>
          rw [answer] at answered
          simp only [answer, Option.some.injEq] at finished
          subst finished
          cases answered with
          | exhausted closed enough =>
              exact .rejected rfl enough (by simp)
      | some answer' =>
          rw [answer] at answered
          cases answered with
          | overBudget closed short =>
              simp only [answer, Option.some.injEq] at finished
              subst finished
              exact .overBudget short
          | @path indices rest needed' later spent same =>
              simp only [answer] at finished
              cases validated : validatePath der.toDerCodec policy verifier
                  (chainOf target pool indices) anchors with
              | ok path =>
                  simp only [validated, Option.some.injEq] at finished
                  subst finished
                  apply Tried.valid
                  rw [List.find?_cons_of_pos]
                  exact accepts_iff.mpr ⟨path, validated⟩
              | error failure =>
                  simp only [validated] at finished
                  have rejected : accepts der anchors policy verifier
                      (chainOf target pool indices) = false := by
                    simp [accepts, validated, Except.isOk, Except.toBool]
                  have shorter : ∀ rest, (indices :: rest).find? (fun indices =>
                      accepts der anchors policy verifier (chainOf target pool indices)) =
                      rest.find? (fun indices =>
                        accepts der anchors policy verifier (chainOf target pool indices)) :=
                    fun rest => List.find?_cons_of_neg (by simp [rejected])
                  cases ih (search.next der).2 later (same.trans busy) finished with
                  | valid found => exact .valid (by rw [shorter]; exact found)
                  | overBudget short => exact .overBudget (by omega)
                  | rejected none_ enough noneTried =>
                      refine .rejected (by rw [shorter]; exact none_) (by omega) ?_
                      rw [noneTried]
                      simp

theorem buildFirstValid_tried (der : BuilderCodec) (target : Certificate)
    (pool : List Certificate) (anchors : List TrustAnchor) (config : PathBuilderConfig)
    (policy : ValidationPolicy) (verifier : SignatureVerifier) :
    Tried der target pool anchors config policy verifier config.dfsBudget
      (naiveVisits der target pool anchors config) (naivePaths der target pool anchors config) none
      (buildFirstValidPathWithConfig der target pool anchors config policy verifier) :=
  tryCandidates_tried (Search.new target pool anchors config)
    (tracks_new der target pool anchors config) rfl (Option.some_get _).symm

/-- The topmost certificate names some anchor as its issuer. -/
def topIssuerIsAnchor (anchors : List TrustAnchor) (chain : List Certificate) : Bool :=
  chain.getLast?.any (issuerIsAnchor anchors)

theorem endsAtAnchor_eq (indices : List Nat) :
    endsAtAnchor target pool anchors indices =
      topIssuerIsAnchor anchors (chainOf target pool indices) := by
  rw [topIssuerIsAnchor, getLast?_chainOf]
  rfl

theorem exists_indices {certs : List Certificate} (fromPool : ∀ cert ∈ certs, cert ∈ pool) :
    ∃ indices : List Nat, indices.map (fun idx => pool[idx]?) = certs.map some := by
  induction certs with
  | nil => exact ⟨[], rfl⟩
  | cons cert certs ih =>
      rcases ih (fun other listed => fromPool other (List.mem_cons_of_mem _ listed)) with
        ⟨indices, rest⟩
      rcases List.getElem?_of_mem (fromPool cert List.mem_cons_self) with ⟨idx, located⟩
      exact ⟨idx :: indices, by rw [List.map_cons, located, rest, List.map_cons]⟩

theorem chainOf_of_map {indices : List Nat} {certs : List Certificate}
    (named : indices.map (fun idx => pool[idx]?) = certs.map some) :
    chainOf target pool indices = target :: certs := by
  have kept : indices.filterMap (fun idx => pool[idx]?) =
      (indices.map (fun idx => pool[idx]?)).filterMap id := by
    rw [List.filterMap_map]
    rfl
  unfold chainOf
  rw [kept, named, List.filterMap_map]
  simp

theorem certIsCa_of_flag {cert : Certificate} {extension : Extension}
    {constraints : BasicConstraints}
    (located : findExtension cert oidBasicConstraints = some extension)
    (decoded : der.basicConstraints extension.extnValue = some constraints)
    (flagged : constraints.ca = true) : certIsCa der cert = true := by
  simp [certIsCa, located, decoded, flagged]

/-- An accepted chain ends below an anchor and its issuers are CAs. -/
theorem accepted_topology {certs : List Certificate} {path : ValidatedPath}
    (accepted : validatePath der.toDerCodec policy verifier (target :: certs) anchors = .ok path) :
    (∀ cert ∈ certs, certIsCa der cert = true) ∧
      topIssuerIsAnchor anchors (target :: certs) = true := by
  rcases validatePath_ok accepted with
    ⟨leaf, lastCert, anchor, tree, _, last, selected, candidate, walked, _⟩
  constructor
  · intro cert listed
    rcases List.getElem?_of_mem listed with ⟨index, located⟩
    have verified := linkVerified_of_walk walked (index + 1) cert located
    rcases verified.caFlag (Nat.succ_pos index) with ⟨_, _, found, decoded, flagged⟩
    exact certIsCa_of_flag found decoded flagged
  · have listed := List.mem_of_getElem? selected
    unfold topIssuerIsAnchor issuerIsAnchor
    rw [last, Option.any_some, List.any_eq_true]
    rw [isCandidate, Bool.and_eq_true] at candidate
    exact ⟨anchor, listed, candidate.1⟩

/-- The topology the search asks of a chain besides what validation checks. -/
structure Buildable (pool : List Certificate) (anchors : List TrustAnchor)
    (config : PathBuilderConfig) (target : Certificate) (certs : List Certificate) : Prop where
  fromPool : ∀ cert ∈ certs, cert ∈ pool
  short : certs.length ≤ config.maxDepth
  linked : (target :: certs).IsChain issuedBy
  keysDiffer : (target :: certs).Pairwise differentKeys
  notBefore : ∀ count < certs.length,
    topIssuerIsAnchor anchors (target :: certs.take count) = false

theorem Buildable.mono {wider : List Certificate} {certs : List Certificate}
    (buildable : Buildable pool anchors config target certs)
    (wide : ∀ cert ∈ certs, cert ∈ wider) : Buildable wider anchors config target certs :=
  { buildable with fromPool := wide }

/-- A chain the search would yield, whether or not it validates. -/
structure Complete (der : BuilderCodec) (anchors : List TrustAnchor) (config : PathBuilderConfig)
    (target : Certificate) (certs : List Certificate) : Prop where
  buildable : Buildable certs anchors config target certs
  issuersAreCas : ∀ cert ∈ certs, certIsCa der cert = true
  anchored : topIssuerIsAnchor anchors (target :: certs) = true

theorem Complete.deeper {certs : List Certificate} {deeper : PathBuilderConfig}
    (complete : Complete der anchors config target certs)
    (allowed : config.maxDepth ≤ deeper.maxDepth) : Complete der anchors deeper target certs :=
  { complete with
    buildable := { complete.buildable with short := complete.buildable.short.trans allowed } }

theorem Complete.path {certs : List Certificate}
    (complete : Complete der anchors config target certs) (fromPool : ∀ cert ∈ certs, cert ∈ pool) :
    ∃ indices ∈ naivePaths der target pool anchors config,
      chainOf target pool indices = target :: certs := by
  rcases exists_indices fromPool with ⟨indices, named⟩
  have chain : chainOf target pool indices = target :: certs := chainOf_of_map named
  have sameLength : indices.length = certs.length := by
    simpa using congrArg List.length named
  refine ⟨indices, mem_naivePaths_iff.mpr ⟨?_, ?_, ⟨?_, ?_, ?_⟩, ?_, ?_⟩, chain⟩
  · intro idx listed
    have present : pool[idx]? ∈ certs.map some := by
      rw [← named]
      exact List.mem_map_of_mem listed
    rcases List.mem_map.mp present with ⟨cert, _, located⟩
    exact (List.getElem?_eq_some_iff.mp located.symm).1
  · rw [sameLength]
    exact complete.buildable.short
  · rw [chain]
    exact complete.buildable.linked
  · rw [chain]
    exact complete.issuersAreCas
  · rw [chain]
    exact complete.buildable.keysDiffer
  · rw [endsAtAnchor_eq, chain]
    exact complete.anchored
  · intro count within
    have shorter : (indices.take count).map (fun idx => pool[idx]?) =
        (certs.take count).map some := by
      rw [List.map_take, named, List.map_take]
    rw [endsAtAnchor_eq, chainOf_of_map shorter]
    exact complete.buildable.notBefore count (by omega)

theorem Buildable.complete {certs : List Certificate} {path : ValidatedPath}
    (buildable : Buildable pool anchors config target certs)
    (accepted : validatePath der.toDerCodec policy verifier (target :: certs) anchors = .ok path) :
    Complete der anchors config target certs := by
  rcases accepted_topology accepted with ⟨cas, anchored⟩
  exact ⟨buildable.mono (fun _ listed => listed), cas, anchored⟩

theorem map_inRange {indices : List Nat} (inRange : ∀ idx ∈ indices, idx < pool.length) :
    indices.map (fun idx => pool[idx]?) =
      (indices.filterMap (fun idx => pool[idx]?)).map some := by
  induction indices with
  | nil => rfl
  | cons idx rest ih =>
      have located := List.getElem?_eq_getElem (inRange idx List.mem_cons_self)
      rw [List.map_cons, List.filterMap_cons_some located, located, List.map_cons,
        ih (fun other listed => inRange other (List.mem_cons_of_mem _ listed))]

/-- The paths the search yields are buildable. -/
theorem buildable_of_path {indices : List Nat}
    (path : CertificationPath der target pool anchors config differentKeys indices) :
    ∃ certs, chainOf target pool indices = target :: certs ∧
      Buildable pool anchors config target certs := by
  have named := map_inRange path.pooled
  have sameLength := congrArg List.length named
  rw [List.length_map, List.length_map] at sameLength
  refine ⟨_, chainOf_of_map named, ?_, ?_, path.valid.linked, path.valid.keysDiffer, ?_⟩
  · intro cert listed
    rcases List.mem_filterMap.mp listed with ⟨idx, _, located⟩
    exact List.mem_of_getElem? located
  · rw [← sameLength]
    exact path.short
  · intro count within
    have shorter : (indices.take count).map (fun idx => pool[idx]?) =
        ((indices.filterMap (fun idx => pool[idx]?)).take count).map some := by
      rw [List.map_take, named, List.map_take]
    rw [← chainOf_of_map shorter, ← endsAtAnchor_eq]
    exact path.notBefore count (by omega)

/-- What a builder that succeeds returns. -/
theorem buildFirstValidPath_ok {chain : List Certificate}
    (built : buildFirstValidPathWithConfig der target pool anchors config policy verifier =
      .ok chain) :
    (∃ path, validatePath der.toDerCodec policy verifier chain anchors = .ok path) ∧
      ∃ certs, chain = target :: certs ∧ Buildable pool anchors config target certs := by
  have tried := buildFirstValid_tried der target pool anchors config policy verifier
  rw [built] at tried
  cases tried with
  | valid found =>
      have listed := mem_naivePaths_iff.mp (List.mem_of_find?_eq_some found)
      have accepted := List.find?_some found
      exact ⟨accepts_iff.mp accepted, buildable_of_path listed⟩

theorem Buildable.found {certs : List Certificate} {path : ValidatedPath}
    (buildable : Buildable pool anchors config target certs)
    (accepted : validatePath der.toDerCodec policy verifier (target :: certs) anchors = .ok path) :
    (∃ chain, buildFirstValidPathWithConfig der target pool anchors config policy verifier =
      .ok chain) ∨
    buildFirstValidPathWithConfig der target pool anchors config policy verifier =
      .error .budgetExceeded := by
  rcases (buildable.complete accepted).path buildable.fromPool with ⟨indices, listed, same⟩
  have valid : accepts der anchors policy verifier (chainOf target pool indices) = true := by
    rw [same]
    exact accepts_iff.mpr ⟨path, accepted⟩
  have tried := buildFirstValid_tried der target pool anchors config policy verifier
  generalize buildFirstValidPathWithConfig der target pool anchors config policy verifier =
    result at tried
  cases tried with
  | valid found => exact .inl ⟨_, rfl⟩
  | overBudget => exact .inr rfl
  | rejected none_ =>
      rw [List.find?_eq_none] at none_
      exact absurd valid (none_ indices listed)

/-- Unless the budget runs out, a chain that validates and that the search can reach makes
the builder return one. -/
theorem buildFirstValidPath_complete {certs : List Certificate} {path : ValidatedPath}
    (buildable : Buildable pool anchors config target certs)
    (accepted : validatePath der.toDerCodec policy verifier (target :: certs) anchors = .ok path)
    (withinBudget : buildFirstValidPathWithConfig der target pool anchors config policy verifier ≠
      .error .budgetExceeded) :
    ∃ chain, buildFirstValidPathWithConfig der target pool anchors config policy verifier =
      .ok chain :=
  (buildable.found accepted).resolve_right withinBudget

/-- After a search in which every candidate failed, the first one does so again. -/
theorem noValidPath_rejects {chain : List Certificate} {tried : Nat} {lastError : String}
    (failed : buildFirstValidPathWithConfig der target pool anchors config policy verifier =
      .error (.noValidPath tried lastError))
    (single : buildPathWithConfig der target pool anchors config = .ok chain) :
    accepts der anchors policy verifier chain = false := by
  rcases buildPathWithConfig_ok single with ⟨indices, first, same⟩
  have outcome := buildFirstValid_tried der target pool anchors config policy verifier
  rw [failed] at outcome
  generalize shape : (Except.error (Error.noValidPath tried lastError) :
    Result (List Certificate)) = result at outcome
  cases outcome with
  | valid => cases shape
  | overBudget => cases shape
  | rejected none_ =>
      rw [List.find?_eq_none] at none_
      rw [same]
      exact Bool.eq_false_iff.mpr (none_ indices (List.mem_of_mem_head? first))

theorem complete_of_mem {indices : List Nat}
    (listed : indices ∈ naivePaths der target pool anchors config) :
    ∃ certs, (∀ cert ∈ certs, cert ∈ pool) ∧ Complete der anchors config target certs := by
  have path := mem_naivePaths_iff.mp listed
  rcases buildable_of_path path with ⟨certs, same, buildable⟩
  refine ⟨certs, buildable.fromPool, buildable.mono (fun _ member => member), ?_, ?_⟩
  · have cas := path.valid.issuersAreCas
    rw [same] at cas
    exact cas
  · rw [← same, ← endsAtAnchor_eq]
    exact path.anchored

/-- A search fails on its budget, for want of a path, or with a path that is too deep or
does not validate. -/
theorem buildFirstValidPath_error {failure : Error} (sized : config.maxDepth ≤ usizeMax)
    (failed : buildFirstValidPathWithConfig der target pool anchors config policy verifier =
      .error failure) :
    failure = .budgetExceeded ∨ failure = .noPathFound ∨
      ∃ certs, (∀ cert ∈ certs, cert ∈ pool) ∧
        Complete der anchors (probeConfig config) target certs := by
  have tried := buildFirstValid_tried der target pool anchors config policy verifier
  rw [failed] at tried
  cases tried with
  | overBudget => exact .inl rfl
  | @rejected _ last _ _ noneTried =>
      cases last with
      | some lastError =>
          have some_ : naivePaths der target pool anchors config ≠ [] := by
            intro empty
            have untried := noneTried.mpr ⟨empty, rfl⟩
            cases untried
          rcases List.exists_mem_of_ne_nil _ some_ with ⟨indices, listed⟩
          rcases complete_of_mem listed with ⟨certs, fromPool, complete⟩
          exact .inr (.inr ⟨certs, fromPool,
            complete.deeper (Nat.le_min.mpr ⟨Nat.le_succ _, sized⟩)⟩)
      | none =>
          have answered := Search.new_answered der target pool anchors (probeConfig config)
          unfold exhaustedError probe
          cases answer : ((Search.new target pool anchors (probeConfig config)).next der).1 with
          | none => exact .inr (.inl rfl)
          | some result =>
              rw [answer] at answered
              generalize shape : naivePaths der target pool anchors (probeConfig config) = paths
                at answered
              cases answered with
              | overBudget => exact .inl rfl
              | @path indices =>
                  have listed : indices ∈ naivePaths der target pool anchors (probeConfig config) := by
                    rw [shape]
                    exact List.mem_cons_self
                  rcases complete_of_mem listed with ⟨certs, fromPool, complete⟩
                  exact .inr (.inr ⟨certs, fromPool, complete⟩)

end FirstValid

namespace Concrete

open Pkix.Path.Concrete

def testPolicyNow : ValidationPolicy := .new 1800000000

/-- A root under its old and its new key, and the certificate of the old key under another
anchor: the leaf is signed with the old key. -/
def rolledAnchors : List TrustAnchor :=
  [anchorNamed (commonName [65]) [1] none, anchorNamed (commonName [66]) [9] none]

def rolledIssuer : Certificate := issue 1 (commonName [65]) (commonName [66]) [1] [4] [caExtension]

/-- The search stops at the name of the second anchor, whose key did not sign the leaf. -/
theorem rolledRoot_notBuilt :
    (validatePath caCodec.toDerCodec testPolicyNow keyCopyVerifier [leafCert, rolledIssuer]
      rolledAnchors).isOk = true ∧
    [leafCert, rolledIssuer].Pairwise (fun a b =>
      a.tbsCertificate.subjectPublicKeyInfo ≠ b.tbsCertificate.subjectPublicKeyInfo) ∧
    buildFirstValidPath caCodec leafCert [rolledIssuer] rolledAnchors testPolicyNow
        keyCopyVerifier =
      .error (.noValidPath 1 "signature invalid at chain index 0") := by
  refine ⟨by decide +kernel, by decide +kernel, by decide +kernel⟩

theorem crossedPool_buildable :
    Buildable crossedPool rootAnchors .new leafCert (crossedPool.take 2) :=
  ⟨by decide, by decide, by decide +kernel, by decide +kernel, by decide +kernel⟩

theorem crossedPool_built :
    ∃ chain, buildFirstValidPathWithConfig caCodec leafCert crossedPool rootAnchors .new
      testPolicyNow keyCopyVerifier = .ok chain := by
  have accepted : validatePath caCodec.toDerCodec testPolicyNow keyCopyVerifier
      (leafCert :: crossedPool.take 2) rootAnchors =
        .ok (validatedPath (leafCert :: crossedPool.take 2) leafCert 0 none) := by
    decide +kernel
  exact buildFirstValidPath_complete crossedPool_buildable accepted (by decide +kernel)

end Concrete

end Pkix.PathBuilder
