import Pkix.Chain.Verifier
import Pkix.PathBuilder.BuildCompleteness

/-! What an accepted verification guarantees, whatever the fetcher returned. -/

namespace Pkix.Chain

open Pkix.Path Pkix.PathBuilder

namespace Verifier

section Rounds

variable (der : ChainCodec) (self : Verifier)

/-- The URIs requested from this state, with those tried from then on. -/
def requested (state : Reassembly) : List Uri × List Uri :=
  insertNew state.triedUris (self.unresolvedUris der state.pool)

def start (supplied : List Certificate) : Reassembly :=
  { pool := supplied, triedUris := [], lastAiaError := none }

/-- The state after a number of rounds, had no earlier one ended the search. -/
def roundState (supplied : List Certificate) : (iteration : Nat) → Reassembly
  | 0 => start supplied
  | iteration + 1 =>
      let state := roundState supplied iteration
      (self.fetchRound der iteration state (self.requested der state).2
        (self.requested der state).1).2

/-- Parsed from bytes the fetcher returned for the URIs of one of the first rounds. -/
def Fetched (supplied : List Certificate) (executed : Nat) (cert : Certificate) : Prop :=
  ∃ iteration bytes, iteration < executed ∧
    .ok bytes ∈ self.aia iteration (self.requested der (self.roundState der supplied iteration)).2 ∧
    der.certificate bytes = .ok cert

end Rounds

variable {der : ChainCodec} {self : Verifier} {leaf : Certificate}

theorem mem_absorb_iff {results : List (Except AiaError Bytes)} {addedAny : Bool}
    {state : Reassembly} {cert : Certificate} :
    cert ∈ (absorb der results addedAny state).2.pool ↔
      cert ∈ state.pool ∨ ∃ bytes, .ok bytes ∈ results ∧ der.certificate bytes = .ok cert := by
  induction results generalizing addedAny state with
  | nil => simp [absorb]
  | cons result results ih =>
      cases result with
      | error failure => simp [absorb, ih]
      | ok bytes =>
          unfold absorb
          cases parsed : der.certificate bytes with
          | error failure =>
              simp only [ih, List.mem_cons, Except.ok.injEq, or_and_right, exists_or]
              simp [parsed]
          | ok added =>
              simp only [ih, List.mem_append, List.mem_cons, Except.ok.injEq, or_and_right,
                exists_or]
              simp [parsed, or_assoc, eq_comm]

theorem mem_zip_snd {α β : Type} {as : List α} {bs : List β} {b : β}
    (member : b ∈ (as.zip bs).map (·.2)) : b ∈ bs := by
  rcases List.mem_map.mp member with ⟨pair, listed, same⟩
  rw [← same]
  exact (List.of_mem_zip listed).2

/-- Where the certificates of the pool come from. -/
theorem mem_roundState {supplied : List Certificate} {executed : Nat} {cert : Certificate}
    (member : cert ∈ (self.roundState der supplied executed).pool) :
    cert ∈ supplied ∨ self.Fetched der supplied executed cert := by
  induction executed with
  | zero => exact .inl member
  | succ executed ih =>
      have earlier : self.Fetched der supplied executed cert →
          self.Fetched der supplied (executed + 1) cert := by
        intro ⟨iteration, bytes, before, listed, parsed⟩
        exact ⟨iteration, bytes, by omega, listed, parsed⟩
      rcases mem_absorb_iff.mp member with old | ⟨bytes, listed, parsed⟩
      · exact (ih old).imp_right earlier
      · exact .inr ⟨executed, bytes, Nat.lt_succ_self _, mem_zip_snd listed, parsed⟩

/-- A chain that starts with the leaf and takes the rest from the pool. -/
structure DrawnFrom (leaf : Certificate) (pool chain : List Certificate) : Prop where
  first : chain.head? = some leaf
  members : ∀ cert ∈ chain, cert = leaf ∨ cert ∈ pool

theorem chainOf_drawnFrom (pool : List Certificate) (indices : List Nat) :
    DrawnFrom leaf pool (chainOf leaf pool indices) := by
  refine ⟨rfl, ?_⟩
  intro cert listed
  rcases List.mem_cons.mp listed with isLeaf | inPool
  · exact .inl isLeaf
  · rcases List.mem_filterMap.mp inPool with ⟨idx, _, located⟩
    exact .inr (List.mem_of_getElem? located)

theorem attempt_drawnFrom {pool chain : List Certificate}
    (built : self.attempt der leaf pool = .ok chain) : DrawnFrom leaf pool chain := by
  have tried := buildFirstValid_tried der.toBuilderCodec leaf pool self.anchors .new self.policy
    self.sigVerifier
  unfold attempt buildFirstValidPath at built
  rw [built] at tried
  cases tried with
  | valid => exact chainOf_drawnFrom pool _

theorem topologyOnly_drawnFrom {pool chain : List Certificate}
    (built : self.topologyOnly der leaf pool = .ok chain) : DrawnFrom leaf pool chain := by
  unfold topologyOnly at built
  cases single : buildPath der.toBuilderCodec leaf pool self.anchors with
  | error failure => simp [single, orPathBuild] at built
  | ok first =>
      simp only [single, orPathBuild, Except.ok.injEq] at built
      subst built
      rcases buildPathWithConfig_ok single with ⟨indices, _, same⟩
      rw [same]
      exact chainOf_drawnFrom pool indices

/-- A successful reassembly, by the number of rounds it took. -/
theorem rounds_ok {supplied built : List Certificate} {left iteration : Nat}
    (finished : self.rounds der leaf left iteration (self.roundState der supplied iteration) =
      .ok built) :
    ∃ executed, iteration ≤ executed ∧ executed ≤ iteration + left ∧
      (∀ earlier, iteration ≤ earlier → earlier < executed →
        self.attempt der leaf (self.roundState der supplied earlier).pool =
          .error .noPathFound) ∧
      DrawnFrom leaf (self.roundState der supplied executed).pool built := by
  induction left generalizing iteration with
  | zero =>
      refine ⟨iteration, Nat.le_refl _, Nat.le_refl _, fun _ _ _ => by omega, ?_⟩
      unfold rounds finalAttempt at finished
      cases attempted : self.attempt der leaf (self.roundState der supplied iteration).pool with
      | ok chain =>
          simp only [attempted, Except.ok.injEq] at finished
          subst finished
          exact attempt_drawnFrom attempted
      | error failure =>
          cases failure with
          | noValidPath tried lastError =>
              simp only [attempted] at finished
              exact topologyOnly_drawnFrom finished
          | noPathFound => simp [attempted] at finished
          | depthExceeded => simp [attempted] at finished
          | budgetExceeded => simp [attempted] at finished
  | succ left ih =>
      unfold rounds at finished
      cases attempted : self.attempt der leaf (self.roundState der supplied iteration).pool with
      | ok chain =>
          simp only [attempted, Except.ok.injEq] at finished
          subst finished
          exact ⟨iteration, Nat.le_refl _, by omega, fun _ _ _ => by omega,
            attempt_drawnFrom attempted⟩
      | error failure =>
          cases failure with
          | noValidPath tried lastError =>
              simp only [attempted] at finished
              exact ⟨iteration, Nat.le_refl _, by omega, fun _ _ _ => by omega,
                topologyOnly_drawnFrom finished⟩
          | depthExceeded => simp [attempted] at finished
          | budgetExceeded => simp [attempted] at finished
          | noPathFound =>
              simp only [attempted] at finished
              split at finished
              · cases finished
              · split at finished
                · rcases ih finished with ⟨executed, after, within, noPath, drawn⟩
                  refine ⟨executed, by omega, by omega, ?_, drawn⟩
                  intro earlier from_ before
                  rcases Nat.eq_or_lt_of_le from_ with now | later
                  · rw [← now]
                    exact attempted
                  · exact noPath earlier later before
                · cases finished

theorem buildWithAia_ok {supplied built : List Certificate}
    (finished : self.buildWithAia der supplied = .ok built) :
    ∃ leaf executed, supplied.head? = some leaf ∧ executed ≤ aiaMaxDepth ∧
      (∀ earlier < executed, self.attempt der leaf (self.roundState der supplied earlier).pool =
        .error .noPathFound) ∧
      built.head? = some leaf ∧
      ∀ cert ∈ built, cert ∈ supplied ∨ self.Fetched der supplied executed cert := by
  unfold buildWithAia at finished
  cases first : supplied.head? with
  | none => simp [first] at finished
  | some leaf =>
      simp only [first] at finished
      have fromStart : self.rounds der leaf aiaMaxDepth 0 (self.roundState der supplied 0) =
          .ok built := finished
      rcases rounds_ok fromStart with ⟨executed, _, within, noPath, drawn⟩
      refine ⟨leaf, executed, rfl, by omega, fun earlier before => noPath earlier (by omega) before,
        drawn.first, ?_⟩
      intro cert listed
      rcases drawn.members cert listed with isLeaf | inPool
      · rw [isLeaf]
        exact .inl (List.mem_of_mem_head? first)
      · exact mem_roundState inPool

theorem orRevocation_ok_iff {outcome : Revocation.Result Unit} {result : Unit} :
    orRevocation outcome = .ok result ↔ outcome = .ok () := by
  cases outcome <;> simp [orRevocation]

/-- The checker accepted every certificate of the chain against the one above it, and the
last against the anchor. -/
structure RevocationChecked (checker : RevocationChecker) (anchor : TrustAnchor)
    (chain : List Certificate) : Prop where
  againstIssuer : ∀ index cert issuer, chain[index]? = some cert →
    chain[index + 1]? = some issuer → checker.checkRevocation cert issuer = .ok ()
  againstAnchor : ∀ cert, chain.getLast? = some cert →
    checker.checkRevocationAgainstAnchor cert anchor = .ok ()

theorem checksAgainst_ok_iff {anchor : TrustAnchor} {chain : List Certificate} :
    self.checksAgainst anchor chain = .ok () ↔
      RevocationChecked self.revChecker anchor chain := by
  induction chain with
  | nil =>
      constructor
      · intro _
        exact ⟨by simp, by simp⟩
      · intro _
        rfl
  | cons cert rest ih =>
      cases rest with
      | nil =>
          rw [checksAgainst, orRevocation_ok_iff]
          constructor
          · intro accepted
            exact ⟨by simp, by simpa using accepted⟩
          · intro checked
            exact checked.againstAnchor cert rfl
      | cons issuer rest =>
          rw [checksAgainst, Walk.then_ok, orRevocation_ok_iff, ih]
          constructor
          · intro ⟨accepted, checked⟩
            refine ⟨?_, ?_⟩
            · intro index subject signer located above
              cases index with
              | zero =>
                  cases located
                  cases above
                  exact accepted
              | succ index => exact checked.againstIssuer index subject signer located above
            · intro last isLast
              exact checked.againstAnchor last (by simpa using isLast)
          · intro checked
            refine ⟨checked.againstIssuer 0 cert issuer rfl rfl, ?_, ?_⟩
            · intro index subject signer located above
              exact checked.againstIssuer (index + 1) subject signer located above
            · intro last isLast
              exact checked.againstAnchor last (by simpa using isLast)

/-- The chain behind a verdict: it validates with this result and was checked for
revocation under the anchor the result names. -/
structure Upheld (der : ChainCodec) (verifier : Verifier) (chain : List Certificate)
    (validated : ValidatedPath) : Prop where
  validates : verifier.validate der chain = .ok validated
  unrevoked : ∃ anchor, verifier.anchors[validated.anchorIndex]? = some anchor ∧
    RevocationChecked verifier.revChecker anchor chain

theorem checked_ok_iff {chain : List Certificate} {validated result : ValidatedPath}
    (accepted : self.validate der chain = .ok validated) :
    self.checked der chain validated accepted = .ok result ↔
      result = validated ∧ Upheld der self chain validated := by
  unfold checked runRevocationChecks
  rw [Walk.then_ok, Walk.pure_ok, checksAgainst_ok_iff]
  have inRange := anchorIndex_lt accepted
  constructor
  · intro ⟨unrevoked, same⟩
    exact ⟨same.symm, accepted, _, List.getElem?_eq_getElem inRange, unrevoked⟩
  · intro ⟨same, upheld⟩
    rcases upheld.unrevoked with ⟨anchor, selected, unrevoked⟩
    rw [List.getElem?_eq_getElem inRange] at selected
    cases selected
    exact ⟨unrevoked, same.symm⟩

/-- Where an accepted verdict comes from: the supplied order, or a reassembled chain. -/
theorem verifyOne_ok {supplied : List Certificate} {validated : ValidatedPath}
    (verified : self.verifyOne der supplied = .ok validated) :
    Upheld der self supplied validated ∨
      ∃ built, self.buildWithAia der supplied = .ok built ∧ Upheld der self built validated := by
  unfold verifyOne at verified
  split at verified
  · next direct accepted =>
      rcases (checked_ok_iff accepted).mp verified with ⟨same, upheld⟩
      subst same
      exact .inl upheld
  · next failure rejected =>
      split at verified
      · rcases Walk.bind_ok.mp verified with ⟨built, reassembled, finished⟩
        split at finished
        · next rebuilt accepted =>
            rcases (checked_ok_iff accepted).mp finished with ⟨same, upheld⟩
            subst same
            exact .inr ⟨built, reassembled, upheld⟩
        · cases finished
      · cases verified

theorem validate_nonempty {chain : List Certificate} {validated : ValidatedPath}
    (accepted : self.validate der chain = .ok validated) : ∃ first, chain.head? = some first := by
  rcases validatePath_ok accepted with ⟨first, _, _, _, head, _⟩
  exact ⟨first, head⟩

theorem upheld_of_verifyOne {supplied : List Certificate} {validated : ValidatedPath}
    (verified : self.verifyOne der supplied = .ok validated) :
    ∃ chain, chain.head? = supplied.head? ∧ Upheld der self chain validated := by
  rcases verifyOne_ok verified with upheld | ⟨built, reassembled, upheld⟩
  · exact ⟨supplied, rfl, upheld⟩
  · rcases buildWithAia_ok reassembled with ⟨leaf, _, first, _, _, head, _⟩
    exact ⟨built, head.trans first.symm, upheld⟩

/-- The chain behind an accepted verdict starts with the leaf supplied, and its other
certificates were supplied or parsed from what the fetcher returned. -/
theorem verifyOne_chain {supplied : List Certificate} {validated : ValidatedPath}
    (verified : self.verifyOne der supplied = .ok validated) :
    ∃ leaf chain executed, supplied.head? = some leaf ∧ chain.head? = some leaf ∧
      executed ≤ aiaMaxDepth ∧
      (∀ cert ∈ chain, cert ∈ supplied ∨ self.Fetched der supplied executed cert) ∧
      Upheld der self chain validated := by
  rcases verifyOne_ok verified with upheld | ⟨built, reassembled, upheld⟩
  · rcases validate_nonempty upheld.validates with ⟨leaf, first⟩
    exact ⟨leaf, supplied, 0, first, first, Nat.zero_le _, fun cert listed => .inl listed, upheld⟩
  · rcases buildWithAia_ok reassembled with ⟨leaf, executed, first, within, _, head, members⟩
    exact ⟨leaf, built, executed, first, head, within, members, upheld⟩

end Verifier

namespace Concrete

open Pkix.Path.Concrete Pkix.PathBuilder.Concrete

/-- http://a/0 to http://a/9. -/
def uriOf (digit : UInt8) : Uri := [104, 116, 116, 112, 58, 47, 47, 97, 47, 48 + digit]

def firstUri : Ia5String := ⟨uriOf 1, by decide +kernel⟩
def secondUri : Ia5String := ⟨uriOf 2, by decide +kernel⟩

/-- The content is a digit that stands for its URI. -/
def aiaExtension (digit : UInt8) : Extension := ⟨oidAuthorityInfoAccess, false, [digit]⟩

/-- Certificates are served as the digit of their URI. -/
def chainCodec (served : List (Bytes × Certificate)) : ChainCodec :=
  { caCodec with
    authorityInfoAccess := ([([1], [⟨oidAdCaIssuers, .uniformResourceIdentifier firstUri⟩]),
      ([2], [⟨oidAdCaIssuers, .uniformResourceIdentifier secondUri⟩])].lookup ·)
    certificate := fun bytes =>
      match served.lookup bytes with
      | some cert => .ok cert
      | none => .error ⟨"malformed"⟩ }

/-- Answers a URI with its digit, whatever the round. -/
def digitServer : AiaFetcher := fun _ uris =>
  uris.map (fun uri => .ok [uri.getLast?.getD 0 - 48])

def acceptAll : RevocationChecker := ⟨fun _ _ => .ok (), fun _ _ => .ok ()⟩

def verifierWith (anchors : List TrustAnchor) (aia : AiaFetcher) : Verifier :=
  { anchors
    sigVerifier := keyCopyVerifier
    revChecker := acceptAll
    policy := testPolicyNow
    aia }

/-- A leaf whose issuer has to be fetched, and whose issuer's issuer as well. -/
def farLeaf : Certificate :=
  issue 2 (commonName [66]) (commonName [67]) [4] [8] [aiaExtension 1]

def fetchedIssuer : Certificate :=
  issue 3 (commonName [68]) (commonName [66]) [5] [4] [caExtension, aiaExtension 2]

def fetchedUpper : Certificate :=
  issue 4 (commonName [65]) (commonName [68]) [1] [5] [caExtension]

def farCodec : ChainCodec := chainCodec [([1], fetchedIssuer), ([2], fetchedUpper)]

theorem farLeaf_chain :
    ∃ leaf chain executed, [farLeaf].head? = some leaf ∧ chain.head? = some leaf ∧
      executed ≤ aiaMaxDepth ∧
      (∀ cert ∈ chain, cert ∈ [farLeaf] ∨
        (verifierWith rootAnchors digitServer).Fetched farCodec [farLeaf] executed cert) ∧
      Verifier.Upheld farCodec (verifierWith rootAnchors digitServer) chain
        (validatedPath [farLeaf, fetchedIssuer, fetchedUpper] farLeaf 0 none) := by
  have verified : (verifierWith rootAnchors digitServer).verifyOne farCodec [farLeaf] =
      .ok (validatedPath [farLeaf, fetchedIssuer, fetchedUpper] farLeaf 0 none) := by
    decide +kernel
  exact Verifier.verifyOne_chain verified

end Concrete

end Pkix.Chain
