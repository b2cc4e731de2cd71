import Pkix.Chain.PoolOrder
import Pkix.Lib.Growth

/-! With a fetcher that answers each URI the same way, the pool after a number of rounds is
the set of certificates those rounds can reach, and a chain within it is found. -/

namespace Pkix.Chain

open Pkix.Path Pkix.PathBuilder Growth

section Reach

variable {der : ChainCodec} {anchors : List TrustAnchor} {serve : Uri → Except AiaError Bytes}

/-- No certificate of the set and no anchor bears the issuer's name. -/
def Orphan (anchors : List TrustAnchor) (known : Set Certificate) (cert : Certificate) : Prop :=
  (∀ other ∈ known,
    namesMatch other.tbsCertificate.subject cert.tbsCertificate.issuer = false) ∧
  ∀ anchor ∈ anchors, namesMatch anchor.subject cert.tbsCertificate.issuer = false

/-- The answer for the URI parses as this certificate. -/
def Serves (der : ChainCodec) (serve : Uri → Except AiaError Bytes) (uri : Uri)
    (cert : Certificate) : Prop :=
  ∃ bytes, serve uri = .ok bytes ∧ der.certificate bytes = .ok cert

/-- What the caIssuers URIs of the orphans of a set lead to. -/
def orphanIssuers (der : ChainCodec) (anchors : List TrustAnchor)
    (serve : Uri → Except AiaError Bytes) (known : Set Certificate) : Set Certificate :=
  { cert | ∃ orphan ∈ known, Orphan anchors known orphan ∧
      ∃ uri ∈ caIssuersHttpUris der orphan, Serves der serve uri cert }

/-- The supplied certificates and those reached within a number of rounds. -/
def reached (der : ChainCodec) (anchors : List TrustAnchor)
    (serve : Uri → Except AiaError Bytes) (supplied : List Certificate) (round : Nat) :
    Set Certificate :=
  grown (orphanIssuers der anchors serve) { cert | cert ∈ supplied } round

theorem issuerResolvable_eq_false_iff {cert : Certificate} {pool : List Certificate} :
    issuerResolvable cert pool anchors = false ↔
      Orphan anchors { other | other ∈ pool } cert := by
  simp [issuerResolvable, Orphan]

theorem mem_insertNew_fst {tried uris : List Uri} {uri : Uri} :
    uri ∈ (insertNew tried uris).1 ↔ uri ∈ tried ∨ uri ∈ uris := by
  induction uris generalizing tried with
  | nil => simp [insertNew]
  | cons first rest ih =>
      unfold insertNew
      split
      · next known =>
          rw [ih]
          have listed : first ∈ tried := by simpa using known
          grind
      · rw [ih]
        grind

theorem mem_insertNew_snd {tried uris : List Uri} {uri : Uri} :
    uri ∈ (insertNew tried uris).2 ↔ uri ∈ uris ∧ uri ∉ tried := by
  induction uris generalizing tried with
  | nil => simp [insertNew]
  | cons first rest ih =>
      unfold insertNew
      split
      · next known =>
          rw [ih]
          have listed : first ∈ tried := by simpa using known
          grind
      · next unknown =>
          have unlisted : first ∉ tried := by simpa using unknown
          rw [List.mem_cons, ih]
          grind

end Reach

namespace Verifier

section Absorb

variable {der : ChainCodec}

theorem absorb_triedUris {results : List (Except AiaError Bytes)} {addedAny : Bool}
    {state : Reassembly} :
    (absorb der results addedAny state).2.triedUris = state.triedUris := by
  induction results generalizing addedAny state with
  | nil => rfl
  | cons result results ih =>
      cases result with
      | error failure => exact ih
      | ok bytes =>
          unfold absorb
          cases der.certificate bytes with
          | error failure => exact ih
          | ok added => exact ih

theorem absorb_unadded {results : List (Except AiaError Bytes)} {addedAny : Bool}
    {state : Reassembly} (unadded : (absorb der results addedAny state).1 = false) :
    addedAny = false ∧
      ∀ bytes, .ok bytes ∈ results → ∀ cert, der.certificate bytes ≠ .ok cert := by
  induction results generalizing addedAny state with
  | nil => exact ⟨unadded, by simp⟩
  | cons result results ih =>
      cases result with
      | error failure => simpa using ih unadded
      | ok bytes =>
          unfold absorb at unadded
          cases parsed : der.certificate bytes with
          | ok added =>
              rw [parsed] at unadded
              exact absurd (ih unadded).1 (by simp)
          | error failure =>
              rw [parsed] at unadded
              rcases ih unadded with ⟨unset, unparsed⟩
              refine ⟨unset, ?_⟩
              intro other listed cert
              rcases List.mem_cons.mp listed with same | later
              · cases same
                simp [parsed]
              · exact unparsed other later cert

end Absorb

section Rounds

variable {der : ChainCodec} {self : Verifier} {serve : Uri → Except AiaError Bytes}
variable {leaf : Certificate} {supplied : List Certificate} {round : Nat}

/-- The state after a number of rounds holds what they reach, and what was answered for a
URI tried is in its pool. -/
structure Mirrors (der : ChainCodec) (verifier : Verifier) (serve : Uri → Except AiaError Bytes)
    (supplied : List Certificate) (round : Nat) (state : Reassembly) : Prop where
  pool : ∀ cert, cert ∈ state.pool ↔ cert ∈ reached der verifier.anchors serve supplied round
  tried : ∀ uri ∈ state.triedUris, ∀ cert, Serves der serve uri cert → cert ∈ state.pool

theorem mem_unresolvedUris_iff {pool : List Certificate} {uri : Uri} :
    uri ∈ self.unresolvedUris der pool ↔
      ∃ orphan ∈ pool, Orphan self.anchors { other | other ∈ pool } orphan ∧
        uri ∈ caIssuersHttpUris der orphan := by
  simp [unresolvedUris, issuerResolvable_eq_false_iff, and_assoc]

/-- What the round can add: the certificates served at a URI not tried before. -/
theorem mem_fetchRound_iff (honest : self.aia = fun _ uris => uris.map serve)
    {iteration : Nat} {state : Reassembly} {newUris triedUris : List Uri} {cert : Certificate} :
    cert ∈ (self.fetchRound der iteration state newUris triedUris).2.pool ↔
      cert ∈ state.pool ∨ ∃ uri ∈ newUris, Serves der serve uri cert := by
  have answers : (newUris.zip (self.aia iteration newUris)).map (·.2) = newUris.map serve := by
    rw [honest]
    exact List.map_snd_zip (by simp)
  unfold fetchRound
  rw [answers, mem_absorb_iff]
  simp only [List.mem_map, Serves]
  grind

theorem fetchRound_asked {iteration : Nat} {state : Reassembly} {newUris triedUris : List Uri}
    (added : (self.fetchRound der iteration state newUris triedUris).1 = true) :
    newUris.isEmpty = false := by
  cases newUris with
  | nil => cases added
  | cons uri uris => rfl

theorem Mirrors.offered {state : Reassembly}
    (mirrors : Mirrors der self serve supplied round state) {cert : Certificate} :
    cert ∈ orphanIssuers der self.anchors serve (reached der self.anchors serve supplied round) ↔
      ∃ uri ∈ self.unresolvedUris der state.pool, Serves der serve uri cert := by
  have samePool : reached der self.anchors serve supplied round =
      { other | other ∈ state.pool } := Set.ext (fun other => (mirrors.pool other).symm)
  rw [samePool]
  simp only [mem_unresolvedUris_iff]
  constructor
  · intro ⟨orphan, known, alone, uri, listed, served⟩
    exact ⟨uri, ⟨orphan, known, alone, listed⟩, served⟩
  · intro ⟨uri, ⟨orphan, known, alone, listed⟩, served⟩
    exact ⟨orphan, known, alone, uri, listed, served⟩

/-- What the orphans lead to is in the pool already or is requested now. -/
theorem Mirrors.requested {state : Reassembly}
    (mirrors : Mirrors der self serve supplied round state) {cert : Certificate}
    (offered : cert ∈ orphanIssuers der self.anchors serve
      (reached der self.anchors serve supplied round)) :
    cert ∈ state.pool ∨ ∃ uri ∈ (self.requested der state).2, Serves der serve uri cert := by
  rcases mirrors.offered.mp offered with ⟨uri, listed, served⟩
  cases known : decide (uri ∈ state.triedUris) with
  | true => exact .inl (mirrors.tried uri (of_decide_eq_true known) cert served)
  | false =>
      exact .inr ⟨uri, mem_insertNew_snd.mpr ⟨listed, of_decide_eq_false known⟩, served⟩

theorem mirrors_start : Mirrors der self serve supplied 0 (start supplied) :=
  ⟨fun _ => Iff.rfl, fun _ listed => nomatch listed⟩

theorem Mirrors.fetched {state : Reassembly} (honest : self.aia = fun _ uris => uris.map serve)
    (mirrors : Mirrors der self serve supplied round state) :
    Mirrors der self serve supplied (round + 1)
      (self.fetchRound der round state (self.requested der state).2
        (self.requested der state).1).2 := by
  have grows : ∀ cert, cert ∈ reached der self.anchors serve supplied (round + 1) ↔
      cert ∈ state.pool ∨ ∃ uri ∈ (self.requested der state).2, Serves der serve uri cert := by
    intro cert
    show cert ∈ reached der self.anchors serve supplied round ∪ orphanIssuers der self.anchors
      serve (reached der self.anchors serve supplied round) ↔ _
    rw [Set.mem_union, ← mirrors.pool cert]
    constructor
    · intro member
      rcases member with old | offered
      · exact .inl old
      · exact mirrors.requested offered
    · intro member
      rcases member with old | ⟨uri, new, served⟩
      · exact .inl old
      · exact .inr (mirrors.offered.mpr ⟨uri, (mem_insertNew_snd.mp new).1, served⟩)
  constructor
  · intro cert
    rw [mem_fetchRound_iff honest, grows]
  · intro uri listed cert served
    rw [mem_fetchRound_iff honest]
    unfold fetchRound at listed
    rw [absorb_triedUris] at listed
    cases known : decide (uri ∈ state.triedUris) with
    | true => exact .inl (mirrors.tried uri (of_decide_eq_true known) cert served)
    | false =>
        have fresh := of_decide_eq_false known
        rcases mem_insertNew_fst.mp listed with old | now
        · exact absurd old fresh
        · exact .inr ⟨uri, mem_insertNew_snd.mpr ⟨now, fresh⟩, served⟩

theorem mirrors_roundState (honest : self.aia = fun _ uris => uris.map serve) (round : Nat) :
    Mirrors der self serve supplied round (self.roundState der supplied round) := by
  induction round with
  | zero => exact mirrors_start
  | succ round ih => exact ih.fetched honest

/-- A round that requests nothing, or whose answers do not parse, leaves nothing to reach. -/
theorem Mirrors.closed {state : Reassembly} (honest : self.aia = fun _ uris => uris.map serve)
    (mirrors : Mirrors der self serve supplied round state)
    (unadded : (self.fetchRound der round state (self.requested der state).2
      (self.requested der state).1).1 = false) :
    orphanIssuers der self.anchors serve (reached der self.anchors serve supplied round) ⊆
      reached der self.anchors serve supplied round := by
  intro cert offered
  rw [← mirrors.pool cert]
  rcases mirrors.requested offered with old | ⟨uri, new, bytes, answered, parsed⟩
  · exact old
  · unfold fetchRound at unadded
    rw [honest] at unadded
    have served : .ok bytes ∈ (((self.requested der state).2.zip
        ((self.requested der state).2.map serve)).map (·.2)) := by
      rw [List.map_snd_zip (by simp), List.mem_map]
      exact ⟨uri, new, answered⟩
    exact absurd parsed ((absorb_unadded unadded).2 bytes served cert)

/-- Some chain within what the round reaches would be yielded by a search one deeper. -/
def ReachesComplete (der : ChainCodec) (verifier : Verifier)
    (serve : Uri → Except AiaError Bytes) (leaf : Certificate) (supplied : List Certificate)
    (round : Nat) : Prop :=
  ∃ certs, (∀ cert ∈ certs, cert ∈ reached der verifier.anchors serve supplied round) ∧
    Complete der.toBuilderCodec verifier.anchors (probeConfig .new) leaf certs

/-- Some chain within what the round reaches can be searched and validates. -/
def ReachesValid (der : ChainCodec) (verifier : Verifier)
    (serve : Uri → Except AiaError Bytes) (leaf : Certificate) (supplied : List Certificate)
    (round : Nat) : Prop :=
  ∃ certs path, (∀ cert ∈ certs, cert ∈ reached der verifier.anchors serve supplied round) ∧
    Buildable certs verifier.anchors .new leaf certs ∧
    verifier.validate der (leaf :: certs) = .ok path

theorem Mirrors.built {state : Reassembly}
    (mirrors : Mirrors der self serve supplied round state)
    (valid : ReachesValid der self serve leaf supplied round)
    (withinBudget : self.attempt der leaf state.pool ≠ .error .budgetExceeded) :
    ∃ built, self.attempt der leaf state.pool = .ok built := by
  rcases valid with ⟨certs, path, within, buildable, accepted⟩
  have pooled := buildable.mono (fun cert listed => (mirrors.pool cert).mpr (within cert listed))
  exact (pooled.found accepted).resolve_right withinBudget

/-- An attempt that fails with its budget left has found no path, unless one is reached that
does not validate. -/
theorem Mirrors.unbuilt {state : Reassembly} {failure : PathBuilder.Error}
    (mirrors : Mirrors der self serve supplied round state)
    (undecided : ReachesComplete der self serve leaf supplied round →
      ReachesValid der self serve leaf supplied round)
    (withinBudget : self.attempt der leaf state.pool ≠ .error .budgetExceeded)
    (failed : self.attempt der leaf state.pool = .error failure) :
    failure = .noPathFound ∧ ¬ReachesValid der self serve leaf supplied round := by
  have unreached : ¬ReachesValid der self serve leaf supplied round := by
    intro valid
    rcases mirrors.built valid withinBudget with ⟨built, found⟩
    rw [failed] at found
    cases found
  refine ⟨?_, unreached⟩
  rcases buildFirstValidPath_error (by decide) failed with spent | noPath | ⟨certs, listed, complete⟩
  · subst spent
    exact absurd failed withinBudget
  · exact noPath
  · exact absurd (undecided ⟨certs, fun cert member =>
      (mirrors.pool cert).mp (listed cert member), complete⟩) unreached

theorem ReachesValid.of_closed {later : Nat}
    (valid : ReachesValid der self serve leaf supplied later) (after : round ≤ later)
    (closed : orphanIssuers der self.anchors serve (reached der self.anchors serve supplied round) ⊆
      reached der self.anchors serve supplied round) :
    ReachesValid der self serve leaf supplied round := by
  rcases valid with ⟨certs, path, within, buildable, accepted⟩
  have same : reached der self.anchors serve supplied later =
      reached der self.anchors serve supplied round := grown_stable closed after
  rw [same] at within
  exact ⟨certs, path, within, buildable, accepted⟩

/-- The rounds find a chain at the latest in the round that reaches one. -/
theorem rounds_reach (honest : self.aia = fun _ uris => uris.map serve)
    {left iteration executed : Nat} (before : iteration ≤ executed)
    (within : executed ≤ iteration + left)
    (valid : ReachesValid der self serve leaf supplied executed)
    (undecided : ∀ earlier < executed, ReachesComplete der self serve leaf supplied earlier →
      ReachesValid der self serve leaf supplied earlier)
    (withinBudget : ∀ round ≤ executed,
      self.attempt der leaf (self.roundState der supplied round).pool ≠ .error .budgetExceeded) :
    ∃ built used, used ≤ executed ∧
      self.rounds der leaf left iteration (self.roundState der supplied iteration) = .ok built ∧
      self.attempt der leaf (self.roundState der supplied used).pool = .ok built := by
  induction left generalizing iteration with
  | zero =>
      have last : executed = iteration := by omega
      subst last
      rcases (mirrors_roundState honest executed).built valid (withinBudget executed before) with
        ⟨built, found⟩
      exact ⟨built, executed, Nat.le_refl _, rounds_built 0 executed found, found⟩
  | succ left ih =>
      have mirrors : Mirrors der self serve supplied iteration
          (self.roundState der supplied iteration) := mirrors_roundState honest iteration
      cases attempted : self.attempt der leaf (self.roundState der supplied iteration).pool with
      | ok built =>
          exact ⟨built, iteration, before, rounds_built _ iteration attempted, attempted⟩
      | error failure =>
          have settled : ReachesComplete der self serve leaf supplied iteration →
              ReachesValid der self serve leaf supplied iteration := by
            intro complete
            rcases Nat.eq_or_lt_of_le before with now | earlier
            · rw [now]
              exact valid
            · exact undecided iteration earlier complete
          rcases mirrors.unbuilt settled (withinBudget iteration before) attempted with
            ⟨noPath, unreached⟩
          subst noPath
          have earlier : iteration < executed := by
            rcases Nat.eq_or_lt_of_le before with now | earlier
            · subst now
              exact absurd valid unreached
            · exact earlier
          cases added : (self.fetchRound der iteration (self.roundState der supplied iteration)
              (self.requested der (self.roundState der supplied iteration)).2
              (self.requested der (self.roundState der supplied iteration)).1).1 with
          | false =>
              exact absurd (valid.of_closed before (mirrors.closed honest added)) unreached
          | true =>
              rcases ih earlier (by omega) with ⟨built, used, inTime, finished, found⟩
              refine ⟨built, used, inTime, ?_, found⟩
              have asked : (self.requested der (self.roundState der supplied iteration)).2.isEmpty =
                  false := fetchRound_asked added
              unfold rounds
              simp only [attempted]
              unfold requested at asked added
              rw [if_neg (by simp [asked]), if_pos added]
              exact finished

theorem mem_reached_of_supplied {cert : Certificate} (listed : cert ∈ supplied) (round : Nat) :
    cert ∈ reached der self.anchors serve supplied round :=
  grown_subset (Nat.zero_le round) listed

/-- A chain that validates within what the rounds reach makes the verification succeed, when
no earlier round reaches only complete chains that do not validate. -/
theorem verifyOne_reaches {executed : Nat} (honest : self.aia = fun _ uris => uris.map serve)
    (first : supplied.head? = some leaf) (within : executed ≤ aiaMaxDepth)
    (valid : ReachesValid der self serve leaf supplied executed)
    (recoverable : ∀ failure, self.validate der supplied = .error failure →
      isAiaRecoverable failure = true)
    (undecided : ∀ earlier < executed, ReachesComplete der self serve leaf supplied earlier →
      ReachesValid der self serve leaf supplied earlier)
    (withinBudget : ∀ round ≤ executed,
      self.attempt der leaf (self.roundState der supplied round).pool ≠ .error .budgetExceeded)
    (unrevoked : ∀ chain validated anchor, chain.head? = some leaf →
      (∀ cert ∈ chain, cert ∈ reached der self.anchors serve supplied executed) →
      self.validate der chain = .ok validated →
      self.anchors[validated.anchorIndex]? = some anchor →
      RevocationChecked self.revChecker anchor chain) :
    ∃ validated, self.verifyOne der supplied = .ok validated := by
  have passes : ∀ chain validated (accepted : self.validate der chain = .ok validated),
      chain.head? = some leaf →
      (∀ cert ∈ chain, cert ∈ reached der self.anchors serve supplied executed) →
      self.checked der chain validated accepted = .ok validated := by
    intro chain validated accepted head members
    have selected := List.getElem?_eq_getElem (anchorIndex_lt accepted)
    exact (checked_ok_iff accepted).mpr ⟨rfl, accepted, _, selected,
      unrevoked chain validated _ head members accepted selected⟩
  cases direct : self.validate der supplied with
  | ok validated =>
      refine ⟨validated, ?_⟩
      rw [verifyOne_direct direct]
      exact passes supplied validated direct first
        (fun cert listed => mem_reached_of_supplied listed executed)
  | error failure =>
      have inRounds : executed ≤ 0 + aiaMaxDepth := by omega
      rcases rounds_reach honest (Nat.zero_le executed) inRounds valid undecided withinBudget with
        ⟨built, used, inTime, finished, found⟩
      have reassembled : self.buildWithAia der supplied = .ok built := by
        rw [buildWithAia_first first]
        exact finished
      rcases (attempt_ok found).1 with ⟨validated, accepted⟩
      have drawn := attempt_drawnFrom found
      refine ⟨validated, ?_⟩
      rw [verifyOne_rebuilt direct (recoverable failure direct) reassembled accepted]
      apply passes built validated accepted drawn.first
      intro cert listed
      rcases drawn.members cert listed with isLeaf | pooled
      · rw [isLeaf]
        exact mem_reached_of_supplied (List.mem_of_mem_head? first) executed
      · exact grown_subset inTime (((mirrors_roundState honest used).pool cert).mp pooled)

end Rounds

end Verifier

namespace Concrete

open Pkix.Path.Concrete Pkix.PathBuilder.Concrete Verifier

/-- The answer of the server for one URI. -/
def digitAnswer (uri : Uri) : Except AiaError Bytes := .ok [uri.getLast?.getD 0 - 48]

theorem farLeaf_reached :
    ∃ validated, (verifierWith rootAnchors digitServer).verifyOne farCodec [farLeaf] =
      .ok validated := by
  have honest : (verifierWith rootAnchors digitServer).aia = fun _ uris => uris.map digitAnswer :=
    rfl
  have mirrors : ∀ round, Mirrors farCodec (verifierWith rootAnchors digitServer) digitAnswer
      [farLeaf] round ((verifierWith rootAnchors digitServer).roundState farCodec [farLeaf] round) :=
    mirrors_roundState honest
  have accepted : (verifierWith rootAnchors digitServer).validate farCodec
      (farLeaf :: [fetchedIssuer, fetchedUpper]) =
        .ok (validatedPath [farLeaf, fetchedIssuer, fetchedUpper] farLeaf 0 none) := by
    decide +kernel
  have buildable : Buildable [fetchedIssuer, fetchedUpper] rootAnchors .new farLeaf
      [fetchedIssuer, fetchedUpper] :=
    ⟨by decide, by decide, by decide +kernel, by decide +kernel, by decide +kernel⟩
  have pooled : ∀ cert ∈ [fetchedIssuer, fetchedUpper],
      cert ∈ ((verifierWith rootAnchors digitServer).roundState farCodec [farLeaf] 2).pool := by
    decide +kernel
  have pathless : ∀ round < 2, naivePaths farCodec.toBuilderCodec farLeaf
      ((verifierWith rootAnchors digitServer).roundState farCodec [farLeaf] round).pool rootAnchors
      (probeConfig .new) = [] := by
    decide +kernel
  have undecided : ∀ earlier < 2,
      ReachesComplete farCodec (verifierWith rootAnchors digitServer) digitAnswer farLeaf [farLeaf]
        earlier →
      ReachesValid farCodec (verifierWith rootAnchors digitServer) digitAnswer farLeaf [farLeaf]
        earlier := by
    intro earlier before ⟨certs, listed, complete⟩
    rcases complete.path (fun cert member => ((mirrors earlier).pool cert).mpr (listed cert member))
      with ⟨indices, found, _⟩
    have none_ := pathless earlier before
    change indices ∈ naivePaths farCodec.toBuilderCodec farLeaf _ rootAnchors _ at found
    rw [none_] at found
    cases found
  have recoverable : ∀ failure,
      (verifierWith rootAnchors digitServer).validate farCodec [farLeaf] = .error failure →
      isAiaRecoverable failure = true := by
    intro failure failed
    have direct : (verifierWith rootAnchors digitServer).validate farCodec [farLeaf] =
        .error .noTrustedPath := by decide +kernel
    cases failed.symm.trans direct
    rfl
  exact verifyOne_reaches honest rfl (by decide)
    ⟨_, _, fun cert listed => ((mirrors 2).pool cert).mp (pooled cert listed), buildable, accepted⟩
    recoverable undecided (by decide +kernel)
    (fun _ _ _ _ _ _ _ => ⟨fun _ _ _ _ _ => rfl, fun _ _ => rfl⟩)

/-- An issuer under the name and the key of the one to fetch that is no longer valid. -/
def lapsedIssuer : Certificate :=
  let issued := issue 6 (commonName [65]) (commonName [66]) [1] [4] [caExtension]
  { issued with tbsCertificate := { issued.tbsCertificate with
      validity := ⟨.utcTime newYear2025, .utcTime newYear2025⟩ } }

/-- An issuer under the name of the one to fetch and another key. -/
def namesakeIssuer : Certificate :=
  issue 5 (commonName [65]) (commonName [66]) [1] [6] [caExtension]

/-- The chain that the server completes validates, and with another certificate supplied
beside the leaf nothing is fetched. -/
theorem farLeaf_notFetched :
    caIssuersHttpUris farCodec farLeaf = [uriOf 1] ∧
      Serves farCodec digitAnswer (uriOf 1) fetchedIssuer ∧
      caIssuersHttpUris farCodec fetchedIssuer = [uriOf 2] ∧
      Serves farCodec digitAnswer (uriOf 2) fetchedUpper ∧
      ((verifierWith rootAnchors digitServer).validate farCodec
        [farLeaf, fetchedIssuer, fetchedUpper]).isOk = true ∧
      (verifierWith rootAnchors digitServer).verifyOne farCodec [farLeaf, lapsedIssuer] =
        .error (.path (.validityPeriod 1)) ∧
      (verifierWith rootAnchors digitServer).verifyOne farCodec [farLeaf, namesakeIssuer] =
        .error (.path (.signatureInvalid 0)) := by
  refine ⟨by decide, ⟨[1], by decide, by decide +kernel⟩, by decide, ⟨[2], by decide, by decide +kernel⟩,
    by decide +kernel, by decide +kernel, by decide +kernel⟩

end Concrete

end Pkix.Chain
