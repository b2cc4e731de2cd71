import Pkix.PathBuilder.BuildCompleteness

/-! What an error of the single-shot entry point tells about the pool. The probe behind a fruitless
search goes one certificate deeper, no further. -/

namespace Pkix.PathBuilder

open Pkix.Path PathCandidates

section Diagnosis

variable {der : BuilderCodec} {target : Certificate} {pool : List Certificate}
variable {anchors : List TrustAnchor} {config : PathBuilderConfig}

/-- A chain of any length from the target through the pool to the name of an anchor. -/
structure AnchoredChain (der : BuilderCodec) (target : Certificate) (pool : List Certificate)
    (anchors : List TrustAnchor) (differ : Certificate → Certificate → Prop)
    (certs : List Certificate) : Prop where
  fromPool : ∀ cert ∈ certs, cert ∈ pool
  valid : TopologicallyValid der differ (target :: certs)
  anchored : topIssuerIsAnchor anchors (target :: certs) = true

theorem AnchoredChain.coarser {differ other : Certificate → Certificate → Prop}
    {certs : List Certificate} (chain : AnchoredChain der target pool anchors differ certs)
    (implied : ∀ a b, differ a b → other a b) :
    AnchoredChain der target pool anchors other certs :=
  { chain with
    valid := { chain.valid with keysDiffer := chain.valid.keysDiffer.imp (implied _ _) } }

/-- Cut behind the first certificate that ends at an anchor, a chain is one the search yields. -/
theorem AnchoredChain.complete {certs : List Certificate}
    (chain : AnchoredChain der target pool anchors differentKeys certs)
    (short : certs.length ≤ config.maxDepth) :
    ∃ count, Complete der anchors config target (certs.take count) := by
  have ends : ∃ count, topIssuerIsAnchor anchors (target :: certs.take count) = true :=
    ⟨certs.length, by rw [List.take_length]; exact chain.anchored⟩
  refine ⟨Nat.find ends, ?_⟩
  have prefixed : target :: certs.take (Nat.find ends) =
      (target :: certs).take (Nat.find ends + 1) := rfl
  refine ⟨⟨fun cert listed => listed, ?_, ?_, ?_, ?_⟩, ?_, Nat.find_spec ends⟩
  · exact (List.length_take_le' _ _).trans short
  · rw [prefixed]
    exact chain.valid.linked.take _
  · rw [prefixed]
    exact chain.valid.keysDiffer.sublist (List.take_sublist _ _)
  · intro count within
    have earlier : count < Nat.find ends := within.trans_le (List.length_take_le _ _)
    have notYet := Nat.find_min ends earlier
    rw [List.take_take, Nat.min_eq_left (Nat.le_of_lt earlier)]
    exact Bool.eq_false_iff.mpr notYet
  · intro cert listed
    exact chain.valid.issuersAreCas cert (List.mem_of_mem_take listed)

/-- The plain search yields something exactly when some chain is within its depth. -/
theorem naivePaths_ne_nil_iff :
    naivePaths der target pool anchors config ≠ [] ↔
      ∃ certs, AnchoredChain der target pool anchors differentKeys certs ∧
        certs.length ≤ config.maxDepth := by
  constructor
  · intro yields
    rcases List.exists_mem_of_ne_nil _ yields with ⟨indices, listed⟩
    rcases complete_of_mem listed with ⟨certs, fromPool, complete⟩
    have valid : TopologicallyValid der differentKeys (target :: certs) :=
      ⟨complete.buildable.linked, complete.issuersAreCas, complete.buildable.keysDiffer⟩
    exact ⟨certs, ⟨fromPool, valid, complete.anchored⟩, complete.buildable.short⟩
  · intro ⟨certs, chain, short⟩
    rcases chain.complete short with ⟨count, complete⟩
    rcases complete.path (fun cert listed => chain.fromPool cert (List.mem_of_mem_take listed)) with
      ⟨indices, listed, _⟩
    exact List.ne_nil_of_mem listed

theorem new_next_ok {chain : List Certificate}
    (yielded : ((Search.new target pool anchors config).next der).1 = some (.ok chain)) :
    naivePaths der target pool anchors config ≠ [] := by
  have answered := Search.new_answered der target pool anchors config
  rw [yielded] at answered
  generalize naivePaths der target pool anchors config = paths at answered
  cases answered with
  | path => exact List.cons_ne_nil _ _

theorem new_next_none (spent : ((Search.new target pool anchors config).next der).1 = none) :
    naivePaths der target pool anchors config = [] := by
  have answered := Search.new_answered der target pool anchors config
  rw [spent] at answered
  generalize naivePaths der target pool anchors config = paths at answered
  cases answered with
  | exhausted => rfl

theorem new_next_error {failure : Error}
    (failed : ((Search.new target pool anchors config).next der).1 = some (.error failure)) :
    failure = .budgetExceeded := by
  have answered := Search.new_answered der target pool anchors config
  rw [failed] at answered
  generalize naivePaths der target pool anchors config = paths at answered
  cases answered with
  | overBudget => rfl

/-- The outcomes of a call within its budget, each with what the two searches saw. -/
inductive Built (der : BuilderCodec) (target : Certificate) (pool : List Certificate)
    (anchors : List TrustAnchor) (config : PathBuilderConfig) : Result (List Certificate) → Prop
  | found {chain : List Certificate} (some_ : naivePaths der target pool anchors config ≠ []) :
      Built der target pool anchors config (.ok chain)
  | deeper (none_ : naivePaths der target pool anchors config = [])
      (some_ : naivePaths der target pool anchors (probeConfig config) ≠ []) :
      Built der target pool anchors config (.error .depthExceeded)
  | nothing (none_ : naivePaths der target pool anchors config = [])
      (noneDeeper : naivePaths der target pool anchors (probeConfig config) = []) :
      Built der target pool anchors config (.error .noPathFound)

theorem buildPathWithConfig_built
    (within : buildPathWithConfig der target pool anchors config ≠ .error .budgetExceeded) :
    Built der target pool anchors config (buildPathWithConfig der target pool anchors config) := by
  unfold buildPathWithConfig at within ⊢
  cases first : ((Search.new target pool anchors config).next der).1 with
  | some answer =>
      cases answer with
      | ok chain => exact .found (new_next_ok first)
      | error failure =>
          rw [first, new_next_error first] at within
          exact absurd rfl within
  | none =>
      rw [first] at within
      unfold probe at within ⊢
      cases second : ((Search.new target pool anchors (probeConfig config)).next der).1 with
      | some answer =>
          cases answer with
          | ok chain => exact .deeper (new_next_none first) (new_next_ok second)
          | error failure =>
              rw [second, new_next_error second] at within
              exact absurd rfl within
      | none => exact .nothing (new_next_none first) (new_next_none second)

/-- What the two errors promise, for chains in which the keys differ in the sense given. -/
structure Diagnosed (der : BuilderCodec) (target : Certificate) (pool : List Certificate)
    (anchors : List TrustAnchor) (config : PathBuilderConfig)
    (differ : Certificate → Certificate → Prop) (result : Result (List Certificate)) : Prop where
  noPath : result = .error .noPathFound →
    ∀ certs, ¬ AnchoredChain der target pool anchors differ certs
  tooDeep : (∃ certs, AnchoredChain der target pool anchors differ certs) →
    (∀ certs, AnchoredChain der target pool anchors differ certs →
      config.maxDepth < certs.length) → result = .error .depthExceeded

/-- The errors of a call within its budget tell the truth exactly when the probe can see far
enough: a pool with a chain of any length has one of the probe's depth. -/
theorem buildPath_diagnosed_iff {differ : Certificate → Certificate → Prop}
    (implied : ∀ a b, differentKeys a b → differ a b) (sized : config.maxDepth ≤ usizeMax)
    (within : buildPathWithConfig der target pool anchors config ≠ .error .budgetExceeded) :
    Diagnosed der target pool anchors config differ
        (buildPathWithConfig der target pool anchors config) ↔
      ((∃ certs, AnchoredChain der target pool anchors differ certs) →
        ∃ certs, AnchoredChain der target pool anchors differentKeys certs ∧
          certs.length ≤ (probeConfig config).maxDepth) := by
  have built := buildPathWithConfig_built within
  rw [← naivePaths_ne_nil_iff]
  generalize buildPathWithConfig der target pool anchors config = result at built
  cases built with
  | found some_ =>
      rcases naivePaths_ne_nil_iff.mp some_ with ⟨certs, chain, short⟩
      have seen : naivePaths der target pool anchors (probeConfig config) ≠ [] :=
        naivePaths_ne_nil_iff.mpr
          ⟨certs, chain, short.trans (Nat.le_min.mpr ⟨Nat.le_succ _, sized⟩)⟩
      constructor
      · intro _ _
        exact seen
      · intro _
        refine ⟨nofun, fun _ deep => ?_⟩
        exact absurd short (Nat.not_le.mpr (deep certs (chain.coarser implied)))
  | deeper none_ some_ =>
      constructor
      · intro _ _
        exact some_
      · intro _
        exact ⟨nofun, fun _ _ => rfl⟩
  | nothing none_ noneDeeper =>
      constructor
      · intro diagnosed ⟨certs, chain⟩
        exact absurd chain (diagnosed.noPath rfl certs)
      · intro seen
        have noChain : ∀ certs, ¬ AnchoredChain der target pool anchors differ certs :=
          fun certs chain => seen ⟨certs, chain⟩ noneDeeper
        exact ⟨fun _ => noChain, fun ⟨certs, chain⟩ => absurd chain (noChain certs)⟩

end Diagnosis

namespace Concrete

open Pkix.Path.Concrete PathCandidates

def leafOnly : PathBuilderConfig := { maxDepth := 0, dfsBudget := defaultDfsBudget }

theorem crossedPool_diagnosed :
    Diagnosed caCodec leafCert crossedPool rootAnchors .new differentKeys
        (buildPathWithConfig caCodec leafCert crossedPool rootAnchors .new) ↔
      ((∃ certs, AnchoredChain caCodec leafCert crossedPool rootAnchors differentKeys certs) →
        ∃ certs, AnchoredChain caCodec leafCert crossedPool rootAnchors differentKeys certs ∧
          certs.length ≤ (probeConfig .new).maxDepth) :=
  buildPath_diagnosed_iff (fun _ _ differ => differ) (by decide) (by decide +kernel)

/-- Two issuers lead to the anchor where none is allowed, and the builder finds no path. -/
theorem crossedPool_noPathFound :
    AnchoredChain caCodec leafCert crossedPool rootAnchors differentKeys (crossedPool.take 2) ∧
    buildPathWithConfig caCodec leafCert crossedPool rootAnchors leafOnly =
      .error .noPathFound := by
  refine ⟨⟨by decide +kernel, ⟨by decide +kernel, by decide +kernel, by decide +kernel⟩,
    by decide +kernel⟩, by decide +kernel⟩

end Concrete

end Pkix.PathBuilder
