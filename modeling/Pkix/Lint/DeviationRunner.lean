import Pkix.Lint.Deviation
import Pkix.Lint.LintRunner

/-! The lint runner with deviations: every raw finding is reported once, deviated just when
a deviation in force covers it, and then by the one of highest priority. -/

namespace Pkix.Lint

open Pkix.Path StdText Selection

structure DeviatedFinding where
  lintId : String
  citation : String
  originalResult : LintResult
  deviationId : String
  action : DeviationAction
  justification : String
  evidenceUri : Option String
  certIndex : Option Nat
  evaluatedAtUnix : UInt64
  deriving DecidableEq

structure DeviationRunResult where
  findings : List Finding
  deviated : List DeviatedFinding
  deriving DecidableEq

structure DeviationRunner where
  runner : LintRunner
  store : DeviationStore

def makeDeviated (finding : Finding) (deviation : Deviation) : DeviatedFinding where
  lintId := finding.lintId
  citation := finding.citation
  originalResult := finding.result
  deviationId := deviation.id
  action := deviation.action
  justification := deviation.justification
  evidenceUri := deviation.evidenceUri
  certIndex := finding.certIndex
  evaluatedAtUnix := finding.evaluatedAtUnix

def DeviationRunResult.extend (result partialResult : DeviationRunResult) : DeviationRunResult :=
  ⟨result.findings ++ partialResult.findings, result.deviated ++ partialResult.deviated⟩

/-- The loop over raw findings, with the store's answer for a lint. -/
def partitionFindings (find : String → Option Deviation) : List Finding → DeviationRunResult
  | [] => ⟨[], []⟩
  | finding :: rest =>
      if finding.result.isFinding then
        match find finding.lintId with
        | none => DeviationRunResult.extend ⟨[finding], []⟩ (partitionFindings find rest)
        | some deviation =>
            DeviationRunResult.extend ⟨[], [makeDeviated finding deviation]⟩
              (partitionFindings find rest)
      else DeviationRunResult.extend ⟨[finding], []⟩ (partitionFindings find rest)

namespace DeviationRunner

variable (codec : NameCodec) (tables : UnicodeTables) (certSha256Of : Certificate → Option Bytes)

def applyDeviations (runner : DeviationRunner) (raw : List Finding) (cert : Certificate)
    (nowUnix : UInt64) : DeviationRunResult :=
  partitionFindings (fun lintId => runner.store.findDeviation codec tables lintId cert nowUnix) raw

def runCert (runner : DeviationRunner) (cert : Certificate) (kind : SubjectKind)
    (certIndex : Nat) (nowUnix : UInt64) : DeviationRunResult :=
  runner.applyDeviations codec tables
    (runner.runner.runCert certSha256Of cert kind certIndex nowUnix) cert nowUnix

def runChainFrom (runner : DeviationRunner) (nowUnix : UInt64) :
    Nat → List Certificate → List SubjectKind → DeviationRunResult
  | index, cert :: chain, kind :: kinds =>
      (runner.runCert codec tables certSha256Of cert kind index nowUnix).extend
        (runChainFrom runner nowUnix (index + 1) chain kinds)
  | _, _, _ => ⟨[], []⟩

/-- `none` is the panic on lists of different lengths. -/
def runChain (runner : DeviationRunner) (chain : List Certificate) (kinds : List SubjectKind)
    (nowUnix : UInt64) : Option DeviationRunResult :=
  if kinds.length = chain.length then
    some (runner.runChainFrom codec tables certSha256Of nowUnix 0 chain kinds)
  else none

end DeviationRunner

section Specification

variable (codec : NameCodec) (tables : UnicodeTables) (store : DeviationStore) (nowUnix : UInt64)

/-- A deviation covers a lint's finding about certificates: it targets the lint, is
active and has one of them in scope. -/
def Covers (certs : List Certificate) (lintId : String) (deviation : Deviation) : Prop :=
  deviation.targetLint = lintId ∧ deviation.isActiveAt nowUnix = true ∧
    ∃ cert ∈ certs, deviation.scope.matchesCert codec tables cert = true

/-- The covering deviation of highest priority, the first added among equals. -/
structure Chosen (certs : List Certificate) (lintId : String) (deviation : Deviation) : Prop where
  covers : Covers codec tables nowUnix certs lintId deviation
  placed : ∃ earlier later, store.deviations = earlier ++ deviation :: later ∧
    (∀ other ∈ earlier, Covers codec tables nowUnix certs lintId other →
      other.priority.toInt < deviation.priority.toInt) ∧
    ∀ other ∈ later, Covers codec tables nowUnix certs lintId other →
      other.priority.toInt ≤ deviation.priority.toInt

/-- A finding stays: it is not actionable, or no deviation of the store covers it. -/
def Stays (certs : Finding → List Certificate) (finding : Finding) : Prop :=
  finding.result.isFinding = true →
    ¬ ∃ deviation ∈ store.deviations,
      Covers codec tables nowUnix (certs finding) finding.lintId deviation

/-- An actionable finding is recorded under the deviation chosen for it. -/
def Recorded (certs : Finding → List Certificate) (finding : Finding)
    (record : DeviatedFinding) : Prop :=
  finding.result.isFinding = true ∧
    ∃ deviation ∈ store.deviations,
      Chosen codec tables store nowUnix (certs finding) finding.lintId deviation ∧
      record = makeDeviated finding deviation

end Specification

section Choice

variable {codec : NameCodec} {tables : UnicodeTables} {store : DeviationStore} {nowUnix : UInt64}
  {lintId : String} {certs : List Certificate}

theorem fits_iff_covers {deviation : Deviation} :
    (deviation.targetLint == lintId &&
        certs.any (fun cert => deviation.appliesTo codec tables cert nowUnix)) = true ↔
      Covers codec tables nowUnix certs lintId deviation := by
  simp only [Covers, Deviation.appliesTo, Bool.and_eq_true, beq_iff_eq, List.any_eq_true]
  constructor
  · intro fits
    obtain ⟨target, cert, inside, active, inScope⟩ := fits
    exact ⟨target, active, cert, inside, inScope⟩
  · intro covers
    obtain ⟨target, active, cert, inside, inScope⟩ := covers
    exact ⟨target, cert, inside, active, inScope⟩

/-- What the store's scan answers. -/
theorem findDeviationForChain_cases :
    (store.findDeviationForChain codec tables lintId certs nowUnix = none ∧
        ¬ ∃ deviation ∈ store.deviations, Covers codec tables nowUnix certs lintId deviation) ∨
      ∃ deviation ∈ store.deviations,
        store.findDeviationForChain codec tables lintId certs nowUnix = some deviation ∧
          Chosen codec tables store nowUnix certs lintId deviation := by
  rcases @scanBest_none _ _ _ (fun deviation : Deviation => deviation.priority.toInt)
    (fun deviation => deviation.targetLint == lintId &&
      certs.any (fun cert => deviation.appliesTo codec tables cert nowUnix)) store.deviations
    with ⟨nothing, unfit⟩ | ⟨deviation, found, fitting, above, below, split, lower, atMost⟩
  · refine .inl ⟨nothing, ?_⟩
    intro covered
    obtain ⟨deviation, inside, covers⟩ := covered
    have fits := fits_iff_covers.mpr covers
    rw [unfit deviation inside] at fits
    cases fits
  · refine .inr ⟨deviation, by rw [split]; simp, found, fits_iff_covers.mp fitting, above, below,
      split, ?_, ?_⟩
    · intro other inside covers
      exact lower other inside (fits_iff_covers.mpr covers)
    · intro other inside covers
      exact atMost other inside (fits_iff_covers.mpr covers)

/-- A finding either stays or is recorded, never both. -/
theorem stays_iff_not_recorded (certs : Finding → List Certificate) (finding : Finding) :
    Stays codec tables store nowUnix certs finding ↔
      ¬ ∃ record, Recorded codec tables store nowUnix certs finding record := by
  constructor
  · intro stays recorded
    obtain ⟨record, actionable, deviation, inside, chosen, _⟩ := recorded
    exact stays actionable ⟨deviation, inside, chosen.covers⟩
  · intro never actionable covered
    rcases @findDeviationForChain_cases codec tables store nowUnix finding.lintId (certs finding)
      with ⟨_, uncovered⟩ | ⟨deviation, inside, _, chosen⟩
    · exact uncovered covered
    · exact never ⟨_, actionable, deviation, inside, chosen, rfl⟩

end Choice

section Runs

variable {codec : NameCodec} {tables : UnicodeTables} {certSha256Of : Certificate → Option Bytes}

variable (runner : DeviationRunner)

end Runs

end Pkix.Lint
