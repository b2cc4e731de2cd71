import Pkix.Path.ChainWalk

/-! The lint runner: certificate lints and path lints in their order, up to the first
fatal result. -/

namespace Pkix.Lint

open Pkix.Path

inductive Scope
  | certificate
  | path
  deriving DecidableEq, Repr

inductive SubjectKind
  | leaf
  | intermediateCa
  | anchorIssued
  | any
  deriving DecidableEq, Repr

def SubjectKind.matchesFilter (kind filter : SubjectKind) : Bool :=
  match filter with
  | .any => true
  | .intermediateCa => kind == .intermediateCa || kind == .anchorIssued
  | other => kind == other

inductive LintResult
  | pass
  | notApplicable
  | warn (detail : String)
  | error (detail : String)
  | fatal (detail : String)
  deriving DecidableEq, Repr

namespace LintResult

def isFinding : LintResult → Bool
  | .warn _ | .error _ | .fatal _ => true
  | .pass | .notApplicable => false

def isFatal : LintResult → Bool
  | .fatal _ => true
  | _ => false

end LintResult

/-- What the runner calls of a lint. -/
structure Lint where
  id : String
  citation : String
  scope : Scope
  appliesTo : SubjectKind
  checkCert : Certificate → SubjectKind → UInt64 → LintResult
  checkPath : List Certificate → ValidatedPath → UInt64 → LintResult

structure Finding where
  lintId : String
  citation : String
  ruleBundleVersion : String
  result : LintResult
  certIndex : Option Nat
  evaluatedAtUnix : UInt64
  certSha256 : Option Bytes
  deriving DecidableEq

structure LintRunner where
  lints : List Lint
  bundleVersion : String

namespace LintRunner

/-- The loop of both runs: lints of another scope leave no finding, and a fatal
result is the last. -/
def runLints (scope : Scope) (finding : Lint → Finding) : List Lint → List Finding
  | [] => []
  | lint :: rest =>
      if lint.scope ≠ scope then runLints scope finding rest
      else if (finding lint).result.isFatal then [finding lint]
      else finding lint :: runLints scope finding rest

variable (certSha256Of : Certificate → Option Bytes)

def runCert (runner : LintRunner) (cert : Certificate) (kind : SubjectKind) (certIndex : Nat)
    (nowUnix : UInt64) : List Finding :=
  runLints .certificate
    (fun lint =>
      { lintId := lint.id
        citation := lint.citation
        ruleBundleVersion := runner.bundleVersion
        result :=
          if kind.matchesFilter lint.appliesTo then lint.checkCert cert kind nowUnix else .notApplicable
        certIndex := some certIndex
        evaluatedAtUnix := nowUnix
        certSha256 := certSha256Of cert })
    runner.lints

def runChainFrom (runner : LintRunner) (nowUnix : UInt64) :
    Nat → List Certificate → List SubjectKind → List Finding
  | index, cert :: chain, kind :: kinds =>
      runner.runCert certSha256Of cert kind index nowUnix ++
        runChainFrom runner nowUnix (index + 1) chain kinds
  | _, _, _ => []

/-- `none` is the panic on lists of different lengths. -/
def runChain (runner : LintRunner) (chain : List Certificate) (kinds : List SubjectKind)
    (nowUnix : UInt64) : Option (List Finding) :=
  if kinds.length = chain.length then
    some (runner.runChainFrom certSha256Of nowUnix 0 chain kinds)
  else none

end LintRunner

theorem mem_runLints {scope : Scope} {finding : Lint → Finding} {lints : List Lint}
    {found : Finding} (present : found ∈ LintRunner.runLints scope finding lints) :
    ∃ lint ∈ lints, found = finding lint := by
  induction lints with
  | nil => simp [LintRunner.runLints] at present
  | cons lint rest ih =>
      rw [LintRunner.runLints] at present
      split at present
      · obtain ⟨source, inside, same⟩ := ih present
        exact ⟨source, List.mem_cons_of_mem _ inside, same⟩
      · split at present
        · exact ⟨lint, List.mem_cons_self, List.mem_singleton.mp present⟩
        · rcases List.mem_cons.mp present with here | later
          · exact ⟨lint, List.mem_cons_self, here⟩
          · obtain ⟨source, inside, same⟩ := ih later
            exact ⟨source, List.mem_cons_of_mem _ inside, same⟩

theorem certIndex_runCert {certSha256Of : Certificate → Option Bytes} {runner : LintRunner}
    {cert : Certificate} {kind : SubjectKind} {certIndex : Nat} {nowUnix : UInt64}
    {finding : Finding}
    (present : finding ∈ runner.runCert certSha256Of cert kind certIndex nowUnix) :
    finding.certIndex = some certIndex := by
  obtain ⟨lint, _, same⟩ := mem_runLints present
  rw [same]

end Pkix.Lint
