import Pkix.Lib.Framing
import Pkix.Lint.DeviationRunner
import Pkix.Lint.EmittedTimes
import Pkix.Lint.OscalRisks

/-! Evaluation reports as OSCAL assessment results: the evidence as observations, the findings
that refer to them, and the risks of the deviated findings. -/

namespace Pkix.Lint

open Pkix.Path Framing Octets Selection

/-- Counts and indices are 64-bit words, and a digest has 32 octets. -/
structure EvaluationReport where
  profileId : String
  profileVersion : String
  ruleBundleVersion : String
  chainLength : UInt64
  evaluatedAtUnix : UInt64
  findings : List Finding
  deviatedFindings : List DeviatedFinding
  digests : ∀ finding ∈ findings, ∀ digest ∈ finding.certSha256, digest.length = 32
  indices : ∀ finding ∈ findings, ∀ index ∈ finding.certIndex, index < 256 ^ 8
  fewFindings : findings.length ≤ 256 ^ 8
  fewDeviated : deviatedFindings.length ≤ 256 ^ 8

structure AssessmentResultsOptions where
  importApHref : String

def AssessmentResultsOptions.default : AssessmentResultsOptions where
  importApHref := "#assessment-plan-placeholder"

def nsReport : String := "pkix-lint.oscal.report"
def nsResult : String := "pkix-lint.oscal.result"
def nsObservation : String := "pkix-lint.oscal.observation"
def nsFinding : String := "pkix-lint.oscal.finding"
def nsRisk : String := "pkix-lint.oscal.risk"

def reportTitle : String := "pkix-lint Assessment Results"
def cargoPkgVersion : String := "0.9.1"
def oscalVersion : String := "1.1.2"

section Labels

def lintResultSeverityLabel : LintResult → String
  | .pass => "pass"
  | .notApplicable => "not-applicable"
  | .warn _ => "warn"
  | .error _ => "error"
  | .fatal _ => "fatal"

def resultDetail : LintResult → Option String
  | .warn detail | .error detail | .fatal detail => some detail
  | .pass | .notApplicable => none

def deviationActionLabel : DeviationAction → String
  | .suppress => "suppress"
  | .downgradeSeverityTo _ => "downgrade"

end Labels

section Seeds

def reportSeed (report : EvaluationReport) : Bytes :=
  asBytes report.profileId ++ 0 :: asBytes report.profileVersion ++
    0 :: asBytes report.ruleBundleVersion ++ 0 :: toLittleEndian 8 report.chainLength.toNat ++
    toLittleEndian 8 report.evaluatedAtUnix.toNat

def findingSeed (reportSeed : Bytes) (index : Nat) (finding : Finding) : Bytes :=
  reportSeed ++ (toLittleEndian 8 index ++ (asBytes finding.lintId ++
    0 :: (asBytes (lintResultSeverityLabel finding.result)).take 1 ++
    ((resultDetail finding.result).map asBytes).getD [] ++
    (finding.certIndex.map (toLittleEndian 8)).getD [] ++ finding.certSha256.getD []))

def riskSeed (reportSeed : Bytes) (index : Nat) (deviated : DeviatedFinding) : Bytes :=
  reportSeed ++ (toLittleEndian 8 index ++ (asBytes deviated.lintId ++
    0 :: asBytes deviated.deviationId ++ 0 :: asBytes (deviationActionLabel deviated.action)))

def subjectSeed (reportSeed : Bytes) (certIndex : Nat) : Bytes :=
  reportSeed ++ toLittleEndian 8 certIndex

/-- Which certificate the evidence is about. -/
structure EvidenceKey where
  certSha256 : Option Bytes
  certIndex : Option Nat
  deriving DecidableEq

def EvidenceKey.fromFinding (finding : Finding) : EvidenceKey :=
  ⟨finding.certSha256, finding.certIndex⟩

def EvidenceKey.seed (key : EvidenceKey) (reportSeed : Bytes) : Bytes :=
  reportSeed ++ (writeOptional key.certSha256 ++
    writeOptional (key.certIndex.map (toLittleEndian 8)))

structure EvidenceIndex where
  keys : List EvidenceKey

def EvidenceIndex.build (findings : List Finding) : EvidenceIndex where
  keys := findings.foldl (fun keys finding => pushNew keys (.fromFinding finding)) []

end Seeds

section Emit

variable (sha256 : Bytes → { octets : Bytes // octets.length = 32 })

/-- Shared by an observation and by the findings that refer to it. -/
def EvidenceKey.observationUuid (key : EvidenceKey) (reportSeed : Bytes) : String :=
  uuidV8 sha256 nsObservation (key.seed reportSeed)

def observationDescription (key : EvidenceKey) : String :=
  match key.certIndex, key.certSha256 with
  | some index, some _ =>
      "Certificate at chain index " ++ index.repr ++ " (identified by SHA-256 digest)"
  | some index, none => "Certificate at chain index " ++ index.repr
  | none, some _ => "Certificate identified by SHA-256 digest"
  | none, none => "Path-scope evidence: the validated certificate chain as a whole"

def observationForEvidence (key : EvidenceKey) (reportSeed : Bytes) (collected : String) : Value :=
  .object ([("uuid", .string (key.observationUuid sha256 reportSeed)),
    ("methods", .array [.string "EXAMINE"]),
    ("collected", .string collected),
    ("description", .string (observationDescription key)),
    ("props", .array
      ((key.certSha256.map fun hash => prop "pkix-lint.cert-sha256" (hex hash)).toList ++
        (key.certIndex.map fun index => prop "pkix-lint.cert-index" index.repr).toList))] ++
    (key.certIndex.map fun index =>
      ("subjects", Value.array [.object [("type", .string "component"),
        ("subject-uuid", .string
          (uuidV8 sha256 "pkix-lint.oscal.subject.cert" (subjectSeed reportSeed index))),
        ("title", .string ("Certificate at chain index " ++ index.repr))]])).toList)

def findingFor (finding : Finding) (reportSeed : Bytes) (index : Nat) (observationUuid : String) :
    Value :=
  .object [("uuid", .string (uuidV8 sha256 nsFinding (findingSeed reportSeed index finding))),
    ("title", .string finding.lintId),
    ("description", .string ("Evaluation of lint \x60" ++ finding.lintId ++ "\x60 (" ++
      finding.citation ++ ")" ++ ((resultDetail finding.result).map (": " ++ ·)).getD "")),
    ("target", .object [("type", .string "objective-id"), ("target-id", .string finding.lintId),
      ("status", .object [("state", .string
        (if finding.result.isFinding then "not-satisfied" else "satisfied"))])]),
    ("props", .array [prop "pkix-lint.lint-id" finding.lintId,
      prop "pkix-lint.citation" finding.citation,
      prop "pkix-lint.severity" (lintResultSeverityLabel finding.result)]),
    ("related-observations", .array [.object [("observation-uuid", .string observationUuid)]])]

def riskFor (deviated : DeviatedFinding) (reportSeed : Bytes) (index : Nat) : Value :=
  .object ([("uuid", .string (uuidV8 sha256 nsRisk (riskSeed reportSeed index deviated))),
    ("title", .string ("Deviation " ++ deviated.deviationId ++ " applied to " ++ deviated.lintId)),
    ("description", .string deviated.justification),
    ("statement", .string ((resultDetail deviated.originalResult).getD "Original lint result")),
    ("status", .string "deviation-approved"),
    ("props", .array [prop "pkix-lint.lint-id" deviated.lintId,
      prop "pkix-lint.citation" deviated.citation,
      prop "pkix-lint.deviation-id" deviated.deviationId,
      prop "pkix-lint.deviation-action" (deviationActionLabel deviated.action)])] ++
    (deviated.evidenceUri.map fun uri =>
      ("links", Value.array [.object [("href", .string uri), ("rel", .string "reference"),
        ("text", .string "Deviation evidence")]])).toList)

def metadataProps (report : EvaluationReport) : List Value :=
  (if report.profileId.isEmpty then [] else [prop "pkix-lint.profile-id" report.profileId]) ++
  (if report.profileVersion.isEmpty then []
    else [prop "pkix-lint.profile-version" report.profileVersion]) ++
  (if report.ruleBundleVersion.isEmpty then []
    else [prop "pkix-lint.rule-bundle-version" report.ruleBundleVersion]) ++
  [prop "pkix-lint.chain-length" (StdText.u64ToString report.chainLength)]

/-- A list is left out where it is empty. -/
def optionalArray (key : String) (items : List Value) : List (String × Value) :=
  if items.isEmpty then [] else [(key, .array items)]

def emittedObservations (report : EvaluationReport) (collected : String) : List Value :=
  (EvidenceIndex.build report.findings).keys.map fun key =>
    observationForEvidence sha256 key (reportSeed report) collected

def emittedFindings (report : EvaluationReport) : List Value :=
  report.findings.zipIdx.map fun entry =>
    findingFor sha256 entry.1 (reportSeed report) entry.2
      ((EvidenceKey.fromFinding entry.1).observationUuid sha256 (reportSeed report))

def emittedRisks (report : EvaluationReport) : List Value :=
  report.deviatedFindings.zipIdx.map fun entry =>
    riskFor sha256 entry.1 (reportSeed report) entry.2

def assessmentResultsWithOptions (report : EvaluationReport) (options : AssessmentResultsOptions) :
    Option Value := do
  let lastModified := String.ofList (← unixToRfc3339 report.evaluatedAtUnix)
  some (.object [("assessment-results", .object [
    ("uuid", .string (uuidV8 sha256 nsReport (reportSeed report))),
    ("metadata", .object [("title", .string reportTitle),
      ("last-modified", .string lastModified),
      ("version", .string cargoPkgVersion),
      ("oscal-version", .string oscalVersion),
      ("props", .array (metadataProps report))]),
    ("import-ap", .object [("href", .string options.importApHref)]),
    ("results", .array [.object ([
      ("uuid", .string (uuidV8 sha256 nsResult (reportSeed report))),
      ("title", .string reportTitle),
      ("description", .string
        "Findings emitted by pkix-lint for the evaluated certificate chain."),
      ("start", .string lastModified),
      ("end", .string lastModified),
      ("reviewed-controls", .object [("control-selections",
        .array [.object [("include-all", .object [])]])])] ++
      optionalArray "observations" (emittedObservations sha256 report lastModified) ++
      optionalArray "findings" (emittedFindings sha256 report) ++
      optionalArray "risks" (emittedRisks sha256 report))])])])

def assessmentResults (report : EvaluationReport) : Option Value :=
  assessmentResultsWithOptions sha256 report .default

end Emit

end Pkix.Lint
