import Mathlib.Data.List.Nodup
import Pkix.Lint.AssessmentResults

/-! The references of emitted assessment results, read back from the document. -/

namespace Pkix.Lint

open Pkix.Path Framing Octets Selection

section Readers

/-- The objects listed under a key of the one result. -/
def resultObjects (key : String) (document : Value) : Option (List Value) := do
  let fields ← document.asObject
  let assessment ← (fields.lookup "assessment-results").bind Value.asObject
  match ← (assessment.lookup "results").bind Value.asArray with
  | [result] =>
      match (← result.asObject).lookup key with
      | none => some []
      | some objects => objects.asArray
  | _ => none

def textField (key : String) (object : Value) : Option String :=
  (object.asObject.bind fun fields => fields.lookup key).bind Value.asStr

def uuid (object : Value) : Option String := textField "uuid" object

/-- The observation that a finding names, where it names just one. -/
def relatedObservation (finding : Value) : Option String :=
  match (finding.asObject.bind fun fields => fields.lookup "related-observations").bind
      Value.asArray with
  | some [reference] => textField "observation-uuid" reference
  | _ => none

def carried (name : String) (observation : Value) : Option String :=
  findPropValue ((observation.asObject.bind fun fields => fields.lookup "props").bind
    Value.asArray) name

end Readers

section Specification

def observationSeeds (report : EvaluationReport) : List Bytes :=
  report.findings.map fun finding => (EvidenceKey.fromFinding finding).seed (reportSeed report)

def findingSeeds (report : EvaluationReport) : List Bytes :=
  report.findings.zipIdx.map fun entry => findingSeed (reportSeed report) entry.2 entry.1

def riskSeeds (report : EvaluationReport) : List Bytes :=
  report.deviatedFindings.zipIdx.map fun entry => riskSeed (reportSeed report) entry.2 entry.1

/-- No collision among the seeds of one kind of object in this report. -/
structure CollisionFree (sha256 : Bytes → { octets : Bytes // octets.length = 32 })
    (report : EvaluationReport) : Prop where
  observations : Set.InjOn (uuidV8 sha256 nsObservation) {seed | seed ∈ observationSeeds report}
  findings : Set.InjOn (uuidV8 sha256 nsFinding) {seed | seed ∈ findingSeeds report}
  risks : Set.InjOn (uuidV8 sha256 nsRisk) {seed | seed ∈ riskSeeds report}

structure ReferentiallySound (report : EvaluationReport) (observations findings risks : List Value) :
    Prop where
  counted : findings.length = report.findings.length ∧
    risks.length = report.deviatedFindings.length
  named : ∀ object ∈ observations ++ findings ++ risks, (uuid object).isSome
  distinctObservations : (observations.map uuid).Nodup
  distinctFindings : (findings.map uuid).Nodup
  distinctRisks : (risks.map uuid).Nodup
  related : ∀ (index : Nat) finding emitted, report.findings[index]? = some finding →
    findings[index]? = some emitted → ∃ observation,
      (observations.filter fun candidate => uuid candidate = relatedObservation emitted) =
        [observation] ∧
      carried "pkix-lint.cert-sha256" observation = finding.certSha256.map hex ∧
      carried "pkix-lint.cert-index" observation = finding.certIndex.map Nat.repr
  shared : ∀ (index index' : Nat) finding finding' emitted emitted',
    report.findings[index]? = some finding → findings[index]? = some emitted →
    report.findings[index']? = some finding' → findings[index']? = some emitted' →
    (relatedObservation emitted = relatedObservation emitted' ↔
      finding.certSha256 = finding'.certSha256 ∧ finding.certIndex = finding'.certIndex)

end Specification

section Emitted

variable (sha256 : Bytes → { octets : Bytes // octets.length = 32 })

theorem uuid_observationForEvidence (key : EvidenceKey) (seed : Bytes) (collected : String) :
    uuid (observationForEvidence sha256 key seed collected) =
      some (key.observationUuid sha256 seed) :=
  rfl

theorem uuid_findingFor (finding : Finding) (seed : Bytes) (index : Nat) (observation : String) :
    uuid (findingFor sha256 finding seed index observation) =
      some (uuidV8 sha256 nsFinding (findingSeed seed index finding)) :=
  rfl

theorem uuid_riskFor (deviated : DeviatedFinding) (seed : Bytes) (index : Nat) :
    uuid (riskFor sha256 deviated seed index) =
      some (uuidV8 sha256 nsRisk (riskSeed seed index deviated)) :=
  rfl

theorem relatedObservation_findingFor (finding : Finding) (seed : Bytes) (index : Nat)
    (observation : String) :
    relatedObservation (findingFor sha256 finding seed index observation) = some observation := by
  rfl

theorem carried_observationForEvidence (key : EvidenceKey) (seed : Bytes) (collected : String) :
    carried "pkix-lint.cert-sha256" (observationForEvidence sha256 key seed collected) =
        key.certSha256.map hex ∧
      carried "pkix-lint.cert-index" (observationForEvidence sha256 key seed collected) =
        key.certIndex.map Nat.repr := by
  cases key with
  | mk certSha256 certIndex =>
      cases certSha256 <;> cases certIndex <;> exact ⟨rfl, rfl⟩

end Emitted

section Seeds

variable {report : EvaluationReport}

/-- What identifies the evidence fits its fields in the seed. -/
def EvidenceKey.Fits (key : EvidenceKey) : Prop :=
  (∀ digest ∈ key.certSha256, digest.length = 32) ∧ ∀ index ∈ key.certIndex, index < 256 ^ 8

theorem fits_fromFinding {finding : Finding} (member : finding ∈ report.findings) :
    (EvidenceKey.fromFinding finding).Fits :=
  ⟨report.digests finding member, report.indices finding member⟩

theorem length_certIndex (key : EvidenceKey) :
    ∀ octets ∈ key.certIndex.map (toLittleEndian 8), octets.length = 8 := by
  intro octets written
  obtain ⟨index, _, same⟩ := Option.map_eq_some_iff.mp written
  rw [← same, length_toLittleEndian]

theorem EvidenceKey.seed_inj {key key' : EvidenceKey} {seed : Bytes} (fits : key.Fits)
    (fits' : key'.Fits) (same : key.seed seed = key'.seed seed) : key = key' := by
  have fields := List.append_cancel_left same
  obtain ⟨digests, indices⟩ := writeOptional_cut fits.1 fits'.1 fields
  rw [← List.append_nil (writeOptional _),
    ← List.append_nil (writeOptional (key'.certIndex.map _))] at indices
  have written := (writeOptional_cut (length_certIndex key) (length_certIndex key') indices).1
  have positions : key.certIndex = key'.certIndex := by
    cases position : key.certIndex with
    | none =>
        rw [position] at written
        exact (Option.map_eq_none_iff.mp written.symm).symm
    | some index =>
        rw [position] at written
        obtain ⟨index', position', octets⟩ := Option.map_eq_some_iff.mp written.symm
        rw [position', toLittleEndian_inj (fits'.2 index' position') (fits.2 index position) octets]
  cases key
  cases key'
  exact EvidenceKey.mk.injEq .. |>.mpr ⟨digests, positions⟩

theorem index_of_findingSeed {seed : Bytes} {index index' : Nat} {finding finding' : Finding}
    (fits : index < 256 ^ 8) (fits' : index' < 256 ^ 8)
    (same : findingSeed seed index finding = findingSeed seed index' finding') :
    index = index' := by
  have fields := List.append_cancel_left same
  exact toLittleEndian_inj fits fits' (List.append_inj_left fields (by simp))

theorem index_of_riskSeed {seed : Bytes} {index index' : Nat} {deviated deviated' : DeviatedFinding}
    (fits : index < 256 ^ 8) (fits' : index' < 256 ^ 8)
    (same : riskSeed seed index deviated = riskSeed seed index' deviated') : index = index' := by
  have fields := List.append_cancel_left same
  exact toLittleEndian_inj fits fits' (List.append_inj_left fields (by simp))

theorem keys_build (findings : List Finding) : (EvidenceIndex.build findings).keys =
    (findings.map EvidenceKey.fromFinding).eraseDups := by
  rw [← foldl_pushNew_nil, List.foldl_map]
  rfl

end Seeds

section Soundness

variable {sha256 : Bytes → { octets : Bytes // octets.length = 32 }} {report : EvaluationReport}

theorem mem_keys {key : EvidenceKey} (member : key ∈ (EvidenceIndex.build report.findings).keys) :
    ∃ finding ∈ report.findings, EvidenceKey.fromFinding finding = key := by
  rw [keys_build, List.mem_eraseDups] at member
  exact List.mem_map.mp member

theorem nodup_keys : (EvidenceIndex.build report.findings).keys.Nodup := by
  rw [keys_build, ← foldl_pushNew_nil]
  exact nodup_foldl_pushNew .nil _

theorem observationUuid_inj {finding finding' : Finding} (free : CollisionFree sha256 report)
    (member : finding ∈ report.findings) (member' : finding' ∈ report.findings)
    (same : (EvidenceKey.fromFinding finding).observationUuid sha256 (reportSeed report) =
      (EvidenceKey.fromFinding finding').observationUuid sha256 (reportSeed report)) :
    EvidenceKey.fromFinding finding = EvidenceKey.fromFinding finding' :=
  EvidenceKey.seed_inj (fits_fromFinding member) (fits_fromFinding member')
    (free.observations (List.mem_map.mpr ⟨_, member, rfl⟩)
      (List.mem_map.mpr ⟨_, member', rfl⟩) same)

theorem key_inj {key key' : EvidenceKey} (free : CollisionFree sha256 report)
    (member : key ∈ (EvidenceIndex.build report.findings).keys)
    (member' : key' ∈ (EvidenceIndex.build report.findings).keys)
    (same : key.observationUuid sha256 (reportSeed report) =
      key'.observationUuid sha256 (reportSeed report)) : key = key' := by
  obtain ⟨finding, present, of⟩ := mem_keys member
  obtain ⟨finding', present', of'⟩ := mem_keys member'
  rw [← of, ← of'] at same ⊢
  exact observationUuid_inj free present present' same

theorem distinct_observations (free : CollisionFree sha256 report) (collected : String) :
    ((emittedObservations sha256 report collected).map uuid).Nodup := by
  rw [emittedObservations, List.map_map]
  refine List.Nodup.map_on ?_ nodup_keys
  intro key member key' member' same
  exact key_inj free member member' (Option.some.inj same)

theorem distinct_findings (free : CollisionFree sha256 report) :
    ((emittedFindings sha256 report).map uuid).Nodup := by
  rw [emittedFindings, List.map_map]
  refine nodup_enumerated ?_
  intro entry member other member' same
  have few := report.fewFindings
  have bound := List.snd_lt_of_mem_zipIdx member
  have bound' := List.snd_lt_of_mem_zipIdx member'
  exact index_of_findingSeed (by omega) (by omega) (free.findings (List.mem_map.mpr ⟨_, member, rfl⟩)
    (List.mem_map.mpr ⟨_, member', rfl⟩) (Option.some.inj same))

theorem distinct_risks (free : CollisionFree sha256 report) :
    ((emittedRisks sha256 report).map uuid).Nodup := by
  rw [emittedRisks, List.map_map]
  refine nodup_enumerated ?_
  intro entry member other member' same
  have few := report.fewDeviated
  have bound := List.snd_lt_of_mem_zipIdx member
  have bound' := List.snd_lt_of_mem_zipIdx member'
  exact index_of_riskSeed (by omega) (by omega) (free.risks (List.mem_map.mpr ⟨_, member, rfl⟩)
    (List.mem_map.mpr ⟨_, member', rfl⟩) (Option.some.inj same))

/-- The finding at a position refers to the observation of its evidence. -/
theorem relatedObservation_emitted {index : Nat} {finding : Finding} {emitted : Value}
    (source : report.findings[index]? = some finding)
    (target : (emittedFindings sha256 report)[index]? = some emitted) :
    finding ∈ report.findings ∧ relatedObservation emitted =
      some ((EvidenceKey.fromFinding finding).observationUuid sha256 (reportSeed report)) := by
  refine ⟨List.mem_of_getElem? source, ?_⟩
  rw [emittedFindings, List.getElem?_map, List.getElem?_zipIdx, source] at target
  rw [← Option.some.inj target]
  exact relatedObservation_findingFor ..

theorem related_observation (free : CollisionFree sha256 report) (collected : String)
    {index : Nat} {finding : Finding} {emitted : Value}
    (source : report.findings[index]? = some finding)
    (target : (emittedFindings sha256 report)[index]? = some emitted) : ∃ observation,
      ((emittedObservations sha256 report collected).filter fun candidate =>
        uuid candidate = relatedObservation emitted) = [observation] ∧
      carried "pkix-lint.cert-sha256" observation = finding.certSha256.map hex ∧
      carried "pkix-lint.cert-index" observation = finding.certIndex.map Nat.repr := by
  obtain ⟨member, related⟩ := relatedObservation_emitted source target
  refine ⟨observationForEvidence sha256 (.fromFinding finding) (reportSeed report) collected, ?_,
    carried_observationForEvidence ..⟩
  rw [related, ← uuid_observationForEvidence sha256 _ _ collected]
  refine filter_eq_singleton (distinct_observations free collected) (List.mem_map_of_mem ?_)
  rw [keys_build, List.mem_eraseDups]
  exact List.mem_map_of_mem member

theorem shared_observation (free : CollisionFree sha256 report) {index index' : Nat}
    {finding finding' : Finding} {emitted emitted' : Value}
    (source : report.findings[index]? = some finding)
    (target : (emittedFindings sha256 report)[index]? = some emitted)
    (source' : report.findings[index']? = some finding')
    (target' : (emittedFindings sha256 report)[index']? = some emitted') :
    relatedObservation emitted = relatedObservation emitted' ↔
      finding.certSha256 = finding'.certSha256 ∧ finding.certIndex = finding'.certIndex := by
  obtain ⟨member, related⟩ := relatedObservation_emitted source target
  obtain ⟨member', related'⟩ := relatedObservation_emitted source' target'
  have evidence : EvidenceKey.fromFinding finding = EvidenceKey.fromFinding finding' ↔
      finding.certSha256 = finding'.certSha256 ∧ finding.certIndex = finding'.certIndex := by
    simp only [EvidenceKey.fromFinding, EvidenceKey.mk.injEq]
  rw [related, related', Option.some.injEq, ← evidence]
  constructor
  · exact observationUuid_inj free member member'
  · intro same
    rw [same]

theorem named_emitted (collected : String) : ∀ object ∈ emittedObservations sha256 report collected ++
    emittedFindings sha256 report ++ emittedRisks sha256 report, (uuid object).isSome := by
  intro object member
  rcases List.mem_append.mp member with member | member
  · rcases List.mem_append.mp member with member | member
    · obtain ⟨key, _, same⟩ := List.mem_map.mp member
      rw [← same, uuid_observationForEvidence]
      rfl
    · obtain ⟨entry, _, same⟩ := List.mem_map.mp member
      rw [← same, uuid_findingFor]
      rfl
  · obtain ⟨entry, _, same⟩ := List.mem_map.mp member
    rw [← same, uuid_riskFor]
    rfl

theorem resultObjects_emitted (options : AssessmentResultsOptions) : ∃ document collected,
    assessmentResultsWithOptions sha256 report options = some document ∧
    resultObjects "observations" document = some (emittedObservations sha256 report collected) ∧
    resultObjects "findings" document = some (emittedFindings sha256 report) ∧
    resultObjects "risks" document = some (emittedRisks sha256 report) := by
  unfold assessmentResultsWithOptions
  rw [unixToRfc3339_eq]
  generalize (_ : List Char) ++ ['Z'] = lastModified
  refine ⟨_, String.ofList lastModified, rfl, ?_⟩
  generalize emittedObservations sha256 report _ = observations
  generalize emittedFindings sha256 report = findings
  generalize emittedRisks sha256 report = risks
  -- A list that is empty is left out and read back as empty.
  cases observations <;> cases findings <;> cases risks <;> exact ⟨rfl, rfl, rfl⟩

/-- Every emitted document refers to its own observations, and to the right ones, unless two of its
seeds collide. -/
theorem assessmentResults_sound (sha256 : Bytes → { octets : Bytes // octets.length = 32 })
    (report : EvaluationReport) (options : AssessmentResultsOptions)
    (free : CollisionFree sha256 report) : ∃ document observations findings risks,
      assessmentResultsWithOptions sha256 report options = some document ∧
      resultObjects "observations" document = some observations ∧
      resultObjects "findings" document = some findings ∧
      resultObjects "risks" document = some risks ∧
      ReferentiallySound report observations findings risks := by
  obtain ⟨document, collected, emitted, observations, findings, risks⟩ :=
    @resultObjects_emitted sha256 report options
  refine ⟨document, _, _, _, emitted, observations, findings, risks, ?_⟩
  exact
    { counted := by
        rw [emittedFindings, emittedRisks, List.length_map, List.length_map, List.length_zipIdx,
          List.length_zipIdx]
        exact ⟨rfl, rfl⟩
      named := named_emitted collected
      distinctObservations := distinct_observations free collected
      distinctFindings := distinct_findings free
      distinctRisks := distinct_risks free
      related := fun _ _ _ => related_observation free collected
      shared := fun _ _ _ _ _ _ => shared_observation free }

end Soundness

namespace Concrete

def certEvidence : EvidenceKey := ⟨some (List.replicate 32 0x41), some 0⟩

def finding (lintId : String) (result : LintResult) (key : EvidenceKey) : Finding where
  lintId := lintId
  citation := ""
  ruleBundleVersion := "b"
  result := result
  certIndex := key.certIndex
  evaluatedAtUnix := 0
  certSha256 := key.certSha256

def suppressed : DeviatedFinding where
  lintId := "a"
  citation := ""
  originalResult := .warn "w"
  deviationId := "x"
  action := .suppress
  justification := "j"
  evidenceUri := none
  certIndex := some 0
  evaluatedAtUnix := 0

/-- Two findings about one certificate and one about the path. -/
def threeFindings : EvaluationReport where
  profileId := "p"
  profileVersion := "1"
  ruleBundleVersion := "b"
  chainLength := 2
  evaluatedAtUnix := 0
  findings := [finding "a" .pass certEvidence, finding "b" (.warn "w") certEvidence,
    finding "c" .pass ⟨none, none⟩]
  deviatedFindings := [suppressed, suppressed]
  digests := by decide
  indices := by decide
  fewFindings := by decide
  fewDeviated := by decide

/-- The SHA-256 digests of the inputs that the report's identifiers are made from. -/
def digestOf (input : Bytes) : Bytes :=
  let labelled : String → Bytes → Bytes := fun label seed => asBytes label ++ 0 :: seed
  let digests :=
    ["0b8c5b4a7c234c8a01b02ea69face1fd258324f1df4c82f647464aa8f21be2bb",
      "0b8c5b4a7c234c8a01b02ea69face1fd258324f1df4c82f647464aa8f21be2bb",
      "7630c24984d8db90eb7a587ca1411ada06f100195017393b0fa97b869175e1e9",
      "824b29e95a9363a99295958e42316d2893bfe8defc0472051471a1abcb7b44eb",
      "3aa519635f612f1a5db2cd4b87aa57772678fde070e0da451dfeeb8872c9489b",
      "1d306f2b352571aecf4d1a564cf583ef1a6c5e57f927485e1970dea768b22d00",
      "65458ebcda5affdebd37af882b439b90b090a88594eafd55e9fde24b4f159a77",
      "7cde0b2e8f8acd06a34a0bc94222dc7f168067e8ff1f113b3e21e01adfc0405e"]
  let inputs := (observationSeeds threeFindings).map (labelled nsObservation) ++
    (findingSeeds threeFindings).map (labelled nsFinding) ++
    (riskSeeds threeFindings).map (labelled nsRisk)
  (((inputs.zip digests).lookup input).bind hexDecode).getD []

def sha256 (input : Bytes) : { octets : Bytes // octets.length = 32 } :=
  if known : (digestOf input).length = 32 then ⟨digestOf input, known⟩
  else ⟨List.replicate 32 0, List.length_replicate⟩

theorem threeFindings_collisionFree : CollisionFree sha256 threeFindings := by
  have observations : ∀ seed ∈ observationSeeds threeFindings,
      ∀ other ∈ observationSeeds threeFindings,
      uuidV8 sha256 nsObservation seed = uuidV8 sha256 nsObservation other → seed = other := by
    decide +kernel
  have findings : ∀ seed ∈ findingSeeds threeFindings, ∀ other ∈ findingSeeds threeFindings,
      uuidV8 sha256 nsFinding seed = uuidV8 sha256 nsFinding other → seed = other := by
    decide +kernel
  have risks : ∀ seed ∈ riskSeeds threeFindings, ∀ other ∈ riskSeeds threeFindings,
      uuidV8 sha256 nsRisk seed = uuidV8 sha256 nsRisk other → seed = other := by
    decide +kernel
  exact ⟨fun seed member other => observations seed member other,
    fun seed member other => findings seed member other,
    fun seed member other => risks seed member other⟩

theorem threeFindings_sound : ∃ document observations findings risks,
    assessmentResultsWithOptions sha256 threeFindings .default = some document ∧
    resultObjects "observations" document = some observations ∧
    resultObjects "findings" document = some findings ∧
    resultObjects "risks" document = some risks ∧
    ReferentiallySound threeFindings observations findings risks :=
  assessmentResults_sound sha256 threeFindings .default threeFindings_collisionFree

end Concrete

end Pkix.Lint
