import Pkix.Lib.KeyedSlots
import Pkix.Lint.AssessmentResults
import Pkix.Lint.CertificateLints
import Pkix.Lint.ProfileResolution

/-! Lints as an OSCAL catalog: what is emitted of them, and that its ids and parameters lead back
to the lints, directly and through profiles. -/

namespace Pkix.Lint

open Pkix.Path KeyedSlots Walk

section Emit

structure LintParameter where
  id : String
  label : String
  defaultValue : String
  deriving DecidableEq, Repr

/-- What a catalog says of a lint besides its id. -/
structure Described (σ : Type) extends Tunable σ where
  citation : σ → String
  severity : σ → Severity
  scope : σ → Scope
  appliesTo : σ → SubjectKind
  title : σ → String
  description : σ → Option String
  specSectionId : σ → Option String
  specUrl : σ → Option String
  parameters : σ → List LintParameter

def scopeLabel : Scope → String
  | .certificate => "certificate"
  | .path => "path"

def subjectKindLabel : SubjectKind → String
  | .leaf => "leaf"
  | .intermediateCa => "intermediate-ca"
  | .anchorIssued => "anchor-issued"
  | .any => "any"

def catalogLastModified : String := "1970-01-01T00:00:00Z"

/-- Texts, each but the last with a zero octet behind it. -/
def seedOf (texts : List String) : Bytes := (texts.map asBytes).intersperse [0] |>.flatten

def catalogSeed (catalogId catalogVersion : String) : Bytes := seedOf [catalogId, catalogVersion]

def controlSeed (catalogId catalogVersion lintId : String) : Bytes :=
  seedOf [catalogId, catalogVersion, lintId]

def paramSeed (catalogId catalogVersion lintId paramId : String) : Bytes :=
  seedOf [catalogId, catalogVersion, lintId, paramId]

/-- The id of a parameter in the catalog, where those of all lints stand together. -/
def compositeId (lintId paramId : String) : String := lintId ++ "." ++ paramId

variable {σ : Type} (lint : Described σ)
variable (sha256 : Bytes → { octets : Bytes // octets.length = 32 })

def Described.lintId (state : σ) : String := String.ofList (lint.id state)

def paramValue (parameter : LintParameter) (catalogId catalogVersion lintId : String) : Value :=
  .object
    [("id", .string (compositeId lintId parameter.id)),
      ("label", .string parameter.label),
      ("values", .array [.string parameter.defaultValue]),
      ("props", .array
        [prop "pkix-lint.param-uuid"
          (uuidV8 sha256 "pkix-lint.oscal.catalog.param"
            (paramSeed catalogId catalogVersion lintId parameter.id)),
        prop "pkix-lint.param-default" parameter.defaultValue])]

/-- A field that is left out when there is nothing to list. -/
def unlessEmpty (name : String) (items : List Value) : Fields :=
  if items.isEmpty then [] else [(name, .array items)]

variable (catalogId catalogVersion : String)

def controlProps (state : σ) : List Value :=
  [prop "pkix-lint.citation" (lint.citation state),
    prop "pkix-lint.severity" (severityLabel (lint.severity state)),
    prop "pkix-lint.scope" (scopeLabel (lint.scope state)),
    prop "pkix-lint.applies-to" (subjectKindLabel (lint.appliesTo state))] ++
  ((lint.specSectionId state).map fun sectionId => prop "pkix-lint.section-id" sectionId).toList ++
  [prop "pkix-lint.lint-id" (lint.lintId state),
    prop "pkix-lint.control-uuid"
      (uuidV8 sha256 "pkix-lint.oscal.catalog.control"
        (controlSeed catalogId catalogVersion (lint.lintId state)))]

def controlForLint (state : σ) : Value :=
  .object
    ([("id", .string (lint.lintId state)), ("class", .string "pkix-lint"),
        ("title", .string (lint.title state))] ++
      unlessEmpty "params" ((lint.parameters state).map fun parameter =>
        paramValue sha256 parameter catalogId catalogVersion (lint.lintId state)) ++
      [("props", .array (controlProps lint sha256 catalogId catalogVersion state))] ++
      unlessEmpty "links" ((lint.specUrl state).map fun url =>
        Value.object [("href", .string url), ("rel", .string "reference")]).toList ++
      unlessEmpty "parts" ((lint.description state).map fun description =>
        Value.object [("id", .string (lint.lintId state ++ "_smt")), ("name", .string "statement"),
          ("prose", .string description)]).toList)

/-- Catalog ids and versions are listed unless they are empty. -/
def catalogMetadataProps : List Value :=
  (if catalogId.isEmpty then [] else [prop "pkix-lint.catalog-id" catalogId]) ++
  if catalogVersion.isEmpty then [] else [prop "pkix-lint.catalog-version" catalogVersion]

def catalogFromLints (lints : List σ) : Value :=
  .object [("catalog", .object
    [("uuid", .string (uuidV8 sha256 "pkix-lint.oscal.catalog"
        (catalogSeed catalogId catalogVersion))),
      ("metadata", .object
        [("title", .string "pkix-lint Lint Catalog"),
          ("last-modified", .string catalogLastModified),
          ("version", .string catalogVersion),
          ("oscal-version", .string oscalVersion),
          ("props", .array (catalogMetadataProps catalogId catalogVersion))]),
      ("controls", .array
        (lints.map (controlForLint lint sha256 catalogId catalogVersion)))])]

inductive FilterError where
  | unknownLintId (id : String)
  deriving DecidableEq, Repr

/-- The lints of the ids, in the order of the ids. An id that comes again has no lint left. -/
def Described.filterToIds (lints : List σ) (ids : List String) : Except FilterError (List σ) :=
  match take (fill lint.lintId lints) ids with
  | .ok filtered => .ok filtered
  | .error id => .error (.unknownLintId id)

end Emit

section Catalog

variable {σ : Type} {lint : Described σ} {lints : List σ}
variable {sha256 : Bytes → { octets : Bytes // octets.length = 32 }}
variable {catalogId catalogVersion : String}

theorem controlId_ok_iff {index : Nat} {state : σ} {id : String} :
    controlId index (controlForLint lint sha256 catalogId catalogVersion state) = .ok id ↔
      lint.lintId state ≠ "" ∧ id = lint.lintId state := by
  have read : controlId index (controlForLint lint sha256 catalogId catalogVersion state) =
      if (lint.lintId state).isEmpty then .error (.controlIdEmpty index)
      else .ok (lint.lintId state) := rfl
  rw [read]
  by_cases empty : lint.lintId state = ""
  · rw [if_pos (String.isEmpty_iff.mpr empty)]
    constructor
    · intro impossible
      cases impossible
    · intro named
      exact absurd empty named.1
  · rw [if_neg (mt String.isEmpty_iff.mp empty)]
    constructor
    · intro same
      exact ⟨empty, (Except.ok.inj same).symm⟩
    · intro named
      rw [named.2]

theorem controlIds_ok_iff {start : Nat} {ids : List String} :
    (((lints.map (controlForLint lint sha256 catalogId catalogVersion)).zipIdx start).mapM
      fun entry => controlId entry.2 entry.1) = .ok ids ↔
      (∀ state ∈ lints, lint.lintId state ≠ "") ∧ ids = lints.map lint.lintId := by
  rw [mapM_ok_iff]
  induction lints generalizing start ids with
  | nil => simp
  | cons state rest ih =>
      simp only [List.map_cons, List.zipIdx_cons, List.forall₂_cons_left_iff, controlId_ok_iff, ih,
        List.forall_mem_cons]
      constructor
      · rintro ⟨_, _, ⟨named, rfl⟩, ⟨others, rfl⟩, rfl⟩
        exact ⟨⟨named, others⟩, rfl⟩
      · rintro ⟨⟨named, others⟩, rfl⟩
        exact ⟨_, _, ⟨named, rfl⟩, ⟨others, rfl⟩, rfl⟩

/-- The ids of an emitted catalog are read back just when none of them is empty. -/
theorem lintIdsFromCatalog_emitted {ids : List String} :
    lintIdsFromCatalog (catalogFromLints lint sha256 catalogId catalogVersion lints) = .ok ids ↔
      (∀ state ∈ lints, lint.lintId state ≠ "") ∧ ids = lints.map lint.lintId := by
  have listed : lintIdsFromCatalog (catalogFromLints lint sha256 catalogId catalogVersion lints) =
      ((lints.map (controlForLint lint sha256 catalogId catalogVersion)).zipIdx).mapM
        fun entry => controlId entry.2 entry.1 := rfl
  rw [listed]
  exact controlIds_ok_iff

/-- A catalog is no profile. -/
theorem not_isProfile_emitted :
    ¬IsProfile (catalogFromLints lint sha256 catalogId catalogVersion lints) := by
  rintro ⟨fields, object, profile⟩
  cases object
  have absent : false = true := profile
  cases absent

theorem lintId_nodup (runner : TunableRunner lint.toTunable) :
    (runner.lints.map lint.lintId).Nodup := by
  have split : runner.lints.map lint.lintId = (runner.lints.map lint.id).map String.ofList := by
    rw [List.map_map]
    rfl
  rw [split]
  exact runner.unique.map fun _ _ same => String.ofList_injective same

end Catalog

section Selection

variable {σ : Type} {lint : Described σ} {lints chosen : List σ} {ids : List String}
variable {sha256 : Bytes → { octets : Bytes // octets.length = 32 }}

theorem filterToIds_ok_iff :
    lint.filterToIds lints ids = .ok chosen ↔ take (fill lint.lintId lints) ids = .ok chosen := by
  unfold Described.filterToIds
  split <;> simp_all

section SerialLength

/-- The lint on the length of serial numbers with its cap. -/
structure MaxSerialLength where
  maxOctets : Nat
  within : 1 ≤ maxOctets ∧ maxOctets ≤ 21
  deriving DecidableEq

def outOfRange (value : Nat) : String :=
  "max-octets must be in the range 1..=21 (got " ++ value.repr ++ "); RFC 5280 §4.1.2.2 mandates " ++
    "serials of 1..=20 octets (encoded-content reading) or 1..=21 octets (unsigned-value reading). " ++
    "Wire a custom Lint impl for wider/narrower bounds."

def MaxSerialLength.setParameter (state : MaxSerialLength) (id value : ParamText) :
    MaxSerialLength × Except ParameterError Unit :=
  if id = "max-octets".toList then
    match StdText.parseU64 (String.ofList value) with
    | none => (state, .error (.invalidValue id
        ("expected non-negative integer, got '".toList ++ value ++ "'".toList)))
    | some parsed =>
        if within : 1 ≤ parsed.toNat ∧ parsed.toNat ≤ 21 then (⟨parsed.toNat, within⟩, .ok ())
        else (state, .error (.invalidValue id (outOfRange parsed.toNat).toList))
  else (state, .error (.unknownParameter id))

def describedSerialLength : Described MaxSerialLength where
  id state := (maxSerialLengthLint state.maxOctets).id.toList
  setParameter := MaxSerialLength.setParameter
  citation state := (maxSerialLengthLint state.maxOctets).citation
  severity _ := .error
  scope state := (maxSerialLengthLint state.maxOctets).scope
  appliesTo state := (maxSerialLengthLint state.maxOctets).appliesTo
  title _ := "Certificate serialNumber must not exceed 20 octets"
  description _ := none
  specSectionId _ := some "rfc5280-4.1.2.2"
  specUrl _ := some "https://www.rfc-editor.org/rfc/rfc5280#section-4.1.2.2"
  parameters _ := [⟨"max-octets", "Maximum allowed serial number length in octets", "20"⟩]

end SerialLength

namespace Concrete

def defaultLength : MaxSerialLength := ⟨20, by decide⟩

def lengthRunner : TunableRunner describedSerialLength.toTunable := ⟨[defaultLength], by simp⟩

def zeroDigest : Bytes → { octets : Bytes // octets.length = 32 } :=
  fun _ => ⟨List.replicate 32 0xDD, rfl⟩

def lengthCatalog : Value :=
  catalogFromLints describedSerialLength zeroDigest "rs.pkix.rfc5280" "1" [defaultLength]

/-- All of the catalog, with the cap of the unsigned reading. -/
def unsignedProfile : Value :=
  .object [("profile", versioned
    [("imports", .array
        [.object [("href", .string "catalog"), ("include-all", .object [])]]),
      ("modify", .object [("set-parameters", .array
        [.object [("param-id", .string "rfc5280.cert.serial_number.max_octets.max-octets"),
          ("values", .array [.string "21"])]])])])]

end Concrete

/-- A runner is built again from the catalog of any choice of its lints, in the order of the
catalog, unless a lint has no id. -/
theorem catalog_roundTrip (runner : TunableRunner lint.toTunable) {part : List σ}
    (within : part ⊆ runner.lints) (distinct : part.Nodup) (catalogId catalogVersion : String) :
    (∃ ids, lintIdsFromCatalog (catalogFromLints lint sha256 catalogId catalogVersion part) =
        .ok ids ∧ lint.filterToIds runner.lints ids = .ok part) ↔
      ∀ state ∈ part, lint.lintId state ≠ "" := by
  have unique := lintId_nodup runner
  have apart : (part.map lint.lintId).Nodup := by
    apply distinct.map_on
    intro first firstIn second secondIn same
    exact List.inj_on_of_nodup_map unique (within firstIn) (within secondIn) same
  constructor
  · intro ⟨ids, listed, _⟩
    exact (lintIdsFromCatalog_emitted.mp listed).1
  · intro named
    exact ⟨_, lintIdsFromCatalog_emitted.mpr ⟨named, rfl⟩,
      filterToIds_ok_iff.mpr (take_fill unique within apart)⟩

open Concrete in
theorem catalog_roundTrip_length :
    (∃ ids, lintIdsFromCatalog (catalogFromLints describedSerialLength zeroDigest "rs.pkix.rfc5280"
        "1" [defaultLength]) = .ok ids ∧
        describedSerialLength.filterToIds lengthRunner.lints ids = .ok [defaultLength]) ↔
      ∀ state ∈ [defaultLength], describedSerialLength.lintId state ≠ "" :=
  catalog_roundTrip lengthRunner (List.Subset.refl _) (List.nodup_singleton _) "rs.pkix.rfc5280" "1"

variable {sources : Sources}

/-- Every catalog among the sources is one of registered lints. -/
def CatalogsOf (lint : Described σ) (sha256 : Bytes → { octets : Bytes // octets.length = 32 })
    (lints : List σ) (sources : Sources) : Prop :=
  ∀ href source, sources.lookup href = some source → IsProfile source ∨
    ∃ part catalogId catalogVersion, part ⊆ lints ∧
      source = catalogFromLints lint sha256 catalogId catalogVersion part

theorem keep_subset (directive : Import) (ids : List String) : directive.keep ids ⊆ ids := by
  intro id kept
  have restricted := List.mem_of_mem_filter kept
  cases inclusion : directive.inclusion with
  | all => rwa [inclusion] at restricted
  | only wanted =>
      rw [inclusion] at restricted
      exact List.mem_of_mem_filter restricted
  | nothing =>
      rw [inclusion] at restricted
      cases restricted

/-- Whatever imports select of such catalogs is registered. -/
theorem resolves_registered (catalogs : CatalogsOf lint sha256 lints sources)
    {directives : List Import} {controls : List String} {overrides : List ParameterOverride}
    (resolves : Resolves sources directives controls overrides) :
    controls ⊆ lints.map lint.lintId := by
  induction resolves with
  | nil => exact List.nil_subset _
  | catalog found plain listed _ ih =>
      rcases catalogs _ _ found with profile | ⟨part, _, _, within, rfl⟩
      · exact absurd profile plain
      · rcases lintIdsFromCatalog_emitted.mp listed with ⟨_, rfl⟩
        exact List.append_subset.mpr
          ⟨List.Subset.trans (keep_subset _ _) (List.map_subset _ within), ih⟩
  | profile _ _ _ _ _ nested ih =>
      apply List.append_subset.mpr
      refine ⟨List.Subset.trans (keep_subset _ _) ?_, ih⟩
      intro id member
      exact nested (List.mem_eraseDups.mp member)

theorem applied_id (stable : ∀ state param value,
      lint.id (lint.setParameter state param value).1 = lint.id state)
    {owner state final : σ} {overrides : List ParameterOverride}
    (applied : lint.Applied lints owner state overrides final) : lint.id final = lint.id state := by
  induction applied with
  | nil => rfl
  | own _ set _ ih =>
      have same := congrArg (fun outcome => lint.id outcome.1) set
      rw [stable] at same
      exact ih.trans same.symm
  | skip _ _ ih => exact ih

/-- The ids stay in their places. -/
theorem lintIds_after (stable : ∀ state param value,
      lint.id (lint.setParameter state param value).1 = lint.id state)
    {before after : List σ} {overrides : List ParameterOverride}
    (each : List.Forall₂ (fun state final => lint.Applied lints state state overrides final)
      before after) : after.map lint.lintId = before.map lint.lintId := by
  induction each with
  | nil => rfl
  | cons first _ ih =>
      rw [List.map_cons, List.map_cons, ih]
      unfold Described.lintId
      rw [applied_id stable first]

theorem applied_of_mem {before after : List σ} {overrides : List ParameterOverride}
    (each : List.Forall₂ (fun state final => lint.Applied lints state state overrides final)
      before after) {final : σ} (member : final ∈ after) :
    ∃ state ∈ before, lint.Applied lints state state overrides final := by
  induction each with
  | nil => cases member
  | cons first _ ih =>
      rcases List.mem_cons.mp member with rfl | later
      · exact ⟨_, List.mem_cons_self, first⟩
      · rcases ih later with ⟨state, present, applied⟩
        exact ⟨state, List.mem_cons_of_mem _ present, applied⟩

/-- A profile over catalogs of a runner's lints, however it is nested, selects lints of the runner:
when its overrides are taken, the runner is left with just the lints that are selected, in their
order, each with the overrides that it owns. -/
theorem profile_roundTrip (runner : TunableRunner lint.toTunable)
    (stable : ∀ state param value,
      lint.id (lint.setParameter state param value).1 = lint.id state)
    (catalogs : CatalogsOf lint sha256 runner.lints sources) {profile : Value}
    {resolved : ResolvedProfile} (resolves : resolveProfile profile sources = .ok resolved)
    (taken : (lint.applyParameterOverrides runner.lints resolved.parameterOverrides).1 = .ok ()) :
    ∃ chosen, lint.filterToIds
        (lint.applyParameterOverrides runner.lints resolved.parameterOverrides).2
        resolved.controlIds = .ok chosen ∧
      chosen.map lint.lintId = resolved.controlIds ∧
      ∀ final ∈ chosen, ∃ state ∈ runner.lints,
        lint.Applied runner.lints state state resolved.parameterOverrides final := by
  rcases resolveProfile_ok_iff.mp resolves with ⟨_, inner⟩
  rcases (resolveProfileInner_ok inner).2 with ⟨doc, controls, overrides, _, within, rfl⟩
  have applied := (applyParameterOverrides_applied runner taken).2
  have same := lintIds_after stable applied
  have unique := lintId_nodup runner
  rw [← same] at unique
  have registered : controls.eraseDups ⊆ (lint.applyParameterOverrides runner.lints
      (overrides ++ doc.parameterOverrides)).2.map lint.lintId := by
    rw [same]
    intro id member
    exact resolves_registered catalogs within (List.mem_eraseDups.mp member)
  rcases take_registered unique registered with ⟨chosen, took, among, ids⟩
  rw [eraseDups_of_nodup (nodup_eraseDups controls)] at ids
  exact ⟨chosen, filterToIds_ok_iff.mpr took, ids, fun final member =>
    applied_of_mem applied (among member)⟩

open Concrete in
/-- The profile sets the cap of the lint to 21. -/
theorem profile_roundTrip_unsigned :
    ∃ chosen, describedSerialLength.filterToIds
        (describedSerialLength.applyParameterOverrides lengthRunner.lints
          [⟨"rfc5280.cert.serial_number.max_octets.max-octets".toList, "21".toList⟩]).2
        ["rfc5280.cert.serial_number.max_octets"] = .ok chosen ∧
      chosen.map describedSerialLength.lintId = ["rfc5280.cert.serial_number.max_octets"] ∧
      ∀ final ∈ chosen, ∃ state ∈ lengthRunner.lints,
        describedSerialLength.Applied lengthRunner.lints state state
          [⟨"rfc5280.cert.serial_number.max_octets.max-octets".toList, "21".toList⟩] final := by
  have resolves : resolveProfile unsignedProfile [("catalog", lengthCatalog)] =
      .ok ⟨["rfc5280.cert.serial_number.max_octets"],
        [⟨"rfc5280.cert.serial_number.max_octets.max-octets".toList, "21".toList⟩]⟩ := by
    decide +kernel
  have catalogs : CatalogsOf describedSerialLength zeroDigest lengthRunner.lints
      [("catalog", lengthCatalog)] := by
    intro href source found
    have same : source = lengthCatalog := by
      change (match href == "catalog" with
        | true => some lengthCatalog
        | false => none) = some source at found
      split at found
      · exact (Option.some.inj found).symm
      · cases found
    exact .inr ⟨[defaultLength], _, _, List.Subset.refl _, same⟩
  have stable : ∀ state param value, describedSerialLength.id
      (describedSerialLength.setParameter state param value).1 = describedSerialLength.id state := by
    intro state param value
    rfl
  exact profile_roundTrip lengthRunner stable catalogs resolves (by decide +kernel)

/-- The parameter of a lint is found by its id in the catalog, unless another lint is called like
the lint and a front part of the parameter. -/
theorem compositeId_resolves (runner : TunableRunner lint.toTunable)
    (index : Fin runner.lints.length) (param : String) (value : ParamText) :
    lint.resolve runner.lints
        ⟨(compositeId (lint.lintId runner.lints[index]) param).toList, value⟩ =
        .ok (index, param.toList) ↔
      ∀ other ∈ runner.lints, ∀ front rest, param.toList = front ++ '.' :: rest →
        lint.id other ≠ lint.id runner.lints[index] ++ '.' :: front := by
  have composed : (compositeId (lint.lintId runner.lints[index]) param).toList =
      lint.id runner.lints[index] ++ '.' :: param.toList := by
    simp [compositeId, Described.lintId]
  rw [resolve_ok_iff runner.unique]
  dsimp only
  rw [composed]
  constructor
  · intro owns other member front rest split same
    have longer := owns.2 other member rest (by
      rw [Tunable.Matches, same, split]
      simp)
    rw [same, List.length_append, List.length_cons] at longer
    omega
  · intro alone
    refine ⟨rfl, ?_⟩
    intro other member rest fits
    by_contra longer
    rcases List.append_eq_append_iff.mp fits with ⟨behind, extended, tail⟩ | ⟨front, shorter, _⟩
    · cases behind with
      | nil =>
          rw [List.append_nil] at extended
          exact longer (Nat.le_of_eq (congrArg List.length extended))
      | cons dot front =>
          rw [List.cons_append, List.cons.injEq] at tail
          rw [← tail.1] at extended
          exact alone other member front rest tail.2 extended
    · apply longer
      rw [shorter, List.length_append]
      exact Nat.le_add_right _ _

end Selection

end Pkix.Lint
