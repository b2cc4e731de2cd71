import Pkix.Lint.OscalRisks
import Pkix.Lint.ParameterOverrides

/-! OSCAL profiles and catalogs as JSON: what the resolver reads of them, check by check. -/

namespace Pkix.Lint

open Walk

inductive ProfileError where
  | missingOscalVersion
  | unsupportedOscalVersion (found : String)
  | catalogNotObject
  | catalogMissingWrapper
  | controlsNotArray
  | controlNotObject (index : Nat)
  | controlMissingId (index : Nat)
  | controlIdNotString (index : Nat)
  | controlIdEmpty (index : Nat)
  | profileNotObject
  | profileMissingWrapper
  | profileImportsNotArray
  | profileImportNotObject (index : Nat)
  | profileImportMissingHref (index : Nat)
  | profileImportHrefNotString (index : Nat)
  | profileImportHrefEmpty (index : Nat)
  | profileImportUnresolved (index : Nat) (href : String)
  | profileImportSourceUnknown (index : Nat) (href : String)
  | profileIncludeControlsNotArray (index : Nat)
  | profileExcludeControlsNotArray (index : Nat)
  | profileWithIdsEntryNotObject (index entryIndex : Nat)
  | profileWithIdsNotArray (index entryIndex : Nat)
  | profileWithIdNotString (index entryIndex : Nat)
  | profileSetParametersNotArray
  | profileSetParameterNotObject (entryIndex : Nat)
  | profileSetParameterMissingId (entryIndex : Nat)
  | profileSetParameterIdEmpty (entryIndex : Nat)
  | profileSetParameterValuesNotArray (entryIndex : Nat)
  | profileSetParameterValuesEmpty (entryIndex : Nat)
  | profileSetParameterValueNotString (entryIndex : Nat)
  deriving DecidableEq, Repr

abbrev Parsed (α : Type) := Except ProfileError α

abbrev Fields := List (String × Value)

abbrev Sources := List (String × Value)

def okOrProfile {α : Type} (error : ProfileError) : Option α → Parsed α
  | some value => .ok value
  | none => .error error

def Fields.containsKey (fields : Fields) (key : String) : Bool := (fields.lookup key).isSome

section Catalogs

def supportedOscalVersions : List String := ["1.1.2"]

def checkOscalVersion (container : Fields) : Parsed Unit := do
  let version ← okOrProfile .missingOscalVersion
    (((container.lookup "metadata").bind fun metadata =>
      metadata.asObject.bind fun fields => fields.lookup "oscal-version").bind Value.asStr)
  if version ∈ supportedOscalVersions then .ok () else .error (.unsupportedOscalVersion version)

def controlId (index : Nat) (control : Value) : Parsed String := do
  let controlObj ← okOrProfile (.controlNotObject index) control.asObject
  let idValue ← okOrProfile (.controlMissingId index) (controlObj.lookup "id")
  let id ← okOrProfile (.controlIdNotString index) idValue.asStr
  if id.isEmpty then .error (.controlIdEmpty index) else .ok id

def lintIdsFromCatalog (value : Value) : Parsed (List String) := do
  let obj ← okOrProfile .catalogNotObject value.asObject
  let catalog ← okOrProfile .catalogMissingWrapper ((obj.lookup "catalog").bind Value.asObject)
  checkOscalVersion catalog
  let controls ← okOrProfile .controlsNotArray ((catalog.lookup "controls").bind Value.asArray)
  controls.zipIdx.mapM fun entry => controlId entry.2 entry.1

end Catalogs

section Profiles

/-- The wrapped profile and its imports. -/
def profileImports (profile : Value) : Parsed (Fields × List Value) := do
  let obj ← okOrProfile .profileNotObject profile.asObject
  let prof ← okOrProfile .profileMissingWrapper ((obj.lookup "profile").bind Value.asObject)
  checkOscalVersion prof
  let imports ← okOrProfile .profileImportsNotArray ((prof.lookup "imports").bind Value.asArray)
  .ok (prof, imports)

def importHref (index : Nat) (import' : Value) : Parsed (Fields × String) := do
  let importObj ← okOrProfile (.profileImportNotObject index) import'.asObject
  let hrefValue ← okOrProfile (.profileImportMissingHref index) (importObj.lookup "href")
  let href ← okOrProfile (.profileImportHrefNotString index) hrefValue.asStr
  if href.isEmpty then .error (.profileImportHrefEmpty index) else .ok (importObj, href)

def withIds (index entryIndex : Nat) (entry : Value) : Parsed (List String) := do
  let entryObj ← okOrProfile (.profileWithIdsEntryNotObject index entryIndex) entry.asObject
  match entryObj.lookup "with-ids" with
  | none => .ok []
  | some listed => do
      let ids ← okOrProfile (.profileWithIdsNotArray index entryIndex) listed.asArray
      ids.mapM fun id => okOrProfile (.profileWithIdNotString index entryIndex) id.asStr

/-- The ids of all entries of an include or an exclude directive. -/
def directiveIds (notArray : ProfileError) (index : Nat) (directives : Value) :
    Parsed (List String) := do
  let entries ← okOrProfile notArray directives.asArray
  let ids ← entries.zipIdx.mapM fun entry => withIds index entry.2 entry.1
  .ok ids.flatten

/-- What is left of the available ids after the include filters. -/
def includedIds (index : Nat) (importObj : Fields) (availableIds : List String) :
    Parsed (List String) :=
  if importObj.containsKey "include-all" then .ok availableIds
  else
    match importObj.lookup "include-controls" with
    | some directives => do
        let wanted ← directiveIds (.profileIncludeControlsNotArray index) index directives
        .ok (availableIds.filter fun id => id ∈ wanted)
    | none => .ok []

def excludedIds (index : Nat) (importObj : Fields) : Parsed (List String) :=
  match importObj.lookup "exclude-controls" with
  | some directives => directiveIds (.profileExcludeControlsNotArray index) index directives
  | none => .ok []

def setParameter (entryIndex : Nat) (entry : Value) : Parsed ParameterOverride := do
  let entryObj ← okOrProfile (.profileSetParameterNotObject entryIndex) entry.asObject
  let paramId ← okOrProfile (.profileSetParameterMissingId entryIndex)
    ((entryObj.lookup "param-id").bind Value.asStr)
  if paramId.isEmpty then .error (.profileSetParameterIdEmpty entryIndex)
  else do
    let values ← okOrProfile (.profileSetParameterValuesNotArray entryIndex)
      ((entryObj.lookup "values").bind Value.asArray)
    match values with
    | [] => .error (.profileSetParameterValuesEmpty entryIndex)
    | first :: _ => do
        let value ← okOrProfile (.profileSetParameterValueNotString entryIndex) first.asStr
        .ok ⟨paramId.toList, value.toList⟩

def setParameters (prof : Fields) : Parsed (List ParameterOverride) :=
  match ((prof.lookup "modify").bind Value.asObject).bind fun modify =>
      modify.lookup "set-parameters" with
  | some setParams => do
      let entries ← okOrProfile .profileSetParametersNotArray setParams.asArray
      entries.zipIdx.mapM fun entry => setParameter entry.2 entry.1
  | none => .ok []

end Profiles

section Directives

/-- Which of a source's controls an import includes. -/
inductive Inclusion where
  | all
  | only (ids : List String)
  | nothing
  deriving DecidableEq, Repr

def Inclusion.restrict : Inclusion → List String → List String
  | .all, ids => ids
  | .only wanted, ids => ids.filter fun id => id ∈ wanted
  | .nothing, _ => []

structure Import where
  href : String
  inclusion : Inclusion
  excluded : List String
  deriving DecidableEq, Repr

/-- The included ids without the excluded ones. -/
def Import.keep (directive : Import) (ids : List String) : List String :=
  (directive.inclusion.restrict ids).filter fun id => id ∉ directive.excluded

/-- A profile read as a whole. -/
structure ProfileDoc where
  imports : List Import
  parameterOverrides : List ParameterOverride
  deriving DecidableEq

def readInclusion (index : Nat) (importObj : Fields) : Parsed Inclusion :=
  if importObj.containsKey "include-all" then .ok .all
  else
    match importObj.lookup "include-controls" with
    | some directives => do
        let wanted ← directiveIds (.profileIncludeControlsNotArray index) index directives
        .ok (.only wanted)
    | none => .ok .nothing

def readImport (entry : Value × Nat) : Parsed Import := do
  let (importObj, href) ← importHref entry.2 entry.1
  let inclusion ← readInclusion entry.2 importObj
  let excluded ← excludedIds entry.2 importObj
  .ok { href, inclusion, excluded }

def readProfile (profile : Value) : Parsed ProfileDoc := do
  let (prof, imports) ← profileImports profile
  let directives ← imports.zipIdx.mapM readImport
  let parameterOverrides ← setParameters prof
  .ok { imports := directives, parameterOverrides }

/-- The include filters are what the inclusion says. -/
theorem includedIds_ok_iff {index : Nat} {importObj : Fields} {available included : List String} :
    includedIds index importObj available = .ok included ↔
      ∃ inclusion, readInclusion index importObj = .ok inclusion ∧
        included = inclusion.restrict available := by
  unfold includedIds readInclusion
  split
  · constructor
    · intro all
      cases all
      exact ⟨.all, rfl, rfl⟩
    · intro all
      obtain ⟨inclusion, read, same⟩ := all
      cases read
      rw [same]
      rfl
  · split
    · constructor
      · intro wanted
        obtain ⟨ids, listed, same⟩ := bind_ok.mp wanted
        cases same
        exact ⟨.only ids, bind_ok.mpr ⟨ids, listed, rfl⟩, rfl⟩
      · intro wanted
        obtain ⟨inclusion, read, same⟩ := wanted
        obtain ⟨ids, listed, only⟩ := bind_ok.mp read
        cases only
        rw [same]
        exact bind_ok.mpr ⟨ids, listed, rfl⟩
    · constructor
      · intro none
        cases none
        exact ⟨.nothing, rfl, rfl⟩
      · intro none
        obtain ⟨inclusion, read, same⟩ := none
        cases read
        rw [same]
        rfl

theorem readImport_ok_iff {entry : Value × Nat} {directive : Import} :
    readImport entry = .ok directive ↔ ∃ importObj,
      importHref entry.2 entry.1 = .ok (importObj, directive.href) ∧
        readInclusion entry.2 importObj = .ok directive.inclusion ∧
        excludedIds entry.2 importObj = .ok directive.excluded := by
  unfold readImport
  constructor
  · intro read
    obtain ⟨⟨importObj, href⟩, located, read⟩ := bind_ok.mp read
    obtain ⟨inclusion, chosen, read⟩ := bind_ok.mp read
    obtain ⟨excluded, unwanted, same⟩ := bind_ok.mp read
    cases same
    exact ⟨importObj, located, chosen, unwanted⟩
  · intro parts
    obtain ⟨importObj, located, chosen, unwanted⟩ := parts
    exact bind_ok.mpr ⟨_, located, bind_ok.mpr ⟨_, chosen, bind_ok.mpr ⟨_, unwanted, rfl⟩⟩⟩

theorem readProfile_ok_iff {profile : Value} {doc : ProfileDoc} :
    readProfile profile = .ok doc ↔ ∃ prof imports, profileImports profile = .ok (prof, imports) ∧
      List.Forall₂ (fun entry directive => readImport entry = .ok directive) imports.zipIdx
        doc.imports ∧
      setParameters prof = .ok doc.parameterOverrides := by
  unfold readProfile
  constructor
  · intro read
    obtain ⟨⟨prof, imports⟩, unwrapped, read⟩ := bind_ok.mp read
    obtain ⟨directives, each, read⟩ := bind_ok.mp read
    obtain ⟨overrides, listed, same⟩ := bind_ok.mp read
    cases same
    exact ⟨prof, imports, unwrapped, mapM_ok_iff.mp each, listed⟩
  · intro parts
    obtain ⟨prof, imports, unwrapped, each, listed⟩ := parts
    exact bind_ok.mpr ⟨_, unwrapped, bind_ok.mpr ⟨_, mapM_ok_iff.mpr each,
      bind_ok.mpr ⟨_, listed, rfl⟩⟩⟩

end Directives

end Pkix.Lint
