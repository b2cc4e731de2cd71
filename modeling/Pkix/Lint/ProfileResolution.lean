import Pkix.Lib.Reentry
import Pkix.Lint.ProfileDocuments

/-! Profile resolution: the walk through the imports with the hrefs that are still open, and what
the imports mean. -/

namespace Pkix.Lint

open Walk Reentry
open Selection (pushNew foldl_pushNew foldl_pushNew_nil)

section Resolver

structure ResolvedProfile where
  controlIds : List String
  parameterOverrides : List ParameterOverride
  deriving DecidableEq

inductive ResolveError where
  | parse (error : ProfileError)
  | profileImportCycle (href : String)
  /-- The depth bound of the model is used up, which no call meets. -/
  | unfinished
  deriving DecidableEq

abbrev Resolving (α : Type) := Except ResolveError α

def parsed {α : Type} : Parsed α → Resolving α
  | .ok value => .ok value
  | .error error => .error (.parse error)

/-- A nested call takes the open hrefs and gives them back. -/
abbrev Nested := Value → List String → Resolving (ResolvedProfile × List String)

/-- The ids and the overrides of an import's source: a profile is resolved, a catalog listed. -/
def importSource (nested : Nested) (stack : List String) (index : Nat) (href : String)
    (source : Value) : Resolving (List String × List ParameterOverride × List String) := do
  let sourceObj ← parsed (okOrProfile (.profileImportSourceUnknown index href) source.asObject)
  if Fields.containsKey sourceObj "profile" then
    if href ∈ stack then .error (.profileImportCycle href)
    else do
      let (resolved, stack) ← nested source (href :: stack)
      .ok (resolved.controlIds, resolved.parameterOverrides, stack.erase href)
  else if Fields.containsKey sourceObj "catalog" then do
    let ids ← parsed (lintIdsFromCatalog source)
    .ok (ids, [], stack)
  else .error (.parse (.profileImportSourceUnknown index href))

/-- What the loop over the imports carries; the ids seen are the control ids. -/
structure Progress where
  controlIds : List String
  parameterOverrides : List ParameterOverride
  stack : List String

/-- One turn of the loop. -/
def importStep (sources : Sources) (nested : Nested) (progress : Progress) (entry : Value × Nat) :
    Resolving Progress := do
  let (importObj, href) ← parsed (importHref entry.2 entry.1)
  let source ← parsed (okOrProfile (.profileImportUnresolved entry.2 href) (sources.lookup href))
  let (availableIds, nestedOverrides, stack) ←
    importSource nested progress.stack entry.2 href source
  let included ← parsed (includedIds entry.2 importObj availableIds)
  let excluded ← parsed (excludedIds entry.2 importObj)
  .ok
    { controlIds := included.foldl (fun ids id => if id ∈ excluded then ids else pushNew ids id)
        progress.controlIds
      parameterOverrides := progress.parameterOverrides ++ nestedOverrides
      stack }

/-- The recursion, to a bounded depth. -/
def resolveProfileInner (sources : Sources) : (depth : Nat) → Nested
  | 0 => fun _ _ => .error .unfinished
  | depth + 1 => fun profile stack => do
      let (prof, imports) ← parsed (profileImports profile)
      let progress ← imports.zipIdx.foldlM
        (importStep sources (resolveProfileInner sources depth)) ⟨[], [], stack⟩
      let overrides ← parsed (setParameters prof)
      .ok (⟨progress.controlIds, progress.parameterOverrides ++ overrides⟩, progress.stack)

/-- An open href is the key of a source, so this depth is never reached. -/
def resolveProfile (profile : Value) (sources : Sources) : Resolving ResolvedProfile := do
  let (resolved, _) ← resolveProfileInner sources (sources.length + 1) profile []
  .ok resolved

end Resolver

section Meaning

def IsProfile (source : Value) : Prop :=
  ∃ fields, source.asObject = some fields ∧ Fields.containsKey fields "profile" = true

/-- What imports select and override, import after import: of a catalog its controls, of a profile
what that profile selects, without repetitions. -/
inductive Resolves (sources : Sources) : List Import → List String → List ParameterOverride → Prop
  | nil : Resolves sources [] [] []
  | catalog {directive : Import} {rest : List Import} {source : Value}
      {ids controls : List String} {overrides : List ParameterOverride}
      (found : sources.lookup directive.href = some source) (plain : ¬ IsProfile source)
      (listed : lintIdsFromCatalog source = .ok ids) (later : Resolves sources rest controls overrides) :
      Resolves sources (directive :: rest) (directive.keep ids ++ controls) overrides
  | profile {directive : Import} {rest : List Import} {source : Value} {doc : ProfileDoc}
      {inner controls : List String} {innerOverrides overrides : List ParameterOverride}
      (found : sources.lookup directive.href = some source) (profile : IsProfile source)
      (read : readProfile source = .ok doc) (nested : Resolves sources doc.imports inner innerOverrides)
      (later : Resolves sources rest controls overrides) :
      Resolves sources (directive :: rest) (directive.keep inner.eraseDups ++ controls)
        (innerOverrides ++ doc.parameterOverrides ++ overrides)

/-- The overrides of the imported profiles come before the profile's own. -/
def ResolvesTo (sources : Sources) (profile : Value) (resolved : ResolvedProfile) : Prop :=
  ∃ doc controls overrides, readProfile profile = .ok doc ∧
    Resolves sources doc.imports controls overrides ∧
    resolved = ⟨controls.eraseDups, overrides ++ doc.parameterOverrides⟩

/-- The hrefs that a profile imports, whatever else its imports say. -/
def importHrefs (profile : Value) : List String :=
  match profileImports profile with
  | .ok (_, imports) =>
      imports.filterMap fun import' => (import'.asObject.bind fun fields => fields.lookup "href").bind
        Value.asStr
  | .error _ => []

/-- Following an import into another profile. -/
def Follows (sources : Sources) (profile : Value) (href : String) (source : Value) : Prop :=
  href ∈ importHrefs profile ∧ sources.lookup href = some source ∧ IsProfile source

/-- Every profile that imports lead to is well formed, and so are the catalogs that it imports. -/
def WellFormed (sources : Sources) (profile : Value) : Prop :=
  ∀ reached, Relation.ReflTransGen (Inside (Follows sources)) reached profile →
    ∃ doc, readProfile reached = .ok doc ∧ ∀ directive ∈ doc.imports, ∃ source,
      sources.lookup directive.href = some source ∧
        (IsProfile source ∨ ∃ ids, lintIdsFromCatalog source = .ok ids)

end Meaning

section Parsing

variable {α : Type} {result : Parsed α} {index : Nat} {entry : Value × Nat} {profile source : Value}
  {href : String}

theorem parsed_ok {value : α} : parsed result = .ok value ↔ result = .ok value := by
  cases result with
  | ok found => simp [parsed]
  | error failure => simp [parsed]

theorem parsed_error {failure : ResolveError} :
    parsed result = .error failure ↔ ∃ error, result = .error error ∧ failure = .parse error := by
  cases result with
  | ok found => simp [parsed]
  | error found => simp [parsed, eq_comm]

theorem okOrProfile_ok {error : ProfileError} {option : Option α} {value : α} :
    okOrProfile error option = .ok value ↔ option = some value := by
  cases option with
  | none => simp [okOrProfile]
  | some found => simp [okOrProfile]

theorem okOrProfile_error {error failure : ProfileError} {option : Option α} :
    okOrProfile error option = .error failure ↔ option = none ∧ failure = error := by
  cases option with
  | none => simp [okOrProfile, eq_comm]
  | some found => simp [okOrProfile]

theorem containsKey_of_bind {fields : Fields} {key : String} {read : Value → Option α} {value : α}
    (found : (fields.lookup key).bind read = some value) : fields.containsKey key = true := by
  obtain ⟨inner, present, _⟩ := Option.bind_eq_some_iff.mp found
  rw [Fields.containsKey, present]
  rfl

theorem containsKey_catalog {ids : List String} (listed : lintIdsFromCatalog source = .ok ids) :
    ∃ fields, source.asObject = some fields ∧ Fields.containsKey fields "catalog" = true := by
  unfold lintIdsFromCatalog at listed
  obtain ⟨fields, object, listed⟩ := bind_ok.mp listed
  obtain ⟨catalog, wrapped, _⟩ := bind_ok.mp listed
  exact ⟨fields, okOrProfile_ok.mp object, containsKey_of_bind (okOrProfile_ok.mp wrapped)⟩

theorem isProfile_iff {fields : Fields} (object : source.asObject = some fields) :
    IsProfile source ↔ Fields.containsKey fields "profile" = true := by
  constructor
  · intro profile
    obtain ⟨fields', object', isProfile⟩ := profile
    rw [object, Option.some.injEq] at object'
    rw [object']
    exact isProfile
  · intro isProfile
    exact ⟨fields, object, isProfile⟩

theorem not_listed {fields : Fields} (object : source.asObject = some fields)
    (noCatalog : ¬ Fields.containsKey fields "catalog" = true) (ids : List String) :
    lintIdsFromCatalog source ≠ .ok ids := by
  intro listed
  obtain ⟨fields', object', catalog⟩ := containsKey_catalog listed
  rw [object, Option.some.injEq] at object'
  rw [object'] at noCatalog
  exact noCatalog catalog

theorem parse_of_parsed {failure : ResolveError} (failed : parsed result = .error failure) :
    ∃ error, failure = .parse error := by
  obtain ⟨error, _, same⟩ := parsed_error.mp failed
  exact ⟨error, same⟩

theorem source_unique {sources : Sources} {source' : Value}
    (found : sources.lookup href = some source) (found' : sources.lookup href = some source') :
    source' = source :=
  Option.some.inj (found'.symm.trans found)

theorem href_of_importHref {importObj : Fields}
    (located : importHref index source = .ok (importObj, href)) :
    (source.asObject.bind fun fields => fields.lookup "href").bind Value.asStr = some href := by
  unfold importHref at located
  obtain ⟨fields, object, located⟩ := bind_ok.mp located
  obtain ⟨value, present, located⟩ := bind_ok.mp located
  obtain ⟨text, string, located⟩ := bind_ok.mp located
  split at located
  · cases located
  · cases located
    rw [okOrProfile_ok.mp object, Option.bind_some, okOrProfile_ok.mp present, Option.bind_some,
      okOrProfile_ok.mp string]

theorem mem_importHrefs {prof importObj : Fields} {imports : List Value}
    (unwrapped : profileImports profile = .ok (prof, imports)) (listed : entry ∈ imports.zipIdx)
    (located : importHref entry.2 entry.1 = .ok (importObj, href)) : href ∈ importHrefs profile := by
  unfold importHrefs
  rw [unwrapped]
  exact List.mem_filterMap.mpr
    ⟨entry.1, List.fst_mem_of_mem_zipIdx listed, href_of_importHref located⟩

/-- In a profile that is read as a whole, each href belongs to one of its imports. -/
theorem exists_import_of_href {doc : ProfileDoc} (read : readProfile profile = .ok doc)
    (listed : href ∈ importHrefs profile) : ∃ directive ∈ doc.imports, directive.href = href := by
  obtain ⟨prof, imports, unwrapped, each, _⟩ := readProfile_ok_iff.mp read
  unfold importHrefs at listed
  rw [unwrapped] at listed
  obtain ⟨value, present, found⟩ := List.mem_filterMap.mp listed
  obtain ⟨place, at'⟩ := List.mem_iff_getElem?.mp present
  obtain ⟨directive, member, taken⟩ :=
    exists_result each (value, place) (List.mk_mem_zipIdx_iff_getElem?.mpr at')
  obtain ⟨importObj, located, _⟩ := readImport_ok_iff.mp taken
  have same := href_of_importHref located
  rw [found, Option.some.injEq] at same
  exact ⟨directive, member, same.symm⟩

end Parsing

section Turns

variable {sources : Sources} {nested : Nested} {stack : List String} {index : Nat} {href : String}
  {source : Value} {failure : ResolveError}

theorem importSource_ok {ids : List String} {overrides : List ParameterOverride}
    {stack' : List String}
    (imported : importSource nested stack index href source = .ok (ids, overrides, stack')) :
    (IsProfile source ∧ ∃ resolved opened, nested source (href :: stack) = .ok (resolved, opened) ∧
        ids = resolved.controlIds ∧ overrides = resolved.parameterOverrides ∧
        stack' = opened.erase href) ∨
      (¬ IsProfile source ∧ lintIdsFromCatalog source = .ok ids ∧ overrides = [] ∧
        stack' = stack) := by
  unfold importSource at imported
  obtain ⟨fields, object, imported⟩ := bind_ok.mp imported
  have object := okOrProfile_ok.mp (parsed_ok.mp object)
  split at imported
  · rename_i isProfile
    split at imported
    · cases imported
    · obtain ⟨⟨resolved, opened⟩, called, imported⟩ := bind_ok.mp imported
      cases imported
      exact .inl ⟨(isProfile_iff object).mpr isProfile, resolved, opened, called, rfl, rfl, rfl⟩
  · rename_i noProfile
    rw [← isProfile_iff object] at noProfile
    split at imported
    · obtain ⟨listed, catalog, imported⟩ := bind_ok.mp imported
      cases imported
      exact .inr ⟨noProfile, parsed_ok.mp catalog, rfl, rfl⟩
    · cases imported

/-- A source fails by its own form, by an open href, or within. -/
theorem importSource_error
    (failed : importSource nested stack index href source = .error failure) :
    (IsProfile source ∧ (href ∈ stack ∧ failure = .profileImportCycle href ∨
        href ∉ stack ∧ nested source (href :: stack) = .error failure)) ∨
      ¬ IsProfile source ∧ (∀ ids, lintIdsFromCatalog source ≠ .ok ids) ∧
        ∃ error, failure = .parse error := by
  unfold importSource at failed
  rcases bind_error.mp failed with unreadable | ⟨fields, object, failed⟩
  · obtain ⟨error, missing, same⟩ := parsed_error.mp unreadable
    have none := (okOrProfile_error.mp missing).1
    refine .inr ⟨?_, ?_, error, same⟩
    · intro profile
      obtain ⟨fields, object, _⟩ := profile
      rw [none] at object
      cases object
    · intro ids listed
      obtain ⟨fields, object, _⟩ := containsKey_catalog listed
      rw [none] at object
      cases object
  · have object := okOrProfile_ok.mp (parsed_ok.mp object)
    split at failed
    · rename_i isProfile
      refine .inl ⟨(isProfile_iff object).mpr isProfile, ?_⟩
      split at failed
      · rename_i open'
        cases failed
        exact .inl ⟨open', rfl⟩
      · rename_i fresh
        rcases bind_error.mp failed with within | ⟨_, _, failed⟩
        · exact .inr ⟨fresh, within⟩
        · cases failed
    · rename_i noProfile
      rw [← isProfile_iff object] at noProfile
      split at failed
      · rcases bind_error.mp failed with unlisted | ⟨_, _, failed⟩
        · obtain ⟨error, unlisted, same⟩ := parsed_error.mp unlisted
          refine .inr ⟨noProfile, ?_, error, same⟩
          intro ids listed
          rw [unlisted] at listed
          cases listed
        · cases failed
      · rename_i noCatalog
        cases failed
        exact .inr ⟨noProfile, not_listed object noCatalog, _, rfl⟩

/-- Nested calls give back the open hrefs that they take. -/
def Restores (nested : Nested) : Prop :=
  ∀ source stack resolved opened, nested source stack = .ok (resolved, opened) → opened = stack

variable {progress next : Progress} {entry : Value × Nat}

theorem foldl_unless (excluded included start : List String) :
    included.foldl (fun ids id => if id ∈ excluded then ids else pushNew ids id) start =
      (included.filter fun id => id ∉ excluded).foldl pushNew start := by
  rw [List.foldl_filter]
  congr 1
  funext ids id
  by_cases among : id ∈ excluded
  · rw [if_pos among, if_neg (by simpa using among)]
  · rw [if_neg among, if_pos (by simpa using among)]

theorem importStep_ok (restores : Restores nested)
    (done : importStep sources nested progress entry = .ok next) :
    ∃ directive source ids overrides, readImport entry = .ok directive ∧
      sources.lookup directive.href = some source ∧
      ((IsProfile source ∧ ∃ resolved opened,
          nested source (directive.href :: progress.stack) = .ok (resolved, opened) ∧
            ids = resolved.controlIds ∧ overrides = resolved.parameterOverrides) ∨
        (¬ IsProfile source ∧ lintIdsFromCatalog source = .ok ids ∧ overrides = [])) ∧
      next = ⟨(directive.keep ids).foldl pushNew progress.controlIds,
        progress.parameterOverrides ++ overrides, progress.stack⟩ := by
  unfold importStep at done
  obtain ⟨⟨importObj, href⟩, located, done⟩ := bind_ok.mp done
  obtain ⟨source, found, done⟩ := bind_ok.mp done
  obtain ⟨⟨ids, overrides, stack⟩, imported, done⟩ := bind_ok.mp done
  obtain ⟨included, filtered, done⟩ := bind_ok.mp done
  obtain ⟨excluded, unwanted, done⟩ := bind_ok.mp done
  cases done
  obtain ⟨inclusion, read, same⟩ := includedIds_ok_iff.mp (parsed_ok.mp filtered)
  subst same
  have directive : readImport entry = .ok ⟨href, inclusion, excluded⟩ :=
    readImport_ok_iff.mpr ⟨importObj, parsed_ok.mp located, read, parsed_ok.mp unwanted⟩
  have present := okOrProfile_ok.mp (parsed_ok.mp found)
  refine ⟨_, source, ids, overrides, directive, present, ?_⟩
  rw [foldl_unless]
  rcases importSource_ok imported with
    ⟨profile, resolved, opened, called, sameIds, sameOverrides, closed⟩ |
      ⟨plain, listed, noOverrides, sameStack⟩
  · rw [restores _ _ _ _ called, List.erase_cons_head] at closed
    rw [closed]
    exact ⟨.inl ⟨profile, resolved, opened, called, sameIds, sameOverrides⟩, rfl⟩
  · rw [sameStack]
    exact ⟨.inr ⟨plain, listed, noOverrides⟩, rfl⟩

/-- The import is read, and its source is one that can be. -/
def Fine (sources : Sources) (directive : Import) : Prop :=
  ∃ source, sources.lookup directive.href = some source ∧
    (IsProfile source ∨ ∃ ids, lintIdsFromCatalog source = .ok ids)

/-- The import leads into a profile that is open, or that fails itself. -/
def FailsWithin (sources : Sources) (nested : Nested) (stack : List String) (entry : Value × Nat)
    (failure : ResolveError) : Prop :=
  ∃ importObj href source, importHref entry.2 entry.1 = .ok (importObj, href) ∧
    sources.lookup href = some source ∧ IsProfile source ∧
    (href ∈ stack ∧ failure = .profileImportCycle href ∨
      href ∉ stack ∧ nested source (href :: stack) = .error failure)

theorem within_or_parse (failed : importStep sources nested progress entry = .error failure) :
    FailsWithin sources nested progress.stack entry failure ∨ ∃ error, failure = .parse error := by
  unfold importStep at failed
  rcases bind_error.mp failed with unlocated | ⟨⟨importObj, href⟩, located, failed⟩
  · exact .inr (parse_of_parsed unlocated)
  rcases bind_error.mp failed with unresolved | ⟨source, found, failed⟩
  · exact .inr (parse_of_parsed unresolved)
  rcases bind_error.mp failed with unimported | ⟨_, _, failed⟩
  · rcases importSource_error unimported with ⟨profile, within⟩ | ⟨_, _, parse⟩
    · exact .inl ⟨importObj, href, source, parsed_ok.mp located,
        okOrProfile_ok.mp (parsed_ok.mp found), profile, within⟩
    · exact .inr parse
  rcases bind_error.mp failed with unfiltered | ⟨_, _, failed⟩
  · exact .inr (parse_of_parsed unfiltered)
  rcases bind_error.mp failed with unread | ⟨_, _, failed⟩
  · exact .inr (parse_of_parsed unread)
  · cases failed

/-- What can be read as a whole fails only within its source. -/
theorem within_of_fine {directive : Import} (read : readImport entry = .ok directive)
    (fine : Fine sources directive)
    (failed : importStep sources nested progress entry = .error failure) :
    FailsWithin sources nested progress.stack entry failure := by
  obtain ⟨importObj, located, inclusion, excluded⟩ := readImport_ok_iff.mp read
  obtain ⟨source, found, kind⟩ := fine
  unfold importStep at failed
  rw [located] at failed
  change (parsed (okOrProfile _ (sources.lookup directive.href)) >>= _) = _ at failed
  rw [found] at failed
  change (importSource nested progress.stack entry.2 directive.href source >>= _) = _ at failed
  rcases bind_error.mp failed with unimported | ⟨⟨ids, overrides, stack⟩, _, failed⟩
  · rcases importSource_error unimported with ⟨profile, within⟩ | ⟨plain, unlisted, _⟩
    · exact ⟨importObj, directive.href, source, located, found, profile, within⟩
    · rcases kind with profile | ⟨ids, listed⟩
      · exact absurd profile plain
      · exact absurd listed (unlisted ids)
  · have filtered : includedIds entry.2 importObj ids = .ok (directive.inclusion.restrict ids) :=
      includedIds_ok_iff.mpr ⟨_, inclusion, rfl⟩
    dsimp only at failed
    rw [filtered, excluded] at failed
    cases failed

theorem importStep_error (failed : importStep sources nested progress entry = .error failure) :
    FailsWithin sources nested progress.stack entry failure ∨ (∃ error, failure = .parse error) ∧
      ¬ ∃ directive, readImport entry = .ok directive ∧ Fine sources directive := by
  rcases within_or_parse failed with within | parse
  · exact .inl within
  · by_cases fine : ∃ directive, readImport entry = .ok directive ∧ Fine sources directive
    · obtain ⟨directive, read, fine⟩ := fine
      exact .inl (within_of_fine read fine failed)
    · exact .inr ⟨parse, fine⟩

end Turns

section Runs

variable {sources : Sources} {nested : Nested} {progress final : Progress}
  {entries : List (Value × Nat)} {failure : ResolveError}

/-- The loop, when nested calls mean what they are to mean. -/
theorem loop_ok (restores : Restores nested)
    (means : ∀ source stack resolved opened, nested source stack = .ok (resolved, opened) →
      ResolvesTo sources source resolved)
    (done : entries.foldlM (importStep sources nested) progress = .ok final) :
    ∃ directives controls overrides,
      List.Forall₂ (fun entry directive => readImport entry = .ok directive) entries directives ∧
      Resolves sources directives controls overrides ∧
      final = ⟨controls.foldl pushNew progress.controlIds,
        progress.parameterOverrides ++ overrides, progress.stack⟩ := by
  induction entries generalizing progress with
  | nil =>
      cases done
      exact ⟨[], [], [], .nil, .nil, by rw [List.append_nil]; rfl⟩
  | cons entry rest ih =>
      rw [List.foldlM_cons] at done
      obtain ⟨next, turn, done⟩ := bind_ok.mp done
      obtain ⟨directive, source, ids, overrides, read, found, kind, same⟩ :=
        importStep_ok restores turn
      obtain ⟨directives, controls, others, each, later, reached⟩ := ih done
      subst same
      refine ⟨directive :: directives, directive.keep ids ++ controls, overrides ++ others,
        .cons read each, ?_, ?_⟩
      · rcases kind with ⟨profile, resolved, opened, called, sameIds, sameOverrides⟩ |
          ⟨plain, listed, noOverrides⟩
        · obtain ⟨doc, inner, innerOverrides, docRead, nestedResolves, result⟩ :=
            means _ _ _ _ called
          rw [sameIds, sameOverrides, result]
          exact .profile found profile docRead nestedResolves later
        · rw [noOverrides]
          exact .catalog found plain listed later
      · rw [reached, List.foldl_append, List.append_assoc]

/-- The error of the loop is the error of one turn, with the open hrefs that it started with. -/
theorem loop_error (restores : Restores nested)
    (failed : entries.foldlM (importStep sources nested) progress = .error failure) :
    ∃ entry ∈ entries, ∃ before : Progress, before.stack = progress.stack ∧
      importStep sources nested before entry = .error failure := by
  induction entries generalizing progress with
  | nil => cases failed
  | cons entry rest ih =>
      rw [List.foldlM_cons] at failed
      rcases bind_error.mp failed with here | ⟨next, turn, failed⟩
      · exact ⟨entry, List.mem_cons_self, progress, rfl, here⟩
      · obtain ⟨_, _, _, _, _, _, _, same⟩ := importStep_ok restores turn
        obtain ⟨later, member, before, stack, at'⟩ := ih failed
        refine ⟨later, List.mem_cons_of_mem _ member, before, ?_, at'⟩
        rw [stack, same]

theorem resolveProfileInner_ok {depth : Nat} {profile : Value} {stack opened : List String}
    {resolved : ResolvedProfile}
    (done : resolveProfileInner sources depth profile stack = .ok (resolved, opened)) :
    opened = stack ∧ ResolvesTo sources profile resolved := by
  induction depth generalizing profile stack opened resolved with
  | zero => cases done
  | succ depth ih =>
      unfold resolveProfileInner at done
      obtain ⟨⟨prof, imports⟩, unwrapped, done⟩ := bind_ok.mp done
      obtain ⟨progress, looped, done⟩ := bind_ok.mp done
      obtain ⟨own, listed, done⟩ := bind_ok.mp done
      cases done
      have restores : Restores (resolveProfileInner sources depth) :=
        fun source stack resolved opened called => (ih called).1
      obtain ⟨directives, controls, overrides, each, resolves, reached⟩ :=
        loop_ok restores (fun source stack resolved opened called => (ih called).2) looped
      subst reached
      refine ⟨rfl, ⟨directives, own⟩, controls, overrides, ?_, resolves, ?_⟩
      · exact readProfile_ok_iff.mpr ⟨prof, imports, parsed_ok.mp unwrapped, each,
          parsed_ok.mp listed⟩
      · rw [foldl_pushNew_nil, List.nil_append]

theorem restores_resolveProfileInner (depth : Nat) :
    Restores (resolveProfileInner sources depth) :=
  fun _ _ _ _ called => (resolveProfileInner_ok called).1

/-- A profile fails by an import of an open href, within an import, or by its own form. -/
theorem resolveProfileInner_error {depth : Nat} {profile : Value} {stack : List String}
    (failed : resolveProfileInner sources (depth + 1) profile stack = .error failure) :
    (∃ href source, Follows sources profile href source ∧
      (href ∈ stack ∧ failure = .profileImportCycle href ∨
        href ∉ stack ∧ resolveProfileInner sources depth source (href :: stack) = .error failure)) ∨
      (∃ error, failure = .parse error) ∧
        ¬ ∃ doc, readProfile profile = .ok doc ∧ ∀ directive ∈ doc.imports, Fine sources directive := by
  unfold resolveProfileInner at failed
  rcases bind_error.mp failed with wrapped | ⟨⟨prof, imports⟩, unwrapped, failed⟩
  · obtain ⟨error, wrapped, same⟩ := parsed_error.mp wrapped
    refine .inr ⟨⟨error, same⟩, ?_⟩
    intro fine
    obtain ⟨doc, read, _⟩ := fine
    obtain ⟨prof, imports, unwrapped, _⟩ := readProfile_ok_iff.mp read
    rw [wrapped] at unwrapped
    cases unwrapped
  have unwrapped := parsed_ok.mp unwrapped
  rcases bind_error.mp failed with looped | ⟨progress, _, failed⟩
  · obtain ⟨entry, member, before, stack', turn⟩ :=
      loop_error (restores_resolveProfileInner depth) looped
    rcases importStep_error turn with
      ⟨importObj, href, source, located, found, isProfile, within⟩ | ⟨parse, unfit⟩
    · rw [stack'] at within
      exact .inl ⟨href, source, ⟨mem_importHrefs unwrapped member located, found, isProfile⟩, within⟩
    · refine .inr ⟨parse, ?_⟩
      intro fine
      obtain ⟨doc, read, fineImports⟩ := fine
      obtain ⟨prof', imports', unwrapped', each, _⟩ := readProfile_ok_iff.mp read
      rw [unwrapped, Except.ok.injEq, Prod.mk.injEq] at unwrapped'
      rw [← unwrapped'.2] at each
      obtain ⟨directive, listed, taken⟩ := exists_result each entry member
      exact unfit ⟨directive, taken, fineImports directive listed⟩
  rcases bind_error.mp failed with unset | ⟨_, _, failed⟩
  · obtain ⟨error, unset, same⟩ := parsed_error.mp unset
    refine .inr ⟨⟨error, same⟩, ?_⟩
    intro fine
    obtain ⟨doc, read, _⟩ := fine
    obtain ⟨prof', imports', unwrapped', _, set⟩ := readProfile_ok_iff.mp read
    rw [unwrapped, Except.ok.injEq, Prod.mk.injEq] at unwrapped'
    rw [← unwrapped'.1, unset] at set
    cases set
  · cases failed

end Runs

section Exactness

variable {sources : Sources} {profile root : Value} {stack : List String} {depth : Nat}

theorem follows_functional (doc doc' : Value) (href : String) (source source' : Value)
    (follows : Follows sources doc href source) (follows' : Follows sources doc' href source') :
    source = source' :=
  source_unique follows'.2.1 follows.2.1

/-- The open hrefs are different keys of the sources, so there are no more of them than sources. -/
theorem not_unfinished (distinct : stack.Nodup) (keys : ∀ href ∈ stack, href ∈ sources.map Prod.fst)
    (enough : sources.length < depth + stack.length) :
    resolveProfileInner sources depth profile stack ≠ .error .unfinished := by
  induction depth generalizing profile stack with
  | zero =>
      have few : stack.length ≤ (sources.map Prod.fst).length :=
        (List.subperm_of_subset distinct keys).length_le
      rw [List.length_map] at few
      omega
  | succ depth ih =>
      intro failed
      rcases resolveProfileInner_error failed with
        ⟨href, source, follows, ⟨_, same⟩ | ⟨fresh, within⟩⟩ | ⟨⟨error, same⟩, _⟩
      · cases same
      · refine ih (List.nodup_cons.mpr ⟨fresh, distinct⟩) ?_ ?_ within
        · rw [List.forall_mem_cons]
          refine ⟨?_, keys⟩
          obtain ⟨before, after, split, _⟩ := List.lookup_eq_some_iff.mp follows.2.1
          rw [split, List.map_append]
          exact List.mem_append_right _ List.mem_cons_self
        · rw [List.length_cons]
          omega
      · cases same

theorem reenters_of_cycle {href : String} (opened : OpenAt (Follows sources) root stack profile)
    (failed : resolveProfileInner sources depth profile stack =
      .error (.profileImportCycle href)) : Reenters (Follows sources) root := by
  induction depth generalizing profile stack with
  | zero => cases failed
  | succ depth ih =>
      rcases resolveProfileInner_error failed with
        ⟨key, source, follows, ⟨open', _⟩ | ⟨_, within⟩⟩ | ⟨⟨error, same⟩, _⟩
      · exact ⟨stack, profile, key, source, opened, follows, open'⟩
      · exact ih (.enter opened follows) within
      · cases same

theorem not_parse_of_wellFormed {error : ProfileError} (wellFormed : WellFormed sources root)
    (reached : Relation.ReflTransGen (Inside (Follows sources)) profile root) :
    resolveProfileInner sources depth profile stack ≠ .error (.parse error) := by
  induction depth generalizing profile stack with
  | zero =>
      intro failed
      cases failed
  | succ depth ih =>
      intro failed
      rcases resolveProfileInner_error failed with
        ⟨key, source, follows, ⟨_, same⟩ | ⟨_, within⟩⟩ | ⟨_, unfit⟩
      · cases same
      · exact ih (.head ⟨key, follows⟩ reached) within
      · exact unfit (wellFormed profile reached)

/-- A profile that means something imports no way without an end. -/
theorem acc_of_resolves {directives : List Import} {controls : List String}
    {overrides : List ParameterOverride} (resolves : Resolves sources directives controls overrides) :
    ∀ directive ∈ directives, ∀ source, sources.lookup directive.href = some source →
      IsProfile source → Acc (Inside (Follows sources)) source := by
  induction resolves with
  | nil => exact List.forall_mem_nil _
  | catalog found plain _ _ ih =>
      refine List.forall_mem_cons.mpr ⟨?_, ih⟩
      intro source found' profile
      have same := source_unique found found'
      subst same
      exact absurd profile plain
  | profile found _ read _ _ nested ih =>
      refine List.forall_mem_cons.mpr ⟨?_, ih⟩
      intro source found' _
      have same := source_unique found found'
      subst same
      refine .intro _ ?_
      intro inner inside
      obtain ⟨href, listed, innerFound, innerProfile⟩ := inside
      obtain ⟨directive, member, same⟩ := exists_import_of_href read listed
      subst same
      exact nested directive member inner innerFound innerProfile

theorem fine_of_resolves {directives : List Import} {controls : List String}
    {overrides : List ParameterOverride} (resolves : Resolves sources directives controls overrides) :
    ∀ directive ∈ directives, Fine sources directive ∧
      ∀ source, sources.lookup directive.href = some source → IsProfile source →
        ∃ resolved, ResolvesTo sources source resolved := by
  induction resolves with
  | nil => exact List.forall_mem_nil _
  | @catalog directive rest source _ _ _ found plain listed _ ih =>
      refine List.forall_mem_cons.mpr ⟨⟨⟨source, found, .inr ⟨_, listed⟩⟩, ?_⟩, ih⟩
      intro source' found' profile
      have same := source_unique found found'
      subst same
      exact absurd profile plain
  | @profile directive rest source _ _ _ _ _ found isProfile read nested _ _ ih =>
      refine List.forall_mem_cons.mpr ⟨⟨⟨source, found, .inl isProfile⟩, ?_⟩, ih⟩
      intro source' found' _
      have same := source_unique found found'
      subst same
      exact ⟨_, _, _, _, read, nested, rfl⟩

variable {resolved resolved' : ResolvedProfile}

theorem not_reenters_of_resolvesTo (resolves : ResolvesTo sources profile resolved) :
    ¬ Reenters (Follows sources) profile := by
  obtain ⟨doc, controls, overrides, read, within, _⟩ := resolves
  intro reenters
  refine reenters.not_acc follows_functional (.intro _ ?_)
  intro inner inside
  obtain ⟨href, listed, found, isProfile⟩ := inside
  obtain ⟨directive, member, same⟩ := exists_import_of_href read listed
  subst same
  exact acc_of_resolves within directive member inner found isProfile

theorem wellFormed_of_resolvesTo (resolves : ResolvesTo sources profile resolved) :
    WellFormed sources profile := by
  have each : ∀ reached, Relation.ReflTransGen (Inside (Follows sources)) reached profile →
      ∃ resolved, ResolvesTo sources reached resolved := by
    intro reached way
    induction way using Relation.ReflTransGen.head_induction_on with
    | refl => exact ⟨resolved, resolves⟩
    | head inside _ ih =>
        obtain ⟨_, doc, _, _, read, within, _⟩ := ih
        obtain ⟨href, listed, found, isProfile⟩ := inside
        obtain ⟨directive, member, same⟩ := exists_import_of_href read listed
        subst same
        exact (fine_of_resolves within directive member).2 _ found isProfile
  intro reached way
  obtain ⟨_, doc, _, _, read, within, _⟩ := each reached way
  exact ⟨doc, read, fun directive member => (fine_of_resolves within directive member).1⟩

theorem Resolves.unique {directives : List Import} {controls controls' : List String}
    {overrides overrides' : List ParameterOverride}
    (resolves : Resolves sources directives controls overrides)
    (resolves' : Resolves sources directives controls' overrides') :
    controls = controls' ∧ overrides = overrides' := by
  induction resolves generalizing controls' overrides' with
  | nil =>
      cases resolves'
      exact ⟨rfl, rfl⟩
  | catalog found plain listed _ ih =>
      cases resolves' with
      | catalog found' _ listed' later' =>
          have same := source_unique found found'
          subst same
          rw [listed, Except.ok.injEq] at listed'
          obtain ⟨sameControls, sameOverrides⟩ := ih later'
          rw [listed', sameControls, sameOverrides]
          exact ⟨rfl, rfl⟩
      | profile found' profile' _ _ _ =>
          have same := source_unique found found'
          subst same
          exact absurd profile' plain
  | profile found profile read _ _ nestedIh ih =>
      cases resolves' with
      | catalog found' plain' _ _ =>
          have same := source_unique found found'
          subst same
          exact absurd profile plain'
      | profile found' _ read' nested' later' =>
          have same := source_unique found found'
          subst same
          rw [read, Except.ok.injEq] at read'
          subst read'
          obtain ⟨sameInner, sameInnerOverrides⟩ := nestedIh nested'
          obtain ⟨sameControls, sameOverrides⟩ := ih later'
          rw [sameInner, sameInnerOverrides, sameControls, sameOverrides]
          exact ⟨rfl, rfl⟩

theorem ResolvesTo.unique (resolves : ResolvesTo sources profile resolved)
    (resolves' : ResolvesTo sources profile resolved') : resolved = resolved' := by
  obtain ⟨doc, controls, overrides, read, within, same⟩ := resolves
  obtain ⟨doc', controls', overrides', read', within', same'⟩ := resolves'
  rw [read, Except.ok.injEq] at read'
  subst read'
  obtain ⟨sameControls, sameOverrides⟩ := within.unique within'
  rw [same, same', sameControls, sameOverrides]

theorem resolveProfile_ok_iff : resolveProfile profile sources = .ok resolved ↔ ∃ opened,
    resolveProfileInner sources (sources.length + 1) profile [] = .ok (resolved, opened) := by
  unfold resolveProfile
  rw [bind_ok]
  constructor
  · intro done
    obtain ⟨⟨resolved, opened⟩, inner, same⟩ := done
    cases same
    exact ⟨opened, inner⟩
  · intro inner
    obtain ⟨opened, inner⟩ := inner
    exact ⟨_, inner, rfl⟩

theorem resolveProfile_error {failure : ResolveError} :
    resolveProfile profile sources = .error failure ↔
      resolveProfileInner sources (sources.length + 1) profile [] = .error failure := by
  unfold resolveProfile
  rw [bind_error]
  constructor
  · intro failed
    rcases failed with inner | ⟨⟨_, _⟩, _, failed⟩
    · exact inner
    · cases failed
  · exact .inl

/-- Where every profile is well formed, the only obstacle is an import of an open href. -/
theorem resolveProfile_wellFormed (wellFormed : WellFormed sources profile) :
    (∃ resolved, resolveProfile profile sources = .ok resolved) ∨
      ∃ href, resolveProfile profile sources = .error (.profileImportCycle href) := by
  cases outcome : resolveProfile profile sources with
  | ok resolved => exact .inl ⟨resolved, rfl⟩
  | error failure =>
      have inner := resolveProfile_error.mp outcome
      cases failure with
      | parse error => exact absurd inner (not_parse_of_wellFormed wellFormed .refl)
      | profileImportCycle href => exact .inr ⟨href, rfl⟩
      | unfinished =>
          exact absurd inner (not_unfinished .nil (List.forall_mem_nil _) (by simp))

/-- Resolution ends. Its result is what the imports mean; a cycle is reported for imports that
re-enter an open href, and for all of them when the profiles are well formed. -/
theorem resolveProfile_exact (profile : Value) (sources : Sources) :
    resolveProfile profile sources ≠ .error .unfinished ∧
    (∀ resolved, resolveProfile profile sources = .ok resolved ↔
      ResolvesTo sources profile resolved) ∧
    (∀ href, resolveProfile profile sources = .error (.profileImportCycle href) →
      Reenters (Follows sources) profile) ∧
    (Reenters (Follows sources) profile → ∃ failure,
      resolveProfile profile sources = .error failure) ∧
    (WellFormed sources profile →
      (Reenters (Follows sources) profile ↔ ∃ href,
        resolveProfile profile sources = .error (.profileImportCycle href)) ∧
      (¬ Reenters (Follows sources) profile ↔ ∃ resolved,
        resolveProfile profile sources = .ok resolved)) := by
  have sound : ∀ resolved, resolveProfile profile sources = .ok resolved →
      ResolvesTo sources profile resolved := by
    intro resolved done
    obtain ⟨opened, inner⟩ := resolveProfile_ok_iff.mp done
    exact (resolveProfileInner_ok inner).2
  have cycle : ∀ href, resolveProfile profile sources = .error (.profileImportCycle href) →
      Reenters (Follows sources) profile := by
    intro href failed
    exact reenters_of_cycle .root (resolveProfile_error.mp failed)
  refine ⟨?_, ?_, cycle, ?_, ?_⟩
  · intro failed
    exact not_unfinished .nil (List.forall_mem_nil _) (by simp) (resolveProfile_error.mp failed)
  · intro resolved
    refine ⟨sound resolved, ?_⟩
    intro resolves
    rcases resolveProfile_wellFormed (wellFormed_of_resolvesTo resolves) with
      ⟨resolved', done⟩ | ⟨href, failed⟩
    · rw [done, (sound resolved' done).unique resolves]
    · exact absurd (cycle href failed) (not_reenters_of_resolvesTo resolves)
  · intro reenters
    cases outcome : resolveProfile profile sources with
    | ok resolved => exact absurd reenters (not_reenters_of_resolvesTo (sound resolved outcome))
    | error failure => exact ⟨failure, rfl⟩
  · intro wellFormed
    rcases resolveProfile_wellFormed wellFormed with ⟨resolved, done⟩ | ⟨href, failed⟩
    · have free := not_reenters_of_resolvesTo (sound resolved done)
      refine ⟨⟨fun reenters => absurd reenters free, ?_⟩, fun _ => ⟨resolved, done⟩, fun _ => free⟩
      intro reported
      obtain ⟨href, failed⟩ := reported
      rw [done] at failed
      cases failed
    · have reenters := cycle href failed
      refine ⟨⟨fun _ => ⟨href, failed⟩, fun _ => reenters⟩, fun free => absurd reenters free, ?_⟩
      intro succeeded
      obtain ⟨resolved, done⟩ := succeeded
      rw [failed] at done
      cases done

end Exactness

namespace Concrete

def versioned (fields : Fields) : Value :=
  .object (("metadata", .object [("oscal-version", .string "1.1.2")]) :: fields)

def catalog : Value :=
  .object [("catalog", versioned [("controls", .array [.object [("id", .string "a")]])])]

/-- An import without include directives. -/
def bareImport : Value :=
  .object [("profile", versioned [("imports", .array [.object [("href", .string "c")]])])]

theorem bareImport_selects_nothing : lintIdsFromCatalog catalog = .ok ["a"] ∧
    resolveProfile bareImport [("c", catalog)] = .ok ⟨[], []⟩ ∧
    ¬ Reenters (Follows [("c", catalog)]) bareImport := by
  have resolved : resolveProfile bareImport [("c", catalog)] = .ok ⟨[], []⟩ := by decide +kernel
  obtain ⟨_, inner⟩ := resolveProfile_ok_iff.mp resolved
  exact ⟨by decide +kernel, resolved, not_reenters_of_resolvesTo (resolveProfileInner_ok inner).2⟩

end Concrete

end Pkix.Lint
