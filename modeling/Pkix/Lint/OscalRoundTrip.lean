import Pkix.Lib.Walk
import Pkix.Lint.OscalRisks

/-! Emitting a deviation store and parsing it again. -/

namespace Pkix.Lint

open Pkix.Path StdText Walk

/-- The scopes that the public constructors build. -/
inductive DeviationScope.Constructed : DeviationScope → Prop
  | any : Constructed .any
  | issuerDnContains (substring : String) : Constructed (.issuerDnContains substring)
  | issuerDnExact (issuerDer : Bytes) : Constructed (.issuerDnExact issuerDer)
  | serialRange (issuerDer start last : Bytes) : Constructed (.serialRange issuerDer start last)

/-- The stores that `add` builds from deviations with such scopes. -/
inductive DeviationStore.Reachable (tables : UnicodeTables) : DeviationStore → Prop
  | new : Reachable tables .new
  | add {store grown deviation} (before : Reachable tables store)
      (constructed : deviation.scope.Constructed)
      (added : store.add tables deviation = .ok grown) : Reachable tables grown

/-- The issuer bytes of a scope, where it has any, are a DER name. -/
def ReadableIssuer (codec : NameCodec) (scope : DeviationScope) : Prop :=
  ∀ der, scope.getBytes propIssuerDnDer = some der → der ≠ [] ∧ (codec.fromDer der).isSome = true

section Props

theorem findPropValue_cons (name value wanted : String) (rest : List Value) :
    findPropValue (some (prop name value :: rest)) wanted =
      if name = wanted then some value else findPropValue (some rest) wanted := by
  by_cases same : name = wanted
  · simp [findPropValue, prop, Value.asObject, Value.asStr, List.lookup_cons, same]
  · simp [findPropValue, prop, Value.asObject, Value.asStr, same]

theorem findPropValue_nil (wanted : String) : findPropValue (some []) wanted = none := by
  simp [findPropValue]

variable (deviation : Deviation)

theorem findPropValue_riskProps :
    findPropValue (some (riskProps deviation)) "pkix-lint.deviation-id" = some deviation.id ∧
    findPropValue (some (riskProps deviation)) "pkix-lint.target-lint" =
      some deviation.targetLint ∧
    findPropValue (some (riskProps deviation)) "pkix-lint.action" =
      some (deviationActionPropValue deviation.action) ∧
    findPropValue (some (riskProps deviation)) "pkix-lint.authorized-by" =
      some deviation.authorizedBy := by
  simp [riskProps, findPropValue_cons]

theorem findPropValue_effectiveStart :
    findPropValue (some (riskProps deviation)) "pkix-lint.effective-start" =
      deviation.effectiveStart.map u64ToString := by
  cases start : deviation.effectiveStart <;> cases last : deviation.effectiveEnd <;>
    by_cases priority : deviation.priority = 0 <;>
    simp [riskProps, findPropValue_cons, findPropValue_nil, start, last, priority]

theorem findPropValue_effectiveEnd :
    findPropValue (some (riskProps deviation)) "pkix-lint.effective-end" =
      deviation.effectiveEnd.map u64ToString := by
  cases start : deviation.effectiveStart <;> cases last : deviation.effectiveEnd <;>
    by_cases priority : deviation.priority = 0 <;>
    simp [riskProps, findPropValue_cons, findPropValue_nil, start, last, priority]

theorem findPropValue_priority :
    findPropValue (some (riskProps deviation)) "pkix-lint.deviation-priority" =
      if deviation.priority = 0 then none else some (i32ToString deviation.priority) := by
  cases start : deviation.effectiveStart <;> cases last : deviation.effectiveEnd <;>
    by_cases priority : deviation.priority = 0 <;>
    simp [riskProps, findPropValue_cons, findPropValue_nil, start, last, priority]

end Props

section Fields

theorem parseAction_propValue (idx : Nat) (action : DeviationAction) :
    parseAction idx (deviationActionPropValue action) = .ok action := by
  cases action with
  | suppress => rfl
  | downgradeSeverityTo severity => cases severity <;> rfl

theorem parseOptionalU64_map (idx : Nat) (value : Option UInt64) (name : String) :
    parseOptionalU64 idx (value.map u64ToString) name = .ok value := by
  cases value with
  | none => rfl
  | some number => simp [parseOptionalU64, parseU64_u64ToString]

theorem parseOptionalI32_written (idx : Nat) (value : Int32) (name : String) :
    ∃ read, parseOptionalI32 idx (if value = 0 then none else some (i32ToString value)) name =
      .ok read ∧ read.getD 0 = value := by
  by_cases default : value = 0
  · exact ⟨none, by rw [if_pos default]; rfl, default.symm⟩
  · exact ⟨some value, by simp [default, parseOptionalI32, parseI32_i32ToString], rfl⟩

theorem requiredNonemptyProp_ok_iff (idx : Nat) (text name result : String) :
    requiredNonemptyProp idx (some text) name = .ok result ↔ text ≠ "" ∧ result = text := by
  unfold requiredNonemptyProp
  by_cases empty : text = ""
  · simp [empty]
  · simp [empty, @eq_comm _ result]

end Fields

section Subjects

variable {codec : NameCodec} {sha256 : Bytes → { octets : Bytes // octets.length = 32 }}

theorem decodeName_ok {idx : Nat} {der : Bytes} {name : String} (nonempty : der ≠ [])
    (decodes : (codec.fromDer der).isSome = true) :
    ∃ decoded, decodeName codec idx der name = .ok decoded := by
  obtain ⟨decoded, found⟩ := Option.isSome_iff_exists.mp decodes
  exact ⟨decoded, by simp [decodeName, nonempty, found, okOr]⟩

theorem readable_of_decodeName {idx : Nat} {der : Bytes} {name : String} {decoded : Name}
    (read : decodeName codec idx der name = .ok decoded) :
    der ≠ [] ∧ (codec.fromDer der).isSome = true := by
  unfold decodeName at read
  split at read
  · cases read
  · rename_i nonempty
    cases found : codec.fromDer der with
    | none => simp [found, okOr] at read
    | some name => exact ⟨by simpa using nonempty, rfl⟩

theorem parseSubject_any (idx : Nat) :
    ∃ subject, encodeScope codec sha256 .any = [subject] ∧
      parseSubject codec idx subject = .ok .any :=
  ⟨_, rfl, rfl⟩

theorem parseSubject_issuerDnContains (idx : Nat) (substring : String) :
    ∃ subject, encodeScope codec sha256 (.issuerDnContains substring) = [subject] ∧
      parseSubject codec idx subject = .ok (.issuerDnContains substring) :=
  ⟨_, rfl, rfl⟩

theorem parseSubject_issuerDnExact (idx : Nat) (der : Bytes) :
    ∃ subject, encodeScope codec sha256 (.issuerDnExact der) = [subject] ∧
      parseSubject codec idx subject =
        (decodeName codec idx der propIssuerDnDer).map fun _ => .issuerDnExact der := by
  refine ⟨_, rfl, ?_⟩
  have step : ∀ uuid title shown, parseSubject codec idx
      (subjectObject scopeKindIssuerDnExact uuid title
        [prop "pkix-lint.issuer-dn" shown, prop propIssuerDnDer (hex der)]) =
      (okOr (.malformedHex idx propIssuerDnDer) (hexDecode (hex der)) >>= fun der =>
        decodeName codec idx der propIssuerDnDer >>= fun _ => .ok (.issuerDnExact der)) :=
    fun _ _ _ => rfl
  refine (step _ _ _).trans ?_
  rw [hexDecode_hex]
  rfl

theorem parseSubject_serialRange (idx : Nat) (der start last : Bytes) :
    ∃ subject, encodeScope codec sha256 (.serialRange der start last) = [subject] ∧
      parseSubject codec idx subject =
        (decodeName codec idx der propIssuerDnDer).map fun _ => .serialRange der start last := by
  refine ⟨_, rfl, ?_⟩
  have step : ∀ uuid title shown, parseSubject codec idx
      (subjectObject scopeKindSerialRange uuid title
        [prop "pkix-lint.issuer-dn" shown, prop propIssuerDnDer (hex der),
          prop propSerialStart (hex start), prop propSerialEnd (hex last)]) =
      (okOr (.malformedHex idx propIssuerDnDer) (hexDecode (hex der)) >>= fun der =>
        decodeName codec idx der propIssuerDnDer >>= fun _ =>
          okOr (.malformedHex idx propSerialStart) (hexDecode (hex start)) >>= fun start =>
            okOr (.malformedHex idx propSerialEnd) (hexDecode (hex last)) >>= fun last =>
              .ok (.serialRange der start last)) :=
    fun _ _ _ => rfl
  refine (step _ _ _).trans ?_
  rw [hexDecode_hex, hexDecode_hex, hexDecode_hex]
  rfl

theorem readableIssuer_of_eq {scope : DeviationScope} {der : Bytes}
    (issuer : scope.getBytes propIssuerDnDer = some der) :
    ReadableIssuer codec scope ↔ der ≠ [] ∧ (codec.fromDer der).isSome = true := by
  simp [ReadableIssuer, issuer]

theorem decodeName_map_ok_iff {α : Type} (idx : Nat) (der : Bytes) (value result : α) :
    (decodeName codec idx der propIssuerDnDer).map (fun _ => value) = .ok result ↔
      (der ≠ [] ∧ (codec.fromDer der).isSome = true) ∧ result = value := by
  constructor
  · intro read
    cases decoded : decodeName codec idx der propIssuerDnDer with
    | error failure => simp [decoded, Except.map] at read
    | ok name =>
        rw [decoded] at read
        cases read
        exact ⟨readable_of_decodeName decoded, rfl⟩
  · intro readable
    obtain ⟨⟨nonempty, decodes⟩, same⟩ := readable
    obtain ⟨name, decoded⟩ := @decodeName_ok codec idx der propIssuerDnDer nonempty decodes
    rw [decoded, same]
    rfl

/-- The subject written for a scope is read back just when its issuer is readable. -/
theorem parseSubject_encodeScope (idx : Nat) {scope : DeviationScope}
    (constructed : scope.Constructed) :
    ∃ subject, encodeScope codec sha256 scope = [subject] ∧
      ∀ result, parseSubject codec idx subject = .ok result ↔
        ReadableIssuer codec scope ∧ result = scope := by
  cases constructed with
  | any =>
      obtain ⟨subject, written, read⟩ := @parseSubject_any codec sha256 idx
      have readable : ReadableIssuer codec .any := fun der issuer => by cases issuer
      exact ⟨subject, written, fun result => by simp [read, readable, eq_comm]⟩
  | issuerDnContains substring =>
      obtain ⟨subject, written, read⟩ :=
        @parseSubject_issuerDnContains codec sha256 idx substring
      have readable : ReadableIssuer codec (.issuerDnContains substring) := fun der issuer => by
        cases issuer
      exact ⟨subject, written, fun result => by simp [read, readable, eq_comm]⟩
  | issuerDnExact der =>
      obtain ⟨subject, written, read⟩ :=
        @parseSubject_issuerDnExact codec sha256 idx der
      refine ⟨subject, written, ?_⟩
      intro result
      rw [read, decodeName_map_ok_iff, readableIssuer_of_eq rfl]
  | serialRange der start last =>
      obtain ⟨subject, written, read⟩ :=
        @parseSubject_serialRange codec sha256 idx der start last
      refine ⟨subject, written, ?_⟩
      intro result
      rw [read, decodeName_map_ok_iff, readableIssuer_of_eq rfl]

end Subjects

section Risks

variable {codec : NameCodec} {sha256 : Bytes → { octets : Bytes // octets.length = 32 }}

/-- What the parser reads of an emitted risk, field after field. -/
theorem parseRisk_emitted (idx : Nat) (deviation : Deviation) :
    parseRisk codec idx (riskForDeviation codec sha256 deviation) = (do
      let props := findPropValue (some (riskProps deviation))
      let id ← requiredNonemptyProp idx (props "pkix-lint.deviation-id") "pkix-lint.deviation-id"
      let targetLint ← requiredNonemptyProp idx (props "pkix-lint.target-lint")
        "pkix-lint.target-lint"
      let actionStr ← requiredNonemptyProp idx (props "pkix-lint.action") "pkix-lint.action"
      let action ← parseAction idx actionStr
      let authorizedBy ← requiredNonemptyProp idx (props "pkix-lint.authorized-by")
        "pkix-lint.authorized-by"
      let effectiveStart ← parseOptionalU64 idx (props "pkix-lint.effective-start")
        "pkix-lint.effective-start"
      let effectiveEnd ← parseOptionalU64 idx (props "pkix-lint.effective-end")
        "pkix-lint.effective-end"
      let priority ← parseOptionalI32 idx (props "pkix-lint.deviation-priority")
        "pkix-lint.deviation-priority"
      let subject ← okOr (.missingSubject idx) (encodeScope codec sha256 deviation.scope).head?
      let scope ← parseSubject codec idx subject
      .ok { id, targetLint, scope, effectiveStart, effectiveEnd, action,
            justification := deviation.justification, authorizedBy,
            evidenceUri := deviation.evidenceUri, priority := priority.getD 0 }) := by
  cases uri : deviation.evidenceUri with
  | none => simp only [riskForDeviation, uri]; rfl
  | some text => simp only [riskForDeviation, uri]; rfl

theorem deviationActionPropValue_ne_empty (action : DeviationAction) :
    deviationActionPropValue action ≠ "" := by
  cases action with
  | suppress => decide
  | downgradeSeverityTo severity => cases severity <;> decide

theorem parseRisk_ok_iff (idx : Nat) {deviation : Deviation}
    (constructed : deviation.scope.Constructed) (authorized : deviation.authorizedBy ≠ "")
    (result : Deviation) :
    parseRisk codec idx (riskForDeviation codec sha256 deviation) = .ok result ↔
      (deviation.id ≠ "" ∧ deviation.targetLint ≠ "" ∧ ReadableIssuer codec deviation.scope) ∧
        result = deviation := by
  obtain ⟨subject, written, reads⟩ :=
    @parseSubject_encodeScope codec sha256 idx _ constructed
  obtain ⟨id, target, action, author⟩ := findPropValue_riskProps deviation
  obtain ⟨priority, readPriority, samePriority⟩ :=
    parseOptionalI32_written idx deviation.priority "pkix-lint.deviation-priority"
  simp only [parseRisk_emitted, id, target, action, author, findPropValue_effectiveStart,
    findPropValue_effectiveEnd, findPropValue_priority, readPriority, parseOptionalU64_map, bind_ok,
    requiredNonemptyProp_ok_iff, parseAction_propValue, written, List.head?_cons, okOr, reads,
    Except.ok.injEq, and_assoc, exists_and_left, exists_eq_left, exists_eq_left', samePriority]
  constructor
  · intro read
    obtain ⟨named, targeted, _, _, readable, same⟩ := read
    exact ⟨named, targeted, readable, same.symm⟩
  · intro presentable
    obtain ⟨named, targeted, readable, same⟩ := presentable
    exact ⟨named, targeted, deviationActionPropValue_ne_empty _, authorized, readable, same.symm⟩

end Risks

section Stores

variable {tables : UnicodeTables}

theorem validateScope_constructed {scope : DeviationScope} (constructed : scope.Constructed) :
    validateScope scope = .ok () := by
  cases constructed <;> rfl

theorem lowerScope_constructed {scope : DeviationScope} (constructed : scope.Constructed) :
    (lowerScope tables scope).Constructed ∧
      lowerScope tables (lowerScope tables scope) = lowerScope tables scope := by
  cases constructed with
  | any => exact ⟨.any, rfl⟩
  | issuerDnContains substring =>
      have lowered : ∀ text, lowerScope tables (.issuerDnContains text) =
          .issuerDnContains (tables.toLowercase text) := fun _ => rfl
      rw [lowered, lowered, tables.toLowercase_idem]
      exact ⟨.issuerDnContains _, rfl⟩
  | issuerDnExact der => exact ⟨.issuerDnExact der, rfl⟩
  | serialRange der start last => exact ⟨.serialRange der start last, rfl⟩

/-- What a store keeps of each deviation that `add` let in. -/
structure Stored (tables : UnicodeTables) (deviation : Deviation) : Prop where
  constructed : deviation.scope.Constructed
  lowered : lowerScope tables deviation.scope = deviation.scope
  justified : deviation.justification ≠ ""
  authorized : deviation.authorizedBy ≠ ""

theorem add_ok_iff {store grown : DeviationStore} {deviation : Deviation}
    (constructed : deviation.scope.Constructed) :
    store.add tables deviation = .ok grown ↔
      deviation.justification ≠ "" ∧ deviation.authorizedBy ≠ "" ∧
        (∀ other ∈ store.deviations, other.id ≠ deviation.id) ∧
        grown = ⟨store.deviations ++
          [{ deviation with scope := lowerScope tables deviation.scope }]⟩ := by
  unfold DeviationStore.add
  rw [validateScope_constructed constructed]
  split
  · rename_i empty
    simp [String.isEmpty_iff.mp empty]
  · rename_i justified
    split
    · rename_i empty
      simp [String.isEmpty_iff.mp empty]
    · rename_i authorized
      split
      · rename_i duplicate
        simp only [List.any_eq_true, beq_iff_eq] at duplicate
        obtain ⟨other, inside, same⟩ := duplicate
        constructor
        · intro added
          cases added
        · intro fresh
          exact absurd same (fresh.2.2.1 other inside)
      · rename_i fresh
        simp only [List.any_eq_true, beq_iff_eq, not_exists, not_and] at fresh
        rw [String.isEmpty_iff] at justified authorized
        simp only [bind, Except.bind, Except.ok.injEq, justified, authorized, ne_eq,
          not_false_eq_true, true_and]
        constructor
        · intro added
          exact ⟨fresh, added.symm⟩
        · intro added
          exact added.2.symm

theorem reachable_stored {store : DeviationStore} (reachable : store.Reachable tables) :
    (∀ deviation ∈ store.deviations, Stored tables deviation) ∧
      (store.deviations.map Deviation.id).Nodup := by
  induction reachable with
  | new => exact ⟨by simp [DeviationStore.new], by simp [DeviationStore.new]⟩
  | add before constructed added ih =>
      obtain ⟨justified, authorized, fresh, grownEq⟩ := (add_ok_iff constructed).mp added
      have lower := @lowerScope_constructed tables _ constructed
      subst grownEq
      refine ⟨?_, ?_⟩
      · intro other inside
        rcases List.mem_append.mp inside with old | new
        · exact ih.1 other old
        · rw [List.mem_singleton.mp new]
          exact ⟨lower.1, lower.2, justified, authorized⟩
      · rw [List.map_append, List.nodup_append]
        refine ⟨ih.2, by simp, ?_⟩
        intro id old id' new same
        obtain ⟨other, inside, named⟩ := List.mem_map.mp old
        simp only [List.map_cons, List.map_nil, List.mem_singleton] at new
        exact fresh other inside (by rw [named, same, new])

variable {codec : NameCodec} {sha256 : Bytes → { octets : Bytes // octets.length = 32 }}

/-- The loop over emitted risks rebuilds the deviations, when all can be read. -/
theorem addRisks_ok (idx : Nat) (earlier later : List Deviation)
    (stored : ∀ deviation ∈ later, Stored tables deviation)
    (distinct : ((earlier ++ later).map Deviation.id).Nodup)
    (presentable : ∀ deviation ∈ later, deviation.id ≠ "" ∧ deviation.targetLint ≠ "" ∧
      ReadableIssuer codec deviation.scope) :
    addRisks codec tables idx ⟨earlier⟩ (later.map (riskForDeviation codec sha256)) =
      .ok ⟨earlier ++ later⟩ := by
  induction later generalizing idx earlier with
  | nil => simp [addRisks]
  | cons deviation later ih =>
      rw [List.forall_mem_cons] at stored presentable
      have read := (@parseRisk_ok_iff codec sha256 idx _ stored.1.constructed
        stored.1.authorized deviation).mpr ⟨presentable.1, rfl⟩
      have fresh : ∀ other ∈ earlier, other.id ≠ deviation.id := by
        intro other inside same
        rw [List.map_append, List.nodup_append] at distinct
        exact distinct.2.2 _ (List.mem_map_of_mem inside) _ (by simp) same
      have added : DeviationStore.add tables ⟨earlier⟩ deviation =
          .ok ⟨earlier ++ [deviation]⟩ := by
        rw [add_ok_iff stored.1.constructed, stored.1.lowered]
        exact ⟨stored.1.justified, stored.1.authorized, fresh, rfl⟩
      have rest := ih (idx + 1) (earlier ++ [deviation]) stored.2 (by simpa using distinct)
        presentable.2
      rw [List.map_cons, addRisks, read]
      simp only [bind, Except.bind, added, rest]
      simp

theorem presentable_of_addRisks {idx : Nat} {start final : DeviationStore}
    {later : List Deviation} (stored : ∀ deviation ∈ later, Stored tables deviation)
    (read : addRisks codec tables idx start (later.map (riskForDeviation codec sha256)) =
      .ok final) :
    ∀ deviation ∈ later, deviation.id ≠ "" ∧ deviation.targetLint ≠ "" ∧
      ReadableIssuer codec deviation.scope := by
  induction later generalizing idx start with
  | nil => simp
  | cons deviation later ih =>
      rw [List.forall_mem_cons] at stored ⊢
      rw [List.map_cons, addRisks] at read
      obtain ⟨parsed, readRisk, read⟩ := bind_ok.mp read
      have presentable := ((parseRisk_ok_iff idx stored.1.constructed stored.1.authorized
        parsed).mp readRisk).1
      refine ⟨presentable, ?_⟩
      split at read
      · cases read
      · exact ih stored.2 read

/-- A store reached by additions survives emitting and parsing exactly when each of its
deviations has an id and a target lint, and issuer bytes, if any, that are a DER name. -/
theorem oscal_roundTrip_iff {store : DeviationStore} (reachable : store.Reachable tables) :
    deviationStoreFromRisks codec tables (.array (risksFromStore codec sha256 store)) = .ok store ↔
      ∀ deviation ∈ store.deviations, deviation.id ≠ "" ∧ deviation.targetLint ≠ "" ∧
        ReadableIssuer codec deviation.scope := by
  obtain ⟨stored, distinct⟩ := reachable_stored reachable
  constructor
  · intro survives
    exact presentable_of_addRisks stored survives
  · intro presentable
    exact addRisks_ok 0 [] store.deviations stored distinct presentable

end Stores

namespace Concrete

/-- The decoder on the DER form of the empty name. -/
def nameCodec : NameCodec where
  fromDer der := if der = [0x30, 0x00] then some [] else none
  display _ := ""

def waiver (issuerDer : Bytes) : Deviation where
  id := "waiver-1"
  targetLint := "rfc5280.version"
  scope := .issuerDnExact issuerDer
  effectiveStart := none
  effectiveEnd := some 1767225600
  action := .downgradeSeverityTo .info
  justification := "waiver memo"
  authorizedBy := "pki officer"
  evidenceUri := some "https://example.test/waiver-1"
  priority := -7

def policyDigest : { octets : Bytes // octets.length = 32 } :=
  ⟨[69, 70, 65, 43, 172, 87, 51, 24, 37, 164, 234, 184, 240, 6, 112, 29, 129, 39, 47, 19, 109, 11,
    210, 126, 44, 233, 231, 81, 154, 162, 127, 189], rfl⟩

def emptyNameDigest : { octets : Bytes // octets.length = 32 } :=
  ⟨[12, 26, 98, 184, 129, 60, 182, 171, 145, 165, 113, 89, 24, 116, 201, 147, 124, 65, 214, 178, 137,
    157, 216, 210, 19, 91, 216, 249, 176, 231, 75, 147], rfl⟩

def malformedDigest : { octets : Bytes // octets.length = 32 } :=
  ⟨[55, 2, 173, 46, 68, 143, 221, 97, 247, 55, 210, 132, 136, 223, 213, 209, 18, 36, 100, 127, 191,
    40, 197, 67, 95, 5, 120, 92, 88, 119, 231, 235], rfl⟩

/-- SHA-256 on the three octet strings that emitting the waivers hashes. -/
def sha256Of (octets : Bytes) : { octets : Bytes // octets.length = 32 } :=
  if octets = asBytes "pkix-lint.oscal.risk.policy" ++ 0 :: asBytes "waiver-1" then policyDigest
  else if octets = asBytes "pkix-lint.oscal.subject.issuer-dn-exact" ++ [0, 0x30, 0x00] then
    emptyNameDigest
  else malformedDigest

theorem waiver_reachable (issuerDer : Bytes) :
    (⟨[waiver issuerDer]⟩ : DeviationStore).Reachable asciiTables :=
  @DeviationStore.Reachable.add asciiTables .new _ (waiver issuerDer) .new (.issuerDnExact issuerDer)
    rfl

/-- A waiver for the issuer with the empty name comes back as it was. -/
theorem emptyName_survives :
    deviationStoreFromRisks nameCodec asciiTables
        (.array (risksFromStore nameCodec sha256Of ⟨[waiver [0x30, 0x00]]⟩)) =
      .ok ⟨[waiver [0x30, 0x00]]⟩ := by
  apply (oscal_roundTrip_iff (waiver_reachable [0x30, 0x00])).mpr
  intro deviation inside
  rw [List.mem_singleton.mp inside]
  refine ⟨by decide, by decide, ?_⟩
  exact (readableIssuer_of_eq rfl).mpr ⟨by decide, by decide⟩

/-- A store that `add` accepts and the parser refuses: the issuer bytes are no name. -/
theorem malformedIssuer_refused :
    (⟨[waiver [0xff]]⟩ : DeviationStore).Reachable asciiTables ∧
      deviationStoreFromRisks nameCodec asciiTables
          (.array (risksFromStore nameCodec sha256Of ⟨[waiver [0xff]]⟩)) =
        .error (.malformedDer 0 propIssuerDnDer) := by
  refine ⟨waiver_reachable [0xff], ?_⟩
  decide +kernel

end Concrete

end Pkix.Lint
