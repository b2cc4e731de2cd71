import Pkix.Lint.Deviation

/-! Deviations as OSCAL risks: the emitter, and the parser that reads them back into a store. -/

namespace Pkix.Lint

open Pkix.Path StdText

/-- A JSON value; an object has each key once. -/
inductive Value
  | null
  | bool (value : Bool)
  | number (literal : String)
  | string (value : String)
  | array (items : List Value)
  | object (fields : List (String × Value))

namespace Value

def asStr : Value → Option String
  | .string value => some value
  | _ => none

def asArray : Value → Option (List Value)
  | .array items => some items
  | _ => none

def asObject : Value → Option (List (String × Value))
  | .object fields => some fields
  | _ => none

end Value

section Hex

def hexDigit (nibble : UInt8) : Char :=
  if nibble ≤ 9 then Char.ofNat (48 + nibble.toNat) else Char.ofNat (97 + nibble.toNat - 10)

def hex (bytes : Bytes) : String :=
  String.ofList (bytes.flatMap fun octet : UInt8 => [hexDigit (octet >>> 4), hexDigit (octet &&& 0x0f)])

def nibble (octet : UInt8) : Option UInt8 :=
  if 48 ≤ octet ∧ octet ≤ 57 then some (octet - 48)
  else if 97 ≤ octet ∧ octet ≤ 102 then some (octet - 97 + 10)
  else if 65 ≤ octet ∧ octet ≤ 70 then some (octet - 65 + 10)
  else none

/-- The loop over an even number of octets. -/
def decodePairs : Bytes → Option Bytes
  | high :: low :: rest => do
      let hi ← nibble high
      let lo ← nibble low
      let tail ← decodePairs rest
      some ((hi <<< 4 ||| lo) :: tail)
  | _ => some []

def asBytes (text : String) : Bytes := text.toUTF8.data.toList

def hexDecode (text : String) : Option Bytes :=
  if (asBytes text).length % 2 ≠ 0 then none else decodePairs (asBytes text)

theorem nibble_hexDigit :
    ∀ value : Fin 16, (String.utf8EncodeChar (hexDigit (UInt8.ofNat value))).map nibble =
      [some (UInt8.ofNat value)] := by
  decide +kernel

theorem halves (octet : UInt8) :
    (octet >>> 4).toNat < 16 ∧ (octet &&& 0x0f).toNat < 16 ∧
      (octet >>> 4) <<< 4 ||| (octet &&& 0x0f) = octet := by
  have all : ∀ value : Fin 256, (UInt8.ofNat value >>> 4).toNat < 16 ∧
      (UInt8.ofNat value &&& 0x0f).toNat < 16 ∧
      (UInt8.ofNat value >>> 4) <<< 4 ||| (UInt8.ofNat value &&& 0x0f) = UInt8.ofNat value := by
    decide +kernel
  have here := all ⟨octet.toNat, octet.toNat_lt⟩
  simpa using here

/-- A digit is one octet, and stands for the value it was written for. -/
theorem hexDigit_octet {value : UInt8} (small : value.toNat < 16) :
    ∃ octet, String.utf8EncodeChar (hexDigit value) = [octet] ∧ nibble octet = some value := by
  have here := nibble_hexDigit ⟨value.toNat, small⟩
  rw [UInt8.ofNat_toNat] at here
  obtain ⟨octet, one, digit⟩ := List.map_eq_singleton_iff.mp here
  exact ⟨octet, one, digit⟩

theorem asBytes_hex (bytes : Bytes) :
    asBytes (hex bytes) = bytes.flatMap fun octet : UInt8 =>
      String.utf8EncodeChar (hexDigit (octet >>> 4)) ++
        String.utf8EncodeChar (hexDigit (octet &&& 0x0f)) := by
  simp [asBytes, hex, List.utf8Encode, List.flatMap_assoc]

theorem decodePairs_hex (bytes : Bytes) :
    (asBytes (hex bytes)).length % 2 = 0 ∧ decodePairs (asBytes (hex bytes)) = some bytes := by
  rw [asBytes_hex]
  induction bytes with
  | nil => exact ⟨rfl, rfl⟩
  | cons octet rest ih =>
      obtain ⟨highSmall, lowSmall, whole⟩ := halves octet
      obtain ⟨high, highOne, highDigit⟩ := hexDigit_octet highSmall
      obtain ⟨low, lowOne, lowDigit⟩ := hexDigit_octet lowSmall
      rw [List.flatMap_cons, highOne, lowOne]
      refine ⟨?_, ?_⟩
      · simp only [List.length_append, List.length_cons, List.length_nil]
        omega
      · simp [decodePairs, highDigit, lowDigit, ih.2, whole]

theorem hexDecode_hex (bytes : Bytes) : hexDecode (hex bytes) = some bytes := by
  rw [hexDecode, if_neg (by simp [(decodePairs_hex bytes).1]), (decodePairs_hex bytes).2]

end Hex

section Emit

variable (codec : NameCodec) (sha256 : Bytes → { octets : Bytes // octets.length = 32 })

/-- The first half of a digest with the version and variant bits of a UUID set. -/
def uuidV8 (label : String) (seed : Bytes) : String :=
  let digest := (sha256 (asBytes label ++ 0x00 :: seed)).val
  let bytes := ((digest.take 16).modify 6 (fun octet => octet &&& 0x0f ||| 0x80)).modify 8
    (fun octet => octet &&& 0x3f ||| 0x80)
  hex (bytes.take 4) ++ "-" ++ hex ((bytes.drop 4).take 2) ++ "-" ++ hex ((bytes.drop 6).take 2) ++
    "-" ++ hex ((bytes.drop 8).take 2) ++ "-" ++ hex (bytes.drop 10)

def prop (name value : String) : Value :=
  .object [("name", .string name), ("value", .string value),
    ("ns", .string "https://pkix.rs/oscal/pkix-lint")]

def severityLabel : Severity → String
  | .info => "info"
  | .notice => "notice"
  | .warn => "warn"
  | .error => "error"
  | .fatal => "fatal"

def deviationActionPropValue : DeviationAction → String
  | .suppress => "suppress"
  | .downgradeSeverityTo severity => "downgrade:" ++ severityLabel severity

def scopeText (scope : DeviationScope) (name : String) : String := (scope.getText name).getD ""

def scopeBytes (scope : DeviationScope) (name : String) : Bytes := (scope.getBytes name).getD []

def decodeNameDisplay (der : Bytes) : String :=
  match codec.fromDer der with
  | some name => codec.display name
  | none => "<malformed DN>"

def subjectObject (kind uuid title : String) (props : List Value) : Value :=
  .object [("type", .string kind), ("subject-uuid", .string uuid), ("title", .string title),
    ("props", .array props)]

def encodeScope (scope : DeviationScope) : List Value :=
  if scope.kind = scopeKindAny then
    [.object [("type", .string scopeKindAny),
      ("subject-uuid", .string (uuidV8 sha256 "pkix-lint.oscal.subject.scope-any" [])),
      ("title", .string "All certificates")]]
  else if scope.kind = scopeKindIssuerDnContains then
    let substring := scopeText scope propIssuerDnSubstring
    [subjectObject scopeKindIssuerDnContains
      (uuidV8 sha256 "pkix-lint.oscal.subject.issuer-dn-contains" (asBytes substring))
      ("Issuer DN contains '" ++ substring ++ "'")
      [prop propIssuerDnSubstring substring]]
  else if scope.kind = scopeKindIssuerDnExact then
    let der := scopeBytes scope propIssuerDnDer
    let nameStr := decodeNameDisplay codec der
    [subjectObject scopeKindIssuerDnExact
      (uuidV8 sha256 "pkix-lint.oscal.subject.issuer-dn-exact" der)
      ("Issuer DN equals " ++ nameStr)
      [prop "pkix-lint.issuer-dn" nameStr, prop propIssuerDnDer (hex der)]]
  else if scope.kind = scopeKindSerialRange then
    let der := scopeBytes scope propIssuerDnDer
    let start := scopeBytes scope propSerialStart
    let last := scopeBytes scope propSerialEnd
    let nameStr := decodeNameDisplay codec der
    [subjectObject scopeKindSerialRange
      (uuidV8 sha256 "pkix-lint.oscal.subject.serial-range" (der ++ 0 :: start ++ 0 :: last))
      ("Serial range [0x" ++ hex start ++ ", 0x" ++ hex last ++ "] from issuer " ++ nameStr)
      [prop "pkix-lint.issuer-dn" nameStr, prop propIssuerDnDer (hex der),
        prop propSerialStart (hex start), prop propSerialEnd (hex last)]]
  else
    let seed := asBytes scope.kind ++ scope.props.flatMap fun entry =>
      0 :: asBytes entry.1 ++ 0 :: match entry.2 with
        | .text value => asBytes value
        | .bytes value => value
    let props := scope.props.map fun entry =>
      prop entry.1 (match entry.2 with
        | .text value => value
        | .bytes value => hex value)
    [subjectObject scope.kind (uuidV8 sha256 "pkix-lint.oscal.subject.custom" seed)
      ("Custom scope '" ++ scope.kind ++ "'") props]

/-- The priority is written only when it is not the default. -/
def riskProps (deviation : Deviation) : List Value :=
  [prop "pkix-lint.deviation-id" deviation.id,
    prop "pkix-lint.target-lint" deviation.targetLint,
    prop "pkix-lint.action" (deviationActionPropValue deviation.action),
    prop "pkix-lint.authorized-by" deviation.authorizedBy] ++
  (deviation.effectiveStart.map fun start =>
    prop "pkix-lint.effective-start" (u64ToString start)).toList ++
  (deviation.effectiveEnd.map fun last =>
    prop "pkix-lint.effective-end" (u64ToString last)).toList ++
  if deviation.priority ≠ 0 then
    [prop "pkix-lint.deviation-priority" (i32ToString deviation.priority)]
  else []

def riskForDeviation (deviation : Deviation) : Value :=
  .object ([("uuid", .string (uuidV8 sha256 "pkix-lint.oscal.risk.policy" (asBytes deviation.id))),
      ("title", .string ("Deviation " ++ deviation.id ++ " for lint " ++ deviation.targetLint)),
      ("description", .string deviation.justification),
      ("statement", .string deviation.justification),
      ("status", .string "deviation-approved"),
      ("props", .array (riskProps deviation)),
      ("subjects", .array (encodeScope codec sha256 deviation.scope))] ++
    (deviation.evidenceUri.map fun uri =>
      ("links", Value.array [.object [("href", .string uri), ("rel", .string "reference"),
        ("text", .string "Deviation authorization document")]])).toList)

def risksFromStore (store : DeviationStore) : List Value :=
  store.deviations.map (riskForDeviation codec sha256)

end Emit

inductive ParseError
  | notArray
  | riskNotObject (index : Nat)
  | invalidStatus (index : Nat) (found : String)
  | missingDescription (index : Nat)
  | subjectsNotArray (index : Nat)
  | missingSubject (index : Nat)
  | subjectNotObject (index : Nat)
  | subjectMissingType (index : Nat)
  | unknownSubjectType (index : Nat) (found : String)
  | missingProp (index : Nat) (name : String)
  | missingSubjectProp (index : Nat) (name : String)
  | emptyProp (index : Nat) (name : String)
  | unknownAction (index : Nat) (found : String)
  | malformedHex (index : Nat) (prop : String)
  | malformedDer (index : Nat) (prop : String)
  | invalidU64 (index : Nat) (prop found : String)
  | invalidI32 (index : Nat) (prop found : String)
  | addFailed (index : Nat) (source : DeviationAddError)
  deriving DecidableEq, Repr

section Parse

variable (codec : NameCodec) (tables : UnicodeTables)

def okOr {α : Type} (error : ParseError) : Option α → Except ParseError α
  | some value => .ok value
  | none => .error error

def findPropValue (props : Option (List Value)) (name : String) : Option String := do
  let items ← props
  let fields ← (items.filterMap Value.asObject).find? fun fields =>
    (fields.lookup "name").bind Value.asStr == some name
  (fields.lookup "value").bind Value.asStr

def requiredNonemptyProp (idx : Nat) (value : Option String) (name : String) :
    Except ParseError String :=
  match value with
  | none => .error (.missingProp idx name)
  | some text => if text.isEmpty then .error (.emptyProp idx name) else .ok text

/-- The text after a prefix. -/
def stripPrefix (front text : String) : Option String :=
  if front.toList <+: text.toList then some (String.ofList (text.toList.drop front.toList.length))
  else none

def severityOfLabel : String → Option Severity
  | "info" => some .info
  | "notice" => some .notice
  | "warn" => some .warn
  | "error" => some .error
  | "fatal" => some .fatal
  | _ => none

def parseAction (idx : Nat) (text : String) : Except ParseError DeviationAction :=
  if text = "suppress" then .ok .suppress
  else
    match (stripPrefix "downgrade:" text).bind severityOfLabel with
    | some severity => .ok (.downgradeSeverityTo severity)
    | none => .error (.unknownAction idx text)

def parseOptionalU64 (idx : Nat) (value : Option String) (name : String) :
    Except ParseError (Option UInt64) :=
  match value with
  | none => .ok none
  | some text =>
      match parseU64 text with
      | some number => .ok (some number)
      | none => .error (.invalidU64 idx name text)

def parseOptionalI32 (idx : Nat) (value : Option String) (name : String) :
    Except ParseError (Option Int32) :=
  match value with
  | none => .ok none
  | some text =>
      match parseI32 text with
      | some number => .ok (some number)
      | none => .error (.invalidI32 idx name text)

def decodeName (idx : Nat) (der : Bytes) (name : String) : Except ParseError Name :=
  if der.isEmpty then .error (.malformedDer idx name)
  else okOr (.malformedDer idx name) (codec.fromDer der)

def parseSubject (idx : Nat) (subject : Value) : Except ParseError DeviationScope := do
  let fields ← okOr (.subjectNotObject idx) subject.asObject
  let kind ← okOr (.subjectMissingType idx) ((fields.lookup "type").bind Value.asStr)
  let props := (fields.lookup "props").bind Value.asArray
  let required := fun name => okOr (.missingSubjectProp idx name) (findPropValue props name)
  if kind = scopeKindAny then .ok DeviationScope.any
  else if kind = scopeKindIssuerDnContains then do
    let substring ← required propIssuerDnSubstring
    .ok (DeviationScope.issuerDnContains substring)
  else if kind = scopeKindIssuerDnExact then do
    let derHex ← required propIssuerDnDer
    let der ← okOr (.malformedHex idx propIssuerDnDer) (hexDecode derHex)
    let _ ← decodeName codec idx der propIssuerDnDer
    .ok (DeviationScope.issuerDnExact der)
  else if kind = scopeKindSerialRange then do
    let derHex ← required propIssuerDnDer
    let der ← okOr (.malformedHex idx propIssuerDnDer) (hexDecode derHex)
    let _ ← decodeName codec idx der propIssuerDnDer
    let startHex ← required propSerialStart
    let start ← okOr (.malformedHex idx propSerialStart) (hexDecode startHex)
    let endHex ← required propSerialEnd
    let last ← okOr (.malformedHex idx propSerialEnd) (hexDecode endHex)
    .ok (DeviationScope.serialRange der start last)
  else .error (.unknownSubjectType idx kind)

/-- The first link that refers to a document and says where it is. -/
def parseEvidenceUri (links : Option Value) : Option String := do
  let items ← links.bind Value.asArray
  items.findSome? fun link => do
    let fields ← link.asObject
    if (fields.lookup "rel").bind Value.asStr = some "reference" then
      (fields.lookup "href").bind Value.asStr
    else none

def parseRisk (idx : Nat) (risk : Value) : Except ParseError Deviation := do
  let fields ← okOr (.riskNotObject idx) risk.asObject
  let status := ((fields.lookup "status").bind Value.asStr).getD ""
  if status ≠ "deviation-approved" then .error (.invalidStatus idx status)
  else do
    let justification ← okOr (.missingDescription idx)
      ((fields.lookup "description").bind Value.asStr)
    let getProp := findPropValue ((fields.lookup "props").bind Value.asArray)
    let id ← requiredNonemptyProp idx (getProp "pkix-lint.deviation-id") "pkix-lint.deviation-id"
    let targetLint ← requiredNonemptyProp idx (getProp "pkix-lint.target-lint")
      "pkix-lint.target-lint"
    let actionStr ← requiredNonemptyProp idx (getProp "pkix-lint.action") "pkix-lint.action"
    let action ← parseAction idx actionStr
    let authorizedBy ← requiredNonemptyProp idx (getProp "pkix-lint.authorized-by")
      "pkix-lint.authorized-by"
    let effectiveStart ← parseOptionalU64 idx (getProp "pkix-lint.effective-start")
      "pkix-lint.effective-start"
    let effectiveEnd ← parseOptionalU64 idx (getProp "pkix-lint.effective-end")
      "pkix-lint.effective-end"
    let priority ← parseOptionalI32 idx (getProp "pkix-lint.deviation-priority")
      "pkix-lint.deviation-priority"
    let subjects ← okOr (.subjectsNotArray idx) ((fields.lookup "subjects").bind Value.asArray)
    let firstSubject ← okOr (.missingSubject idx) subjects.head?
    let scope ← parseSubject codec idx firstSubject
    .ok { id, targetLint, scope, effectiveStart, effectiveEnd, action, justification, authorizedBy,
          evidenceUri := parseEvidenceUri (fields.lookup "links"), priority := priority.getD 0 }

/-- The loop over the risks, with the index of the next one. -/
def addRisks : Nat → DeviationStore → List Value → Except ParseError DeviationStore
  | _, store, [] => .ok store
  | idx, store, risk :: rest => do
      let deviation ← parseRisk codec idx risk
      match store.add tables deviation with
      | .error source => .error (.addFailed idx source)
      | .ok grown => addRisks (idx + 1) grown rest

def deviationStoreFromRisks (value : Value) : Except ParseError DeviationStore := do
  let risks ← okOr .notArray value.asArray
  addRisks codec tables 0 DeviationStore.new risks

end Parse

end Pkix.Lint
