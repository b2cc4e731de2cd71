import Mathlib.Data.Int.Order.Basic
import Mathlib.Data.List.Infix
import Pkix.Lib.Selection
import Pkix.Lib.StdText
import Pkix.Path.Names

/-! Deviations from lint findings, the certificates they cover, and the store that
holds them. -/

namespace Pkix.Lint

open Pkix.Path StdText Selection

inductive Severity
  | info
  | notice
  | warn
  | error
  | fatal
  deriving DecidableEq, Repr

inductive DeviationAddError
  | duplicateId (id : String)
  | emptyField (field : String)
  | malformedScope (kind reason : String)
  deriving DecidableEq, Repr

inductive ScopePropValue
  | text (value : String)
  | bytes (value : Bytes)
  deriving DecidableEq, Repr

structure DeviationScope where
  kind : String
  props : List (String × ScopePropValue)
  deriving DecidableEq, Repr

inductive DeviationAction
  | downgradeSeverityTo (severity : Severity)
  | suppress
  deriving DecidableEq, Repr

structure Deviation where
  id : String
  targetLint : String
  scope : DeviationScope
  effectiveStart : Option UInt64
  effectiveEnd : Option UInt64
  action : DeviationAction
  justification : String
  authorizedBy : String
  evidenceUri : Option String
  priority : Int32
  deriving DecidableEq

structure DeviationStore where
  deviations : List Deviation
  deriving DecidableEq

/-- What the crate calls of the name decoder and of its display form. -/
structure NameCodec where
  fromDer : Bytes → Option Name
  display : Name → String

def scopeKindAny : String := "pkix-lint.scope.any"
def scopeKindIssuerDnContains : String := "pkix-lint.scope.issuer-dn-contains"
def scopeKindIssuerDnExact : String := "pkix-lint.scope.issuer-dn-exact"
def scopeKindSerialRange : String := "pkix-lint.scope.serial-range"

def propIssuerDnSubstring : String := "pkix-lint.issuer-dn-substring"
def propIssuerDnDer : String := "pkix-lint.issuer-dn-der"
def propSerialStart : String := "pkix-lint.serial-start"
def propSerialEnd : String := "pkix-lint.serial-end"

def stripLeadingZeros (bytes : Bytes) : Bytes := bytes.dropWhile (· == 0)

def serialCmp (a b : Bytes) : Ordering :=
  (compare (stripLeadingZeros a).length (stripLeadingZeros b).length).then
    (compare (stripLeadingZeros a) (stripLeadingZeros b))

namespace DeviationScope

def any : DeviationScope := { kind := scopeKindAny, props := [] }

def issuerDnContains (substring : String) : DeviationScope where
  kind := scopeKindIssuerDnContains
  props := [(propIssuerDnSubstring, .text substring)]

def issuerDnExact (issuerDer : Bytes) : DeviationScope where
  kind := scopeKindIssuerDnExact
  props := [(propIssuerDnDer, .bytes issuerDer)]

def serialRange (issuerDer start last : Bytes) : DeviationScope where
  kind := scopeKindSerialRange
  props := [(propIssuerDnDer, .bytes issuerDer), (propSerialStart, .bytes start),
    (propSerialEnd, .bytes last)]

def getProp (scope : DeviationScope) (name : String) : Option ScopePropValue :=
  scope.props.findSome? fun prop => if prop.1 = name then some prop.2 else none

def getText (scope : DeviationScope) (name : String) : Option String :=
  match scope.getProp name with
  | some (.text value) => some value
  | _ => none

def getBytes (scope : DeviationScope) (name : String) : Option Bytes :=
  match scope.getProp name with
  | some (.bytes value) => some value
  | _ => none

variable (codec : NameCodec) (tables : UnicodeTables)

/-- Shared by the two scopes that name an issuer exactly. -/
def issuerMatches (scope : DeviationScope) (cert : Certificate) : Bool :=
  match (scope.getBytes propIssuerDnDer).bind codec.fromDer with
  | none => false
  | some issuer => namesMatch issuer cert.tbsCertificate.issuer

/-- An unknown kind covers no certificate. -/
def matchesCert (scope : DeviationScope) (cert : Certificate) : Bool :=
  if scope.kind = scopeKindAny then true
  else if scope.kind = scopeKindIssuerDnContains then
    match scope.getText propIssuerDnSubstring with
    | none => false
    | some substring =>
        decide (substring.toList <:+:
          (tables.toLowercase (codec.display cert.tbsCertificate.issuer)).toList)
  else if scope.kind = scopeKindIssuerDnExact then issuerMatches codec scope cert
  else if scope.kind = scopeKindSerialRange then
    match scope.getBytes propSerialStart, scope.getBytes propSerialEnd with
    | some start, some last =>
        issuerMatches codec scope cert &&
          (serialCmp cert.tbsCertificate.serialNumber start).isGE &&
          (serialCmp cert.tbsCertificate.serialNumber last).isLE
    | _, _ => false
  else false

end DeviationScope

/-- Whether a property is there with the type its scope kind expects. -/
def validateProp (scope : DeviationScope) (name expected : String)
    (typed : ScopePropValue → Bool) : Except DeviationAddError Unit :=
  match scope.getProp name with
  | none => .error (.malformedScope scope.kind ("missing required prop '" ++ name ++ "'"))
  | some value =>
      if typed value then .ok ()
      else .error (.malformedScope scope.kind
        ("prop '" ++ name ++ "' has wrong type (expected " ++ expected ++ ")"))

def ScopePropValue.isText : ScopePropValue → Bool
  | .text _ => true
  | .bytes _ => false

def ScopePropValue.isBytes : ScopePropValue → Bool
  | .text _ => false
  | .bytes _ => true

def validateScope (scope : DeviationScope) : Except DeviationAddError Unit :=
  if scope.kind = scopeKindAny then .ok ()
  else if scope.kind = scopeKindIssuerDnContains then
    validateProp scope propIssuerDnSubstring "Text" ScopePropValue.isText
  else if scope.kind = scopeKindIssuerDnExact then
    validateProp scope propIssuerDnDer "Bytes" ScopePropValue.isBytes
  else if scope.kind = scopeKindSerialRange then do
    validateProp scope propIssuerDnDer "Bytes" ScopePropValue.isBytes
    validateProp scope propSerialStart "Bytes" ScopePropValue.isBytes
    validateProp scope propSerialEnd "Bytes" ScopePropValue.isBytes
  else .ok ()

namespace Deviation

def new (id targetLint : String) (scope : DeviationScope) (action : DeviationAction)
    (justification authorizedBy : String) : Except DeviationAddError Deviation :=
  if id.isEmpty then .error (.emptyField "id")
  else if targetLint.isEmpty then .error (.emptyField "target_lint")
  else if justification.isEmpty then .error (.emptyField "justification")
  else if authorizedBy.isEmpty then .error (.emptyField "authorized_by")
  else .ok { id, targetLint, scope, effectiveStart := none, effectiveEnd := none, action,
             justification, authorizedBy, evidenceUri := none, priority := 0 }

def isActiveAt (deviation : Deviation) (nowUnix : UInt64) : Bool :=
  (match deviation.effectiveStart with
    | none => true
    | some start => decide (start ≤ nowUnix)) &&
  match deviation.effectiveEnd with
  | none => true
  | some last => decide (nowUnix < last)

def appliesTo (codec : NameCodec) (tables : UnicodeTables) (deviation : Deviation)
    (cert : Certificate) (nowUnix : UInt64) : Bool :=
  deviation.isActiveAt nowUnix && deviation.scope.matchesCert codec tables cert

end Deviation

/-- The substring of an issuer-dn-contains scope in lower case. -/
def lowerScope (tables : UnicodeTables) (scope : DeviationScope) : DeviationScope :=
  if scope.kind = scopeKindIssuerDnContains then
    { scope with props := scope.props.map fun prop =>
        match prop.2 with
        | .text value =>
            if prop.1 = propIssuerDnSubstring then (prop.1, .text (tables.toLowercase value))
            else prop
        | .bytes _ => prop }
  else scope

namespace DeviationStore

def new : DeviationStore := ⟨[]⟩

def add (tables : UnicodeTables) (store : DeviationStore) (deviation : Deviation) :
    Except DeviationAddError DeviationStore :=
  if deviation.justification.isEmpty then .error (.emptyField "justification")
  else if deviation.authorizedBy.isEmpty then .error (.emptyField "authorized_by")
  else if store.deviations.any (fun other => other.id == deviation.id) then
    .error (.duplicateId deviation.id)
  else do
    validateScope deviation.scope
    .ok ⟨store.deviations ++ [{ deviation with scope := lowerScope tables deviation.scope }]⟩

variable (codec : NameCodec) (tables : UnicodeTables)

def findDeviation (store : DeviationStore) (lintId : String) (cert : Certificate)
    (nowUnix : UInt64) : Option Deviation :=
  scanBest (fun deviation => deviation.priority.toInt)
    (fun deviation => deviation.targetLint == lintId &&
      deviation.appliesTo codec tables cert nowUnix)
    none store.deviations

def findDeviationForChain (store : DeviationStore) (lintId : String) (chain : List Certificate)
    (nowUnix : UInt64) : Option Deviation :=
  scanBest (fun deviation => deviation.priority.toInt)
    (fun deviation => deviation.targetLint == lintId &&
      chain.any (fun cert => deviation.appliesTo codec tables cert nowUnix))
    none store.deviations

end DeviationStore

end Pkix.Lint
