import Pkix.Path.WalkFacts
import Pkix.PathBuilder.BuildPath

/-! Chain verification: the supplied order first, then a search over the supplied
certificates and those fetched through their caIssuers URIs. -/

namespace Pkix.Chain

open Pkix.Path
open Pkix.PathBuilder (BuilderCodec buildPath buildFirstValidPath)

/-- The text of a URI, as its octets. -/
abbrev Uri := Bytes

inductive AiaError
  | fetchingDisabled
  | httpStatus (code : Nat)
  | responseTooLarge (limit actual : Nat)
  | malformedCertificate (description : String)
  | timeout
  | uriUnsupported (uri : String)
  | ioFailure (kind message : String)
  deriving DecidableEq, Repr

inductive Error
  | path (error : Path.Error)
  | revocation (error : Revocation.Error)
  | ocspDelegation (reason : String)
  | aia (error : AiaError)
  | pathBuild (error : PathBuilder.Error)
  | aiaDepthExceeded
  deriving DecidableEq, Repr

abbrev Result (α : Type) := Except Error α

/-- What chain verification calls of the DER crates besides. -/
structure ChainCodec extends BuilderCodec where
  authorityInfoAccess : Bytes → Option (List AccessDescription)
  certificate : Bytes → Except DerError Certificate

structure RevocationChecker where
  checkRevocation : (cert issuer : Certificate) → Revocation.Result Unit
  checkRevocationAgainstAnchor : (cert : Certificate) → (anchor : TrustAnchor) →
    Revocation.Result Unit

/-- The answers to a batch of URIs, which may differ from round to round. -/
abbrev AiaFetcher := (iteration : Nat) → List Uri → List (Except AiaError Bytes)

def noAiaFetcher : AiaFetcher := fun _ uris => uris.map (fun _ => .error .fetchingDisabled)

def aiaMaxDepth : Nat := 5

def oidAuthorityInfoAccess : ObjectIdentifier := ⟨[1, 3, 6, 1, 5, 5, 7, 1, 1]⟩
def oidAdCaIssuers : ObjectIdentifier := ⟨[1, 3, 6, 1, 5, 5, 7, 48, 2]⟩

section AiaExtract

variable (der : ChainCodec)

/-- The prefix in any case, and something after it. -/
def lowerPrefix (scheme : Bytes) (uri : Uri) : Bool :=
  decide (scheme.length < uri.length) &&
    (uri.take scheme.length).map toAsciiLowercase == scheme

def isHttpScheme (uri : Uri) : Bool :=
  lowerPrefix [104, 116, 116, 112, 58, 47, 47] uri ||
    lowerPrefix [104, 116, 116, 112, 115, 58, 47, 47] uri

def caIssuersUri (description : AccessDescription) : Option Uri :=
  if description.accessMethod = oidAdCaIssuers then
    match description.accessLocation with
    | .uniformResourceIdentifier uri => if isHttpScheme uri.bytes then some uri.bytes else none
    | _ => none
  else none

def caIssuersHttpUris (cert : Certificate) : List Uri :=
  (((findExtension cert oidAuthorityInfoAccess).bind (fun extension =>
    der.authorityInfoAccess extension.extnValue)).getD []).filterMap caIssuersUri

end AiaExtract

def isAiaRecoverable : Path.Error → Bool
  | .chainBroken _ => true
  | .noTrustedPath => true
  | .signatureInvalid _ => true
  | _ => false

def issuerResolvable (cert : Certificate) (pool : List Certificate)
    (anchors : List TrustAnchor) : Bool :=
  pool.any (fun other => namesMatch other.tbsCertificate.subject cert.tbsCertificate.issuer) ||
    anchors.any (fun anchor => namesMatch anchor.subject cert.tbsCertificate.issuer)

/-- Enters each URI not tried before, and lists those entered. -/
def insertNew : (tried : List Uri) → List Uri → List Uri × List Uri
  | tried, [] => (tried, [])
  | tried, uri :: uris =>
      if tried.contains uri then insertNew tried uris
      else ((insertNew (uri :: tried) uris).1, uri :: (insertNew (uri :: tried) uris).2)

/-- The pool, the URIs tried and the last failure of a fetch. -/
structure Reassembly where
  pool : List Certificate
  triedUris : List Uri
  lastAiaError : Option AiaError
  deriving DecidableEq, Repr

structure Verifier where
  anchors : List TrustAnchor
  sigVerifier : SignatureVerifier
  revChecker : RevocationChecker
  policy : ValidationPolicy
  aia : AiaFetcher

theorem anchorIndex_lt {der : DerCodec} {policy : ValidationPolicy} {verifier : SignatureVerifier}
    {chain : List Certificate} {anchors : List TrustAnchor} {validated : ValidatedPath}
    (accepted : validatePath der policy verifier chain anchors = .ok validated) :
    validated.anchorIndex < anchors.length := by
  rcases validatePath_ok accepted with ⟨_, _, anchor, _, _, _, selected, _⟩
  exact (List.getElem?_eq_some_iff.mp selected).1

def orRevocation : Revocation.Result Unit → Result Unit
  | .ok _ => .ok ()
  | .error failure => .error (.revocation failure)

def orPathBuild {α : Type} : PathBuilder.Result α → Result α
  | .ok value => .ok value
  | .error failure => .error (.pathBuild failure)

namespace Verifier

variable (der : ChainCodec) (self : Verifier)

/-- Every certificate against the next one, the last one against the anchor. -/
def checksAgainst (anchor : TrustAnchor) : List Certificate → Result Unit
  | [] => .ok ()
  | [cert] => orRevocation (self.revChecker.checkRevocationAgainstAnchor cert anchor)
  | cert :: issuer :: rest => do
      orRevocation (self.revChecker.checkRevocation cert issuer)
      checksAgainst anchor (issuer :: rest)

def runRevocationChecks (chain : List Certificate) (validated : ValidatedPath)
    (inRange : validated.anchorIndex < self.anchors.length) : Result Unit :=
  self.checksAgainst self.anchors[validated.anchorIndex] chain

section BuildWithAia

variable (leaf : Certificate)

def unresolvedUris (pool : List Certificate) : List Uri :=
  (pool.filter (fun cert => !issuerResolvable cert pool self.anchors)).flatMap
    (caIssuersHttpUris der)

/-- The results of a batch, entered one after the other, and whether any was added. -/
def absorb : List (Except AiaError Bytes) → (addedAny : Bool) → Reassembly → Bool × Reassembly
  | [], addedAny, state => (addedAny, state)
  | .error failure :: results, addedAny, state =>
      absorb results addedAny { state with lastAiaError := some failure }
  | .ok bytes :: results, addedAny, state =>
      match der.certificate bytes with
      | .ok cert => absorb results true { state with pool := state.pool ++ [cert] }
      | .error failure =>
          absorb results addedAny { state with
            lastAiaError := some (.malformedCertificate failure.message) }

def fetchRound (iteration : Nat) (state : Reassembly) (newUris triedUris : List Uri) :
    Bool × Reassembly :=
  absorb der ((newUris.zip (self.aia iteration newUris)).map (·.2)) false { state with triedUris }

/-- A chain without regard to validity, for its error to be reported. -/
def topologyOnly (pool : List Certificate) : Result (List Certificate) :=
  orPathBuild (buildPath der.toBuilderCodec leaf pool self.anchors)

def attempt (pool : List Certificate) : PathBuilder.Result (List Certificate) :=
  buildFirstValidPath der.toBuilderCodec leaf pool self.anchors self.policy self.sigVerifier

/-- The last attempt, after the last round has fetched. -/
def finalAttempt (state : Reassembly) : Result (List Certificate) :=
  match self.attempt der leaf state.pool with
  | .ok built => .ok built
  | .error (.noValidPath _ _) => self.topologyOnly der leaf state.pool
  | .error _ => .error .aiaDepthExceeded

def rounds : (left iteration : Nat) → Reassembly → Result (List Certificate)
  | 0, _, state => self.finalAttempt der leaf state
  | left + 1, iteration, state =>
      match self.attempt der leaf state.pool with
      | .ok built => .ok built
      | .error .noPathFound =>
          let collected := insertNew state.triedUris (self.unresolvedUris der state.pool)
          if collected.2.isEmpty then
            .error ((state.lastAiaError.map Error.aia).getD (.pathBuild .noPathFound))
          else
            let fetched := self.fetchRound der iteration state collected.2 collected.1
            if fetched.1 then rounds left (iteration + 1) fetched.2
            else .error (.aia (fetched.2.lastAiaError.getD .fetchingDisabled))
      | .error (.noValidPath _ _) => self.topologyOnly der leaf state.pool
      | .error failure => .error (.pathBuild failure)

variable {der self leaf} in
/-- A chain found is returned, in the last round as in any other. -/
theorem rounds_built {state : Reassembly} {built : List Certificate} (left iteration : Nat)
    (found : self.attempt der leaf state.pool = .ok built) :
    self.rounds der leaf left iteration state = .ok built := by
  cases left with
  | zero => simp [rounds, finalAttempt, found]
  | succ left => simp [rounds, found]

end BuildWithAia

def buildWithAia (suppliedChain : List Certificate) : Result (List Certificate) :=
  match suppliedChain.head? with
  | none => .error (.pathBuild .noPathFound)
  | some leaf =>
      self.rounds der leaf aiaMaxDepth 0
        { pool := suppliedChain, triedUris := [], lastAiaError := none }

def validate (chain : List Certificate) : Path.Result ValidatedPath :=
  validatePath der.toDerCodec self.policy self.sigVerifier chain self.anchors

/-- The checks on a chain that validated. -/
def checked (chain : List Certificate) (validated : ValidatedPath)
    (accepted : self.validate der chain = .ok validated) : Result ValidatedPath := do
  self.runRevocationChecks chain validated (anchorIndex_lt accepted)
  pure validated

def verifyOne (chain : List Certificate) : Result ValidatedPath :=
  match direct : self.validate der chain with
  | .ok validated => self.checked der chain validated direct
  | .error failure =>
      if isAiaRecoverable failure then do
        let built ← self.buildWithAia der chain
        match rebuilt : self.validate der built with
        | .ok validated => self.checked der built validated rebuilt
        | .error failure => .error (.path failure)
      else .error (.path failure)

end Verifier

def verifyChain (der : ChainCodec) (chain : List Certificate) (anchors : List TrustAnchor)
    (policy : ValidationPolicy) (verifier : SignatureVerifier) (revocation : RevocationChecker)
    (aia : AiaFetcher) : Result ValidatedPath :=
  Verifier.verifyOne der
    { anchors, sigVerifier := verifier, revChecker := revocation, policy, aia } chain

end Pkix.Chain
