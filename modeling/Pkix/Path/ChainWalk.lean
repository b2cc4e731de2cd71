import Pkix.Lib.Walk
import Pkix.Path.NameConstraintState
import Pkix.Path.PolicyTree

/-! The walk from the trust anchor down to the leaf, and the choice of the anchor. -/

namespace Pkix.Path

/-- Whether the signature over the message verifies under the issuer's key. -/
abbrev SignatureVerifier :=
  AlgorithmIdentifier → SubjectPublicKeyInfo → (message signature : Bytes) → Bool

structure TrustAnchor where
  subject : Name
  subjectPublicKeyInfo : SubjectPublicKeyInfo
  nameConstraints : Option NameConstraints
  deriving DecidableEq, Repr

inductive DnAttrRule
  | field (oid : ObjectIdentifier)
  | allOf (rules : List DnAttrRule)
  | anyOf (rules : List DnAttrRule)

def dnContainsOid (subject : Name) (oid : ObjectIdentifier) : Bool :=
  subject.any (fun rdn => rdn.any (fun ava => ava.oid == oid))

mutual

def evaluateDnAttrRule (subject : Name) : DnAttrRule → Bool
  | .field oid => dnContainsOid subject oid
  | .allOf rules => evaluateAll subject rules
  | .anyOf rules => evaluateAny subject rules

def evaluateAll (subject : Name) : List DnAttrRule → Bool
  | [] => true
  | rule :: rules => evaluateDnAttrRule subject rule && evaluateAll subject rules

def evaluateAny (subject : Name) : List DnAttrRule → Bool
  | [] => false
  | rule :: rules => evaluateDnAttrRule subject rule || evaluateAny subject rules

end

structure ValidationPolicy where
  maxPathLen : Nat
  currentTimeUnix : Nat
  enforceKeyUsage : Bool
  requireCrlSignOnCas : Bool
  initialExplicitPolicy : Bool
  initialAnyPolicyInhibit : Bool
  initialPolicyMappingInhibit : Bool
  initialPolicySet : List ObjectIdentifier
  maxValiditySecs : Option Nat
  allowedSignatureAlgs : Option (List ObjectIdentifier)
  minRsaKeyBits : Option Nat
  requireSubjectAltName : Bool
  requireRfc822San : Bool
  requiredLeafEku : Option (List ObjectIdentifier)
  requiredLeafPolicyOids : Option (List ObjectIdentifier)
  requiredLeafSubjectDnAttrs : Option DnAttrRule

def ValidationPolicy.new (nowUnix : Nat) : ValidationPolicy :=
  { maxPathLen := 10
    currentTimeUnix := nowUnix
    enforceKeyUsage := true
    requireCrlSignOnCas := false
    initialExplicitPolicy := false
    initialAnyPolicyInhibit := false
    initialPolicyMappingInhibit := false
    initialPolicySet := []
    maxValiditySecs := none
    allowedSignatureAlgs := none
    minRsaKeyBits := none
    requireSubjectAltName := false
    requireRfc822San := false
    requiredLeafEku := none
    requiredLeafPolicyOids := none
    requiredLeafSubjectDnAttrs := none }

structure PolicyCounters where
  explicitPolicy : Nat
  inhibitAny : Nat
  policyMapping : Nat
  deriving DecidableEq, Repr

structure PolicyState where
  counters : PolicyCounters
  policyTree : Option PolicyTree
  deriving DecidableEq, Repr

structure WorkingIssuer where
  workingSpki : SubjectPublicKeyInfo
  workingIssuerName : Name
  workingIssuerIsSanIdentity : Bool
  deriving DecidableEq, Repr

structure WorkingState where
  issuer : WorkingIssuer
  names : NameConstraintState
  policies : PolicyState
  deriving DecidableEq, Repr

def requireThat (condition : Bool) (failure : Error) : Result Unit :=
  if condition then .ok () else .error failure

def timeToUnixSecs : Time → Nat
  | .utcTime time => time.unixDuration
  | .generalTime time => time.unixDuration

def isSelfIssuedCert (cert : Certificate) : Bool :=
  !cert.tbsCertificate.subject.isEmpty &&
    namesMatch cert.tbsCertificate.subject cert.tbsCertificate.issuer

def certHasSanIdentity (cert : Certificate) : Bool :=
  if cert.tbsCertificate.subject.isEmpty then
    cert.extensions.any (fun extension =>
      extension.extnId == oidSubjectAltName && extension.critical)
  else false

section PerCertificate

variable (der : DerCodec) (policy : ValidationPolicy) (cert : Certificate) (index : Nat)

def enforceSignatureAlgAllowlist : Result Unit :=
  match policy.allowedSignatureAlgs with
  | none => .ok ()
  | some allowed =>
      requireThat (allowed.contains cert.signatureAlgorithm.oid) (.algorithmNotAllowed index)

def verifyCertSignature (workingSpki : SubjectPublicKeyInfo) (verifier : SignatureVerifier) :
    Result Unit :=
  match der.encodeTbs cert.tbsCertificate with
  | .error failure => .error (.der failure)
  | .ok tbsBytes =>
      requireThat (verifier cert.signatureAlgorithm workingSpki tbsBytes cert.signature.rawBytes)
        (.signatureInvalid index)

def checkIssuerLinkage (workingIssuerName : Name) (workingIssuerIsSanIdentity : Bool) :
    Result Unit :=
  requireThat
    (workingIssuerIsSanIdentity || namesMatch workingIssuerName cert.tbsCertificate.issuer)
    (.chainBroken index)

def checkValidity (nowUnix : Nat) : Result Unit :=
  requireThat
    (decide (timeToUnixSecs cert.tbsCertificate.validity.notBefore ≤ nowUnix ∧
      nowUnix ≤ timeToUnixSecs cert.tbsCertificate.validity.notAfter))
    (.validityPeriod index)

def checkMaxValidity : Result Unit :=
  match policy.maxValiditySecs with
  | none => .ok ()
  | some maxSecs =>
      requireThat
        (decide (timeToUnixSecs cert.tbsCertificate.validity.notAfter -
          timeToUnixSecs cert.tbsCertificate.validity.notBefore ≤ maxSecs))
        (.validityPeriodExceedsMax index)

/-- Whole bytes of the modulus times eight; a count past 32 bits is no count. -/
def rsaPublicKeyBits (spki : SubjectPublicKeyInfo) : Option Nat :=
  if spki.algorithm.oid = oidRsaEncryption then
    match spki.subjectPublicKey.asBytes with
    | none => none
    | some raw =>
        match der.rsaModulus raw with
        | none => none
        | some modulus => if modulus.length * 8 ≤ u32Max then some (modulus.length * 8) else none
  else none

def checkMinRsaBits : Result Unit :=
  match policy.minRsaKeyBits with
  | none => .ok ()
  | some minBits =>
      match rsaPublicKeyBits der cert.tbsCertificate.subjectPublicKeyInfo with
      | none => .ok ()
      | some actualBits => requireThat (decide (minBits ≤ actualBits)) (.keyTooSmall index)

def checkCriticalExtensions : Result Unit :=
  requireThat
    (cert.extensions.all (fun extension =>
      !extension.critical || handledCriticalOids.contains extension.extnId))
    (.unhandledCriticalExtension index)

def certPolicies : Result (Option CertificatePolicies) :=
  tryFindCertExt der.certificatePolicies cert oidCertificatePolicies index

/-- Non-leaf self-issued certificates are exempt from the name checks. -/
def checkNamesUnlessExempt (san : Option SubjectAltName) (state : NameConstraintState) :
    Result Unit :=
  if index = 0 ∨ isSelfIssuedCert cert = false then
    checkNameConstraints der cert san state index
  else .ok ()

def checkLeafSan (san : Option SubjectAltName) : Result Unit :=
  requireThat (!policy.requireSubjectAltName || !(san.getD []).isEmpty) .missingSan

def checkLeafEku : Result Unit :=
  match policy.requiredLeafEku with
  | none => .ok ()
  | some requiredEkus => do
      let eku ← tryFindCertExt der.extendedKeyUsage cert oidExtendedKeyUsage 0
      requireThat (requiredEkus.all (fun required => (eku.getD []).contains required)) .missingEku

def checkLeafPolicyOids (policies : Option CertificatePolicies) : Result Unit :=
  match policy.requiredLeafPolicyOids with
  | none => .ok ()
  | some requiredOids =>
      match requiredOids.find? (fun required =>
        !(policies.getD []).any (fun information => information.policyIdentifier == required)) with
      | none => .ok ()
      | some required => .error (.missingLeafPolicyOid required)

def checkLeafDnAttrs : Result Unit :=
  match policy.requiredLeafSubjectDnAttrs with
  | none => .ok ()
  | some rule =>
      requireThat (evaluateDnAttrRule cert.tbsCertificate.subject rule) .subjectDnAttrRuleUnmet

def isRfc822Name : GeneralName → Bool
  | .rfc822Name _ => true
  | _ => false

def checkLeafRfc822San (san : Option SubjectAltName) : Result Unit :=
  requireThat
    (!(policy.requireSubjectAltName && policy.requireRfc822San) ||
      (san.getD []).any isRfc822Name)
    .missingRfc822San

def checkLeaf (san : Option SubjectAltName) (policies : Option CertificatePolicies) :
    Result Unit :=
  if index = 0 then do
    checkLeafSan policy san
    checkLeafEku der policy cert
    checkLeafPolicyOids policy policies
    checkLeafDnAttrs policy cert
    checkLeafRfc822San policy san
  else .ok ()

def hasKeyCertSign : Result (Option Bool) := do
  let usage ← tryFindCertExt der.keyUsage cert oidKeyUsage index
  pure (usage.map (·.keyCertSign))

def hasCrlSign : Result (Option Bool) := do
  let usage ← tryFindCertExt der.keyUsage cert oidKeyUsage index
  pure (usage.map (·.crlSign))

def checkKeyCertSign : Result Unit :=
  if policy.enforceKeyUsage then do
    let bit ← hasKeyCertSign der cert index
    requireThat (bit != some false) (.keyUsageMissing index)
  else .ok ()

def checkCrlSign : Result Unit :=
  if policy.requireCrlSignOnCas then do
    let bit ← hasCrlSign der cert index
    requireThat (bit != some false) (.crlSignMissing index)
  else .ok ()

def nonSelfIssuedCount (certs : List Certificate) : Nat :=
  (certs.filter (fun cert => !isSelfIssuedCert cert)).length

/-- The certificates strictly between the leaf and position `index`. -/
def intermediatesBelow (chain : List Certificate) : List Certificate :=
  (chain.take index).drop 1

def checkPathLen (chain : List Certificate) (constraints : Option BasicConstraints) :
    Result Unit :=
  match constraints.bind (·.pathLenConstraint) with
  | none => .ok ()
  | some pathLen =>
      requireThat (decide (nonSelfIssuedCount (intermediatesBelow index chain) ≤ pathLen))
        .pathTooLong

def checkCa (chain : List Certificate) : Result Unit := do
  let constraints ← tryFindCertExt der.basicConstraints cert oidBasicConstraints index
  requireThat ((constraints.map (·.ca)).getD false) (.notCA index)
  checkKeyCertSign der policy cert index
  checkCrlSign der policy cert index
  checkPathLen index chain constraints

end PerCertificate

section PolicySteps

variable (der : DerCodec) (cert : Certificate) (index depth : Nat)

def mayExpandAnyPolicy (inhibitAny : Nat) : Bool :=
  decide (0 < inhibitAny) || (decide (0 < index) && isSelfIssuedCert cert)

def processCertPolicies (policies : Option CertificatePolicies) (state : PolicyState) :
    PolicyState :=
  { state with
    policyTree := state.policyTree.bind (fun tree =>
      processPolicies tree depth (mayExpandAnyPolicy cert index state.counters.inhibitAny) policies) }

def checkExplicitPolicy (state : PolicyState) : Result Unit :=
  requireThat (!(state.counters.explicitPolicy == 0 && state.policyTree.isNone))
    (.policyViolation index)

def mapPolicies (policies : Option CertificatePolicies) (mappings : Option PolicyMappings)
    (state : PolicyState) : Result (Option PolicyTree) :=
  match mappings with
  | none => .ok state.policyTree
  | some mappings =>
      if mapsAnyPolicy mappings then .error (.policyViolation index)
      else
        .ok (state.policyTree.map
          (applyPolicyMappings depth state.counters.policyMapping policies mappings))

def collapseNullTree (tree : Option PolicyTree) : Option PolicyTree :=
  tree.bind (fun tree => policyTreePostOpPrune tree 0)

def decrementCounters (counters : PolicyCounters) : PolicyCounters :=
  if isSelfIssuedCert cert then counters
  else
    { explicitPolicy := counters.explicitPolicy - 1
      inhibitAny := counters.inhibitAny - 1
      policyMapping := counters.policyMapping - 1 }

def clampTo (counter : Nat) : Option Nat → Nat
  | none => counter
  | some bound => min counter bound

def clampConstraints (constraints : Option PolicyConstraints) (counters : PolicyCounters) :
    PolicyCounters :=
  { counters with
    explicitPolicy := clampTo counters.explicitPolicy (constraints.bind (·.requireExplicitPolicy))
    policyMapping := clampTo counters.policyMapping (constraints.bind (·.inhibitPolicyMapping)) }

def clampInhibitAny (inhibit : Option InhibitAnyPolicy) (counters : PolicyCounters) :
    PolicyCounters :=
  { counters with inhibitAny := clampTo counters.inhibitAny inhibit }

/-- Policy mappings, counters and their clamps, for every certificate but the leaf. -/
def caPolicyStep (policies : Option CertificatePolicies) (state : PolicyState) :
    Result PolicyState := do
  let mappings ← tryFindCertExt der.policyMappings cert oidPolicyMappings index
  let mapped ← mapPolicies index depth policies mappings state
  let collapsed := collapseNullTree mapped
  let decremented := decrementCounters cert state.counters
  let constraints ← tryFindCertExt der.policyConstraints cert oidPolicyConstraints index
  let clamped := clampConstraints constraints decremented
  let inhibit ← tryFindCertExt der.inhibitAnyPolicy cert oidInhibitAnyPolicy index
  pure { counters := clampInhibitAny inhibit clamped, policyTree := collapsed }

def caNamesStep (state : NameConstraintState) : Result NameConstraintState := do
  let nc ← certNameConstraints der cert index
  pure (match nc with
    | none => state
    | some nc => updateNameConstraints state nc)

end PolicySteps

section Walk

variable (der : DerCodec) (policy : ValidationPolicy) (verifier : SignatureVerifier)
variable (chain : List Certificate)

/-- The checks that read only the certificate, the policy and the working issuer. -/
def certChecks (cert : Certificate) (index : Nat) (issuer : WorkingIssuer) : Result Unit := do
  enforceSignatureAlgAllowlist policy cert index
  verifyCertSignature der cert index issuer.workingSpki verifier
  checkIssuerLinkage cert index issuer.workingIssuerName issuer.workingIssuerIsSanIdentity
  checkValidity cert index policy.currentTimeUnix
  checkMaxValidity policy cert index
  checkMinRsaBits der policy cert index
  checkCriticalExtensions cert index

def caStep (cert : Certificate) (index : Nat) (policies : Option CertificatePolicies)
    (state : WorkingState) : Result WorkingState :=
  if index = 0 then .ok state
  else do
    checkCa der policy cert index chain
    let policyState ← caPolicyStep der cert index (chain.length - index) policies state.policies
    let nameState ← caNamesStep der cert index state.names
    pure { state with policies := policyState, names := nameState }

/-- The issuer the next certificate is checked against. -/
def issuerOf (cert : Certificate) : WorkingIssuer :=
  { workingSpki := cert.tbsCertificate.subjectPublicKeyInfo
    workingIssuerName := cert.tbsCertificate.subject
    workingIssuerIsSanIdentity := certHasSanIdentity cert }

/-- One iteration of the loop. `below` holds the certificates still to come, so
its length is the index of the current one. -/
def certStep (cert : Certificate) (below : List Certificate) (state : WorkingState) :
    Result WorkingState := do
  let index := below.length
  certChecks der policy verifier cert index state.issuer
  let policies ← certPolicies der cert index
  let processed :=
    processCertPolicies cert index (chain.length - index) policies state.policies
  checkExplicitPolicy index processed
  let san ← certSubjectAltNames der cert index
  checkNamesUnlessExempt der cert index san state.names
  checkLeaf der policy cert index san policies
  let updated ← caStep der policy chain cert index policies { state with policies := processed }
  pure { updated with issuer := issuerOf cert }

def initialCounter (inhibited : Bool) : Nat :=
  if inhibited then 0 else min (min chain.length u32Max + 1) u32Max

def initialCounters : PolicyCounters :=
  { explicitPolicy := initialCounter chain policy.initialExplicitPolicy
    inhibitAny := initialCounter chain policy.initialAnyPolicyInhibit
    policyMapping := initialCounter chain policy.initialPolicyMappingInhibit }

def initialPolicyState : PolicyState :=
  { counters := initialCounters policy chain, policyTree := some initPolicyTree }

def initialState (anchor : TrustAnchor) : WorkingState :=
  { issuer :=
      { workingSpki := anchor.subjectPublicKeyInfo
        workingIssuerName := anchor.subject
        workingIssuerIsSanIdentity := false }
    names := initialNameConstraints anchor.nameConstraints
    policies := initialPolicyState policy chain }

/-- The loop over the chain, from the certificate next to the anchor to the leaf. -/
def walkCerts (anchor : TrustAnchor) : Result WorkingState :=
  Walk.walk (certStep der policy verifier chain) chain.reverse (initialState policy chain anchor)

/-- The leaf's explicit-policy counter after the loop. -/
def wrapUpExplicitPolicy (leaf : Certificate) (explicitPolicy : Nat) : Result Nat := do
  let decremented := if isSelfIssuedCert leaf then explicitPolicy else explicitPolicy - 1
  let constraints ← tryFindCertExt der.policyConstraints leaf oidPolicyConstraints 0
  pure (clampTo decremented (constraints.bind (·.requireExplicitPolicy)))

def trimPolicyTree (initialPolicySet : List ObjectIdentifier) (leafDepth : Nat)
    (tree : Option PolicyTree) : Option PolicyTree :=
  if initialPolicySet.isEmpty then tree
  else tree.bind (fun tree => intersectInitialPolicySet tree initialPolicySet leafDepth)

def wrapUp (leaf : Certificate) (state : PolicyState) : Result (Option PolicyTree) := do
  let explicitPolicy ← wrapUpExplicitPolicy der leaf state.counters.explicitPolicy
  let tree := trimPolicyTree policy.initialPolicySet chain.length state.policyTree
  requireThat (!(explicitPolicy == 0 && tree.isNone)) (.policyViolation 0)
  pure tree

def chainWalk (leaf : Certificate) (anchor : TrustAnchor) : Result (Option PolicyTree) := do
  let final ← walkCerts der policy verifier chain anchor
  wrapUp der policy chain leaf final.policies

end Walk

structure ValidatedPath where
  anchorIndex : Nat
  depth : Nat
  leafSubject : Name
  leafIssuer : Name
  leafSerial : Bytes
  leafSpki : SubjectPublicKeyInfo
  validPolicyTree : Option PolicyTree
  deriving DecidableEq, Repr

def sameCertificate (a b : Certificate) : Bool :=
  namesMatch a.tbsCertificate.issuer b.tbsCertificate.issuer &&
    a.tbsCertificate.serialNumber == b.tbsCertificate.serialNumber

def checkDuplicatesOf (cert : Certificate) (first : Nat) : Nat → List Certificate → Result Unit
  | _, [] => .ok ()
  | second, other :: rest =>
      if sameCertificate cert other then .error (.duplicateCertificate first second)
      else checkDuplicatesOf cert first (second + 1) rest

def checkDuplicates : Nat → List Certificate → Result Unit
  | _, [] => .ok ()
  | first, cert :: rest => do
      checkDuplicatesOf cert first (first + 1) rest
      checkDuplicates (first + 1) rest

def checkInputs (chain : List Certificate) (anchors : List TrustAnchor) : Result Unit :=
  if chain.isEmpty || anchors.isEmpty then .error .noTrustedPath
  else checkDuplicates 0 chain

def checkOidConsistency : Nat → List Certificate → Result Unit
  | _, [] => .ok ()
  | index, cert :: rest =>
      if cert.signatureAlgorithm.oid = cert.tbsCertificate.signature.oid then
        checkOidConsistency (index + 1) rest
      else .error (.malformedCertificate index)

def spkiKeyMatches (a b : SubjectPublicKeyInfo) : Bool :=
  a.algorithm.oid == b.algorithm.oid && a.subjectPublicKey == b.subjectPublicKey

/-- The name and key filters an anchor passes before the walk is tried from it. -/
def isCandidate (lastCert : Certificate) (anchor : TrustAnchor) : Bool :=
  namesMatch anchor.subject lastCert.tbsCertificate.issuer &&
    (!namesMatch lastCert.tbsCertificate.issuer lastCert.tbsCertificate.subject ||
      spkiKeyMatches anchor.subjectPublicKeyInfo lastCert.tbsCertificate.subjectPublicKeyInfo)

def validatedPath (chain : List Certificate) (leaf : Certificate) (anchorIndex : Nat)
    (tree : Option PolicyTree) : ValidatedPath :=
  { anchorIndex
    depth := chain.length - 1
    leafSubject := leaf.tbsCertificate.subject
    leafIssuer := leaf.tbsCertificate.issuer
    leafSerial := leaf.tbsCertificate.serialNumber
    leafSpki := leaf.tbsCertificate.subjectPublicKeyInfo
    validPolicyTree := tree }

section Anchors

variable (der : DerCodec) (policy : ValidationPolicy) (verifier : SignatureVerifier)
variable (chain : List Certificate)

/-- The anchors in order; the error of the last walk tried is kept. -/
def tryAnchors (leaf lastCert : Certificate) : Nat → Error → List TrustAnchor →
    Result ValidatedPath
  | _, lastErr, [] => .error lastErr
  | anchorIndex, lastErr, anchor :: rest =>
      if isCandidate lastCert anchor then
        match chainWalk der policy verifier chain leaf anchor with
        | .ok tree => .ok (validatedPath chain leaf anchorIndex tree)
        | .error failure => tryAnchors leaf lastCert (anchorIndex + 1) failure rest
      else tryAnchors leaf lastCert (anchorIndex + 1) lastErr rest

def checkMaxPathLen : Result Unit :=
  requireThat (decide (nonSelfIssuedCount (chain.drop 1) ≤ policy.maxPathLen)) .pathTooLong

def validatePath (anchors : List TrustAnchor) : Result ValidatedPath := do
  checkInputs chain anchors
  checkOidConsistency 0 chain
  checkMaxPathLen policy chain
  match chain.head?, chain.getLast? with
  | some leaf, some lastCert =>
      tryAnchors der policy verifier chain leaf lastCert 0 .noTrustedPath anchors
  | _, _ => .error .noTrustedPath

end Anchors

end Pkix.Path
